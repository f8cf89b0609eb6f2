import FreshCity.EndingWars
import FreshCity.Existence
import FreshCity.TimerOwners

/-!
# Timers of zones that are gone

The destructor of a gang zone destroys no timer. Whatever timer of the zone is pending when the
zone is removed, or when all zones are loaded again, fires on an object that is not there.
-/
namespace FreshCity
open Imperative Prog Run

/-! ## Zones -/

/-- The timer was given the zone. -/
def GangZoneItem.minds (zone : GangZoneItem) (tm : Timer) : Bool :=
  tm.callback = .endTurfWar zone.addr || tm.callback = .turfWarWaitTimeout zone.addr

/-- Every pending timer of a war is one of a zone that is there. -/
def Server.WarsMinded (s : Server) : Prop :=
  Minded (fun _ zone tm => GangZoneItem.minds zone tm = true) s.zones (s.timersFor .zone)

section Zones
set_option synthInstance.maxSize 3000
open Server
variable {s t : Server} {k : Kind} {z p : ℤ} {zone zone' : GangZoneItem} {tm tm' : Timer}

theorem GangZoneItem.minds_congr (haddr : zone'.addr = zone.addr) (htm : tm.SameTimer tm') :
    zone'.minds tm' = zone.minds tm := by
  rw [minds, minds, haddr, htm.callback]

/-- The kinds that neither create such a timer nor take a zone away. -/
def Kind.sparesWars : Kind → Bool
  | createTimer .zone => false
  | zones => false
  | _ => true

theorem Kind.warsMinded (h : k.change s t) (hk : k.sparesWars = true) (hs : s.WarsMinded) :
    t.WarsMinded := by
  have hzones : Minded (fun _ zone tm => GangZoneItem.minds zone tm = true) t.zones
      (s.timersFor .zone) := by
    by_cases hdata : k = .zoneData
    · subst hdata
      obtain ⟨z, g, hg, rfl⟩ := h
      refine Minded.adjust hs fun zone tm _ _ hminds => ?_
      rw [GangZoneItem.minds_congr (hg zone).addr ⟨rfl, rfl⟩]
      exact hminds
    · rw [(Kind.frame h).zones (by rintro rfl; cases hk) hdata]
      exact hs
  refine hzones.of_refs fun tm' htm' => ?_
  obtain ⟨tm, htm, hsame⟩ := Kind.timersFor_of_change h (by rintro rfl; cases hk) tm' htm'
  exact ⟨tm, htm, fun _ _ hminds => (GangZoneItem.minds_congr rfl hsame).trans hminds⟩

theorem keeps_wars_of_stays {α : Type} {K : List Kind} {x : Game α} (hx : Stays K x)
    (hK : ∀ k ∈ K, k.sparesWars = true) : Keeps WarsMinded x :=
  hx.keeps fun k hk _ _ hab ha => Kind.warsMinded hab (hK k hk) ha

/-- A zone at an address is registered. -/
def Server.ZoneAt (z : ℤ) (a : ℕ) (s : Server) : Prop :=
  ∃ zone, s.zones.lookup z = some zone ∧ zone.addr = a

/-- What starting a war does beside creating its timers. -/
abbrev warKinds : List Kind := [.output, .sampZones, .zoneData]

theorem keeps_warKinds {α : Type} {x : Game α} {a : ℕ} [hx : Stays warKinds x] :
    Keeps (fun u => u.WarsMinded ∧ u.ZoneAt z a) x := by
  refine hx.keeps fun k hk u v huv hu => ?_
  have hspare : k.sparesWars = true ∧ k ≠ .zones := by
    revert k
    simp [Kind.sparesWars]
  refine ⟨Kind.warsMinded huv hspare.1 hu.1, ?_⟩
  obtain ⟨zone, hzone, haddr⟩ := hu.2
  by_cases hdata : k = .zoneData
  · subst hdata
    obtain ⟨j, g, hg, rfl⟩ := huv
    by_cases hj : z = j
    · subst hj
      exact ⟨g zone, Map.lookup_adjust_self hzone g, (hg zone).addr.trans haddr⟩
    · exact ⟨zone, by rw [Map.lookup_adjust, if_neg hj, hzone], haddr⟩
  · exact ⟨zone, by rw [(Kind.frame huv).zones hspare.2 hdata, hzone], haddr⟩

/-- A timer is created for a zone that is registered. -/
theorem keeps_wars_createTimer {a : ℕ} {callback : TimerCallback} {period : ℤ} {repeats : Bool}
    (hcallback : callback = .endTurfWar a ∨ callback = .turfWarWaitTimeout a) :
    Keeps (fun u => u.WarsMinded ∧ u.ZoneAt z a) (createTimer callback period repeats) := by
  refine keeps_of_wp fun u hu => ⟨?_, hu.2⟩
  obtain ⟨zone, hzone, rfl⟩ := hu.2
  have htarget : callback.target = .zone := by
    rcases hcallback with rfl | rfl <;> rfl
  have hold : Minded (fun _ zone tm => GangZoneItem.minds zone tm = true) u.zones
      (⟨u.nexthandle, callback, period, repeats, u.env.clock + period⟩ :: u.timersFor .zone) := by
    refine Minded.cons hu.1 hzone ?_
    rcases hcallback with rfl | rfl <;> simp [GangZoneItem.minds]
  refine hold.of_refs fun tm htm => ⟨tm, ?_, fun _ _ hminds => hminds⟩
  obtain ⟨hmem, htm⟩ := mem_timersFor.mp htm
  rcases List.mem_cons.mp hmem with rfl | hmem
  · exact List.mem_cons_self ..
  · exact List.mem_cons_of_mem _ (mem_timersFor.mpr ⟨hmem, htm⟩)

theorem keeps_wars_startWar : Keeps WarsMinded (GangZoneItem.startWar z p) := by
  refine keeps_of_wp fun s h => ?_
  rw [GangZoneItem.startWar, GangZoneItem.ref, wp_bind, wp_bind, wp_gets, wp_orUndefined]
  intro zone hzone
  have hkinds : ∀ {α : Type} {x : Game α} [Stays warKinds x],
      Keeps (fun u => u.WarsMinded ∧ u.ZoneAt z zone.addr) x := keeps_warKinds
  have hend : ∀ d r, Keeps (fun u => u.WarsMinded ∧ u.ZoneAt z zone.addr)
      (createTimer (.endTurfWar zone.addr) d r) := fun _ _ => keeps_wars_createTimer (.inl rfl)
  have htimeout : ∀ d r, Keeps (fun u => u.WarsMinded ∧ u.ZoneAt z zone.addr)
      (createTimer (.turfWarWaitTimeout zone.addr) d r) := fun _ _ =>
    keeps_wars_createTimer (.inr rfl)
  have hrest : Keeps (fun u => u.WarsMinded ∧ u.ZoneAt z zone.addr) (do
      let attacker ← Profile.ref p
      if zone.warinfo.inWar then pure false
      else if attacker.team = zone.owner then pure false
      else
        GangZoneItem.beginWar z zone attacker.team
        pure true) := by
    unfold GangZoneItem.beginWar GangZoneItem.createWarTimer
    infer_instance
  exact wp_mono (hrest.wp_of_keeps ⟨h, zone, hzone, rfl⟩) (fun _ _ ht => ht.1)
    (fun _ _ ht => ht.1)

/-- The kinds of change of a pickup beside those of a war. -/
abbrev pickupKinds : List Kind := [.output, .samp, .sampMoney, .sampZones, .database, .streamer,
  .zoneData, .pickups, .profileGame, .profileMoney, .profileVars, .setVar .propertyLastviewtime,
  .setVar .propertyLastviewed]

theorem keeps_wars_pickUp : Keeps WarsMinded (Event.run (.pickUpPickup p)) := by
  have hkinds : ∀ {α : Type} {x : Game α} [Stays pickupKinds x], Keeps WarsMinded x :=
    fun {_ _} _ => keeps_wars_of_stays (K := pickupKinds) inferInstance (by simp [Kind.sparesWars])
  have hstart : ∀ z, Keeps WarsMinded (GangZoneItem.startWar z p) := fun _ => keeps_wars_startWar
  have heffect : ∀ cls : PickupClass, Keeps WarsMinded (cls.effect p) := by
    intro cls
    cases cls
    case turfWarTrigger z =>
      unfold PickupClass.effect PickupClass.triggerTurfWar
      infer_instance
    all_goals
      unfold PickupClass.effect
      infer_instance
  unfold Event.run discard onPlayerPickUpPickup reported PickupManager.exec
  infer_instance

theorem keeps_wars_add : Keeps WarsMinded (GangZoneManager.add zone) := by
  have hdestruct : Keeps WarsMinded zone.destruct :=
    keeps_wars_of_stays (K := [.sampZones, .streamer, .areas, .pickups]) inferInstance
      (by simp [Kind.sparesWars])
  refine keeps_of_wp fun s h => ?_
  rw [GangZoneManager.add, wp_bind, wp_gets, id_eq, wp_ite]
  split
  case isTrue =>
    rw [wp_bind]
    exact wp_mono (hdestruct.wp_of_keeps h) (fun _ _ ht => ht) (fun _ _ ht => ht)
  case isFalse hnew => exact Minded.insert h hnew

theorem keeps_wars_create {listitem : ℤ} :
    Keeps WarsMinded (Dialog.gangZoneCreateProcess p listitem) := by
  have hkinds : ∀ {α : Type} {x : Game α} [Stays [.output, .sampZones, .database, .streamer,
      .counters, .profileVars, .areas, .pickups, .insert .waypoint, .insert .gangzone] x],
      Keeps WarsMinded x :=
    fun {_ _} h => keeps_wars_of_stays h (by simp [Kind.sparesWars])
  have hadd : ∀ zone, Keeps WarsMinded (GangZoneManager.add zone) := fun _ => keeps_wars_add
  unfold Dialog.gangZoneCreateProcess Dialog.finishCreation Dialog.modifyCreation
  refine within_bind (j := fun _ => within_bind (j := fun _ => ?_))
  split <;> infer_instance

/-- A zone whose document was removed leaves the registry. If its removal is refused, it stays. -/
theorem wp_gangZoneRemove_wars {inputtext : Text} (h : s.WarsMinded)
    (hfree : ∀ zone, s.zones.lookup ((scanInt inputtext).getD (s.env.uninitialised 5)) = some zone →
      ItemOp.destroy.returns .gangzone zone.item s.database = true →
      ∀ tm ∈ s.timersFor .zone, zone.minds tm = false) :
    wp (Dialog.gangZoneRemove p inputtext) (fun _ => WarsMinded) (fun _ => WarsMinded) s := by
  rw [Dialog.gangZoneRemove, scanZone, wp_bind, wp_bind, wp_gets, wp_pure]
  generalize (scanInt inputtext).getD (s.env.uninitialised 5) = z at hfree ⊢
  rw [gangZoneMgr, wp_bind, wp_bind, wp_gets, getItem, wp_orRaise]
  refine ⟨fun zone hzone => ?_, fun _ => h⟩
  rw [wp_bind, GangZoneItem.destroy, GangZoneItem.withItem, wp_focus]
  intro item hitem
  rw [hzone, Option.map_some, Option.some.injEq] at hitem
  subst hitem
  -- the document is removed first: neither zones nor timers change
  have hstays : MethodStays [.output, .database, .remove .gangzone]
      (SaveableItem.destroy .gangzone) := inferInstance
  have hsame : wp (SaveableItem.destroy .gangzone)
      (fun _ q => q.2.zones = s.zones ∧ q.2.timers = s.timers)
      (fun _ q => q.2.zones = s.zones ∧ q.2.timers = s.timers) (zone.item, s) := by
    have hpath : ∀ q : SaveableItem × Server,
        Path Kind.change [.output, .database, .remove .gangzone] s q.2 →
        q.2.zones = s.zones ∧ q.2.timers = s.timers := by
      intro q hq
      have hzones : ∀ k ∈ [Kind.output, .database, .remove .gangzone], ∀ a b : Server,
          Kind.change k a b → b.zones = a.zones := fun k hk _ _ hab => (Kind.frame hab).zones
        (by rintro rfl; simp at hk) (by rintro rfl; simp at hk)
      have htimers : ∀ k ∈ [Kind.output, .database, .remove .gangzone], ∀ a b : Server,
          Kind.change k a b → b.timers = a.timers := fun k hk _ _ hab =>
        (Kind.frame hab).timers (by revert k; simp [Kind.writesTimers])
      exact ⟨hq.view_eq hzones, hq.view_eq htimers⟩
    exact wp_mono (hstays.path _) (fun _ q hq => hpath q (path_of_methodPath hq))
      (fun _ q hq => hpath q (path_of_methodPath hq))
  have hstored : ∀ q : SaveableItem × Server, q.2.zones = s.zones ∧ q.2.timers = s.timers →
      WarsMinded { q.2 with zones := q.2.zones.adjust z fun zone => { zone with item := q.1 } } := by
    rintro q ⟨hzones, htimers⟩
    change Minded _ (q.2.zones.adjust z _) (List.filter _ q.2.timers)
    rw [hzones, htimers]
    exact Minded.adjust h fun _ _ _ _ hminds => hminds
  refine wp_mono (wp_and destroy_leaves hsame) (fun _ q hq => ?_) (fun _ q hq => hstored q hq.2)
  obtain ⟨⟨hreturns, -⟩, hzones, htimers⟩ := hq
  have hrest : Keeps WarsMinded (do
      forEach GangZoneItem.destruct [{ zone with item := q.1 }]
      sendClientMessage p .zoneRemoved : Game Unit) :=
    keeps_wars_of_stays (K := [.output, .sampZones, .streamer, .areas, .pickups]) inferInstance
      (by simp [Kind.sparesWars])
  have hlookup : (q.2.zones.adjust z fun zone => { zone with item := q.1 }).lookup z =
      some { zone with item := q.1 } := Map.lookup_adjust_self (hzones ▸ hzone) _
  rw [GangZoneManager.remove, wp_bind, wp_bind, wp_gets, wp_bind, wp_modify, hlookup, Option.toList,
    ← wp_bind]
  refine hrest.wp_of_keeps ?_
  refine Minded.erase (hstored q ⟨hzones, htimers⟩) fun gone hgone tm htm hminds => ?_
  obtain rfl := Option.some.inj (hlookup.symm.trans hgone)
  have htm' : tm ∈ s.timersFor .zone := by
    rw [mem_timersFor, ← htimers]
    exact mem_timersFor.mp htm
  exact absurd (hfree zone hzone hreturns tm htm') (ne_false_of_eq_true hminds)

end Zones

/-! ## Events -/

/-- An event takes a zone out of `GangZoneMgr`. -/
def Event.removesZone (s : Server) (env : Env) (z : ℤ) (zone : GangZoneItem) : Event → Bool
  | gameModeInit => true
  | dialogResponse p dialogid response listitem inputtext =>
    decide (response = 1 ∧ p ∈ s.profiles) && match dialog dialogid with
      | some .serverMain => listitem = 1
      | some .gangZoneRemove => (scanInt inputtext).getD (env.uninitialised 5) = z &&
        ItemOp.destroy.returns .gangzone zone.item (s.begin env).database
      | _ => false
  | _ => false

/-- No timer of a zone that an event takes out of `GangZoneMgr` is pending. -/
def Event.sparesTimers (s : Server) (env : Env) (e : Event) : Bool :=
  s.zones.entries.all fun zone => !e.removesZone s env zone.1 zone.2 ||
    s.timers.all fun tm => !zone.2.minds tm

section Steps
open Server
variable {s t : Server} {p z : ℤ} {zone : GangZoneItem} {e : Event} {env : Env}

theorem Event.not_minds_of_sparesTimers (h : e.sparesTimers s env = true)
    (hzone : s.zones.lookup z = some zone) (hremoves : e.removesZone s env z zone = true) :
    ∀ tm ∈ s.timersFor .zone, zone.minds tm = false := by
  intro tm htm
  have hentry := List.all_eq_true.mp h ⟨z, zone⟩ (AList.mem_lookup_iff.mp hzone)
  rw [hremoves, Bool.not_true, Bool.false_or] at hentry
  simpa using List.all_eq_true.mp hentry tm (mem_timersFor.mp htm).1

/-- Where every zone goes, no timer of a war is pending. -/
theorem timersFor_zone_eq_nil (hs : s.WarsMinded) (h : e.sparesTimers s env = true)
    (hall : ∀ z zone, s.zones.lookup z = some zone → e.removesZone s env z zone = true) :
    s.timersFor .zone = [] := by
  refine List.eq_nil_iff_forall_not_mem.mpr fun tm htm => ?_
  obtain ⟨z, zone, hzone, hminds⟩ := hs tm htm
  rw [Event.not_minds_of_sparesTimers h hzone (hall z zone hzone) tm htm] at hminds
  cases hminds

theorem timersFor_of_stays {α : Type} {K : List Kind} {x : Game α} {c : TimerTarget}
    (hx : Stays K x) (hK : Kind.createTimer c ∉ K) :
    Keeps (fun u => u.timersFor c = []) x := by
  refine hx.keeps fun k hk a b hab ha => List.eq_nil_iff_forall_not_mem.mpr fun tm htm => ?_
  obtain ⟨tm', htm', -⟩ := Kind.timersFor_of_change hab (fun heq => hK (heq ▸ hk)) tm htm
  rw [ha] at htm'
  cases htm'

theorem Server.WarsMinded.of_nil (h : s.timersFor .zone = []) : s.WarsMinded := by
  rw [Server.WarsMinded, h]
  exact .nil

theorem warsMinded_of_stays {α : Type} {K : List Kind} {x : Game α} (hx : Stays K x)
    (hK : ∀ k ∈ K, k.sparesWars = true) (hs : s.WarsMinded) :
    wp x (fun _ => WarsMinded) (fun _ => WarsMinded) s :=
  (keeps_wars_of_stays hx hK).wp_of_keeps hs

theorem warsMinded_dialogResponse {dialogid response listitem : ℤ} {inputtext : Text}
    (hspares : (Event.dialogResponse p dialogid response listitem inputtext).sparesTimers s env = true)
    (hs : s.WarsMinded) :
    wp (Event.run (.dialogResponse p dialogid response listitem inputtext)) (fun _ => WarsMinded)
      (fun _ => WarsMinded) (s.begin env) := by
  have hbegin : (s.begin env).WarsMinded := hs
  refine wp_dialogResponse (fun a b hab ha => Kind.warsMinded hab rfl ha) hbegin
    fun pr d hpr hd hresponse => ?_
  have hmem : p ∈ s.profiles := Map.mem_iff_lookup.mpr ⟨pr, hpr⟩
  have hstay := Dialog.stays_callback p listitem inputtext d
  cases d
  case gangZoneCreateProcess => exact keeps_wars_create.wp_of_keeps hbegin
  case gangZoneRemove =>
    have hyes : response = 1 := by simpa [Dialog.mustResponse] using hresponse
    refine wp_gangZoneRemove_wars hbegin fun zone hzone hreturns =>
      Event.not_minds_of_sparesTimers (s := s) hspares hzone ?_
    rw [Event.removesZone, hd]
    simp only [hyes, hmem, and_self, decide_true, Bool.true_and, Bool.and_eq_true]
    exact ⟨decide_eq_true rfl, hreturns⟩
  case serverMain =>
    have hyes : response = 1 := by simpa [Dialog.mustResponse] using hresponse
    by_cases hitem : listitem = 1
    · have hnil : s.timersFor .zone = [] :=
        timersFor_zone_eq_nil hs hspares fun z zone _ => by
          simp [Event.removesZone, hd, hyes, hmem, hitem]
      have hkeep := timersFor_of_stays (c := .zone) hstay (by simp [Dialog.footprint])
      exact wp_mono (hkeep.wp_of_keeps hnil) (fun _ _ ht => .of_nil ht) (fun _ _ ht => .of_nil ht)
    · have hothers : Stays [.output, .database, .streamer, .counters, .config, .teamIds,
          .insertTeam, .clearTeams, .pickups, .properties, .readConfig, .reload .team,
          .reload .property] (Dialog.serverMain listitem) := by
        unfold Dialog.serverMain
        split
        case h_2 => exact absurd rfl hitem
        all_goals infer_instance
      exact warsMinded_of_stays hothers (by simp [Kind.sparesWars]) hbegin
  all_goals
    exact warsMinded_of_stays hstay (by simp [Dialog.footprint, Kind.sparesWars]) hbegin

theorem warsMinded_step (h : s.step (e, env) = some t) (hspares : e.sparesTimers s env = true)
    (hs : s.WarsMinded) : t.WarsMinded := by
  have hbegin : (s.begin env).WarsMinded := hs
  cases e
  case gameModeInit =>
    have hnil : s.timersFor .zone = [] := timersFor_zone_eq_nil hs hspares fun _ _ _ => rfl
    have hkeep := timersFor_of_stays (c := .zone) (Event.stays_run .gameModeInit)
      (by simp [Event.footprint])
    have ht : t.timersFor .zone = [] :=
      Server.of_step (P := fun u => u.timersFor .zone = []) h (hkeep.wp_of_keeps hnil)
    exact .of_nil ht
  case playerCommandText p cmdtext =>
    refine Server.of_step h (wp_commandText (fun a b hab ha => Kind.warsMinded hab rfl ha) hbegin
      fun pr cmd line d _ _ _ _ => ?_)
    have hstay := Command.stays_run p line d
    cases d <;> exact warsMinded_of_stays hstay (by simp [Command.footprint, Kind.sparesWars]) hbegin
  case dialogResponse p dialogid response listitem inputtext =>
    exact Server.of_step h (warsMinded_dialogResponse hspares hs)
  case pickUpPickup p => exact Server.of_step h (keeps_wars_pickUp.wp_of_keeps hbegin)
  all_goals
    exact Server.step_invariant h (fun k hk a b hab =>
      Kind.warsMinded hab (by revert k; simp [Event.footprint, Kind.sparesWars])) hbegin

end Steps

/-! ## Runs -/

namespace Server

/-- Every pending timer is minded by the object it was given. -/
structure TimersMinded (s : Server) : Prop where
  saves : s.SavesMinded
  countDowns : s.AllCountDownsMinded
  wars : s.WarsMinded

variable {s : Server}

/-- An object that is registered is found at its address. -/
theorem isSome_keyAt {α : Type} {m : Map ℤ α} {address : α → ℕ} {k : ℤ} {v : α} {a : ℕ}
    (hv : m.lookup k = some v) (ha : a = address v) : (keyAt m address a).isSome = true := by
  rw [keyAt, Option.isSome_map, List.find?_isSome]
  exact ⟨⟨k, v⟩, AList.mem_lookup_iff.mp hv, decide_eq_true ha.symm⟩

theorem TimersMinded.noneDangles (h : s.TimersMinded) : s.noneDangles = true := by
  refine List.all_eq_true.mpr fun tm htm => ?_
  have hmem : tm ∈ s.timersFor tm.callback.target := mem_timersFor.mpr ⟨htm, rfl⟩
  cases hcb : tm.callback
  case autoSaveProfile a =>
    rw [hcb] at hmem
    obtain ⟨p, pr, hpr, hminds⟩ := h.saves.minded tm hmem
    exact isSome_keyAt hpr (TimerCallback.autoSaveProfile.inj (hcb.symm.trans hminds.callback))
  case raceCountDown a =>
    rw [hcb] at hmem
    obtain ⟨k, race, hrace, -, hminds⟩ := h.countDowns.minded tm hmem
    exact isSome_keyAt hrace (TimerCallback.raceCountDown.inj (hcb.symm.trans hminds.callback))
  case endTurfWar a =>
    rw [hcb] at hmem
    obtain ⟨z, zone, hzone, hminds⟩ := h.wars tm hmem
    exact isSome_keyAt hzone (by simpa [GangZoneItem.minds, hcb] using hminds)
  case turfWarWaitTimeout a =>
    rw [hcb] at hmem
    obtain ⟨z, zone, hzone, hminds⟩ := h.wars tm hmem
    exact isSome_keyAt hzone (by simpa [GangZoneItem.minds, hcb] using hminds)
  all_goals rfl

end Server

/-- In every run in which no zone is taken out of `GangZoneMgr` while a timer of the zone is
pending, no timer is ever going to fire with an object that was destroyed. -/
theorem none_dangles (platform : Platform) (config : Config) (docs : Collection → List Document)
    (is : List (Event × Env))
    (h : Meets Server.step (fun s i => i.1.sparesTimers s i.2 = true)
      (Server.initial platform config docs) is) :
    AllSteps Server.step (fun _ _ t => t.noneDangles = true)
      (Server.initial platform config docs) is := by
  refine AllSteps.of_invariant (I := Server.TimersMinded) (fun s i t hI hstep hC => ?_) ?_ h
  · obtain ⟨e, env⟩ := i
    have ht : t.TimersMinded := ⟨savesMinded_step hstep hI.saves,
      countDownsMinded_step hstep hI.countDowns, warsMinded_step hstep hC hI.wars⟩
    exact ⟨ht.noneDangles, ht⟩
  · have hset : (Server.initial platform config docs).HandlesSet :=
      ⟨Int.one_pos, fun tm htm => absurd htm List.not_mem_nil⟩
    exact ⟨⟨hset, .nil⟩, ⟨hset, .nil⟩, .nil⟩

namespace Demo

/-- The response that reloads the gang zones. -/
def reloadZones (p : ℤ) : Event := .dialogResponse p 13 1 1 []

end Demo

/-- A war is over, with none of its timers pending, before the zones are loaded again. -/
theorem none_dangles_reloaded :
    AllSteps Server.step (fun _ _ t => t.noneDangles = true) Demo.initial
      (Demo.attack ++ Demo.quietly [.timer 4, Demo.reloadZones 0, .playerDisconnect 1 1]) :=
  none_dangles _ _ _ _ (meets_of_check (b := fun s (i : Event × Env) => i.1.sparesTimers s i.2)
    (fun _ _ h => h) (by decide +kernel))

/-- The zones are loaded again in a war, whose timers still point at the zone that was there. -/
theorem reload_leaves_timers : ¬∀ is,
    AllSteps Server.step (fun _ _ t => t.noneDangles = true) Demo.initial is := by
  intro hall
  exact not_allSteps Demo.attack (Demo.reloadZones 0, Demo.env) (fun _ t => t.noneDangles)
    (fun _ _ h => h) (by decide +kernel) (hall _)

end FreshCity
