import FreshCity.Imperative.Run
import FreshCity.TurfWar

/-!
# Wars that end

The timers of a war fire once. `EndWar` looks for the winner's team and saves a
new owner before it takes the war off the zone, so the war ends exactly if the
team is there and the owner can be saved.
-/
namespace FreshCity
open Imperative Prog Run

/-! ## What `EndWar` needs -/

/-- The write of a zone's new owner. -/
def GangZoneItem.ownerModifier (owner : OID) : Modifier := [([.owner], .oid owner.data)]

/-- Whether `EndWar` reaches its end: the winner's team is registered, and an attacker who wins
can be saved as the owner. -/
def Server.canEndWar (s : Server) (zone : GangZoneItem) (causedbytimeout : Bool) : Bool :=
  (s.teams.members.lookup (zone.winner causedbytimeout)).isSome &&
    (!zone.attackerWins causedbytimeout || zone.writable s (GangZoneItem.ownerModifier zone.warinfo.attacker))

namespace GangZoneItem
variable {s : Server} {z : ℤ} {zone : GangZoneItem} {causedbytimeout : Bool}

theorem wp_setOwner (owner : OID) (hzone : s.zones.lookup z = some zone) :
    wp (setOwner z owner)
      (fun _ t => zone.writable s (ownerModifier owner) = true ∧ (t.zones.lookup z).isSome)
      (fun _ t => zone.writable s (ownerModifier owner) = false ∧ t.zones = s.zones) s := by
  rw [setOwner, wp_bind]
  refine wp_mono (wp_updateItem hzone) (fun _ t ht => ⟨ht.1, ?_⟩) (fun _ t ht => ⟨ht.1, ?_⟩)
  · obtain ⟨-, rfl⟩ := ht
    have hlookup : (s.saved .gangzone zone.item.uniqueid (ownerModifier owner)).zones.lookup z =
        some zone := hzone
    exact Option.isSome_iff_exists.mpr ⟨_, Map.lookup_adjust_self hlookup _⟩
  · obtain ⟨-, db, trace, -, rfl⟩ := ht
    rfl

/-- The announcement throws exactly if the war cannot end. -/
theorem wp_announceWinner_iff (hzone : s.zones.lookup z = some zone) :
    wp (announceWinner z zone (zone.attackerWins causedbytimeout))
      (fun _ t => s.canEndWar zone causedbytimeout = true ∧ (t.zones.lookup z).isSome)
      (fun _ t => s.canEndWar zone causedbytimeout = false ∧ t.zones = s.zones) s := by
  rw [announceWinner, wp_ite]
  split
  case isTrue hwins =>
    have hcan : s.canEndWar zone causedbytimeout =
        ((s.teams.members.lookup zone.warinfo.attacker).isSome &&
          zone.writable s (ownerModifier zone.warinfo.attacker)) := by
      rw [Server.canEndWar, show zone.winner causedbytimeout = zone.warinfo.attacker from
        if_pos hwins, hwins]
      rfl
    simp only [teamMgr, pushMessage, emit, wp_bind, wp_gets, wp_orRaise, wp_modify, hcan]
    refine ⟨fun team hteam => ?_, fun hnone => by simp [hnone]⟩
    simp only [hteam, Option.isSome_some, Bool.true_and]
    exact wp_setOwner (s := { s with trace := _ }) zone.warinfo.attacker hzone
  case isFalse hwins =>
    have hcan : s.canEndWar zone causedbytimeout =
        (s.teams.members.lookup zone.owner).isSome := by
      rw [Server.canEndWar, show zone.winner causedbytimeout = zone.owner from if_neg hwins,
        Bool.eq_false_iff.mpr hwins, Bool.not_false, Bool.true_or, Bool.and_true]
    simp only [teamMgr, pushMessage, emit, wp_bind, wp_gets, wp_orRaise, wp_modify, hcan]
    exact ⟨fun team hteam => by simp [hteam, hzone], fun hnone => by simp [hnone]⟩

/-- The zone is registered, and not at war. -/
def peaceful (z : ℤ) (s : Server) : Bool := (s.zones.lookup z).any fun zone => !zone.warinfo.inWar

/-- `EndWar` ends a war if it can, and throws otherwise. -/
theorem wp_endWar_iff (hzone : s.zones.lookup z = some zone) (hwar : zone.warinfo.inWar = true) :
    wp (endWar z causedbytimeout)
      (fun _ t => s.canEndWar zone causedbytimeout = true ∧ peaceful z t = true)
      (fun _ t => s.canEndWar zone causedbytimeout = false ∧ peaceful z t = false) s := by
  have hannounced : ∀ timers trace, wp (announceWinner z zone (zone.attackerWins causedbytimeout))
      (fun _ t => s.canEndWar zone causedbytimeout = true ∧ (t.zones.lookup z).isSome)
      (fun _ t => s.canEndWar zone causedbytimeout = false ∧ t.zones = s.zones)
      { s with timers := timers, trace := trace } := fun timers trace =>
    wp_announceWinner_iff (s := { s with timers := timers, trace := trace }) hzone
  have hrest : ∀ timers trace, wp (do
        announceWinner z zone (zone.attackerWins causedbytimeout)
        modifyZone z fun zone => { zone with warinfo := {} }
        redraw z
        pure (zone.attackerWins causedbytimeout) : Game Bool)
      (fun _ t => s.canEndWar zone causedbytimeout = true ∧ peaceful z t = true)
      (fun _ t => s.canEndWar zone causedbytimeout = false ∧ peaceful z t = false)
      { s with timers := timers, trace := trace } := by
    intro timers trace
    rw [wp_bind]
    refine wp_mono (hannounced timers trace) (fun _ t ht => ?_) (fun _ t ht => ?_)
    · obtain ⟨hcan, hsome⟩ := ht
      obtain ⟨after, hafter⟩ := Option.isSome_iff_exists.mp hsome
      rw [wp_bind, modifyZone, wp_modify, wp_bind]
      refine wp_mono wp_redraw (fun _ u hu => ⟨hcan, ?_⟩) (fun _ _ h => h.elim)
      obtain ⟨x, _, hx, rfl⟩ := hu
      rw [Map.lookup_adjust, if_pos rfl, hafter, Option.map_some] at hx
      simp [peaceful, hafter]
    · obtain ⟨hcannot, hzones⟩ := ht
      exact ⟨hcannot, by simp [peaceful, hzones, hzone, hwar]⟩
  rw [endWar, ref, wp_bind, wp_bind, wp_gets, hzone, wp_orUndefined]
  rintro _ ⟨⟩
  rw [wp_ite, if_pos hwar, wp_bind, wp_when]
  split
  case isTrue => exact hrest _ _
  case isFalse => exact hrest s.timers s.trace

end GangZoneItem

/-! ## Timers -/

/-- The zone a timer of a war points at, and whether it is the timeout timer. -/
def TimerCallback.war? : TimerCallback → Option (ℕ × Bool)
  | endTurfWar a => some (a, false)
  | turfWarWaitTimeout a => some (a, true)
  | _ => none

theorem TimerCallback.run_of_war {c : TimerCallback} {addr : ℕ} {causedbytimeout : Bool}
    (h : c.war? = some (addr, causedbytimeout)) : c.run = (do
      let z ← gets fun s => keyAt s.zones (·.addr) addr
      let z ← orUndefined z
      let _ ← GangZoneItem.endWar z causedbytimeout
      pure ()) := by
  cases c
  case endTurfWar a => cases h; rfl
  case turfWarWaitTimeout a => cases h; rfl
  all_goals cases h

namespace Server

/-- The war whose end timer or timeout timer fires: its zone, and whether it is the latter. -/
def endingWar (s : Server) : Event → Option (ℤ × GangZoneItem × Bool)
  | .timer handle => do
    let tm ← s.timers.find? fun u => u.handle = handle
    let (addr, causedbytimeout) ← tm.callback.war?
    let z ← keyAt s.zones (·.addr) addr
    let zone ← s.zones.lookup z
    if zone.warinfo.inWar then some (z, zone, causedbytimeout) else none
  | _ => none

/-- When a timer of a war fires, the war is over. -/
def warsEnd (s : Server) (i : Event × Env) (t : Server) : Bool :=
  (s.endingWar i.1).all fun war => GangZoneItem.peaceful war.1 t

/-- When a timer of a war fires, the war can end. -/
def warsCanEnd (s : Server) (i : Event × Env) : Bool :=
  (s.endingWar i.1).all fun war => (s.begin i.2).canEndWar war.2.1 war.2.2

variable {s t : Server} {e : Event} {env : Env} {z : ℤ} {zone : GangZoneItem}
  {causedbytimeout : Bool}

theorem endingWar_eq_some (h : s.endingWar e = some (z, zone, causedbytimeout)) :
    ∃ handle tm addr, e = .timer handle ∧ (s.timers.find? fun u => u.handle = handle) = some tm ∧
      tm.callback.war? = some (addr, causedbytimeout) ∧ keyAt s.zones (·.addr) addr = some z ∧
      s.zones.lookup z = some zone ∧ zone.warinfo.inWar = true := by
  cases e
  case timer handle =>
    simp only [endingWar, Option.bind_eq_bind, Option.bind_eq_some_iff] at h
    obtain ⟨tm, htm, ⟨addr, caused⟩, hcallback, z', hkey, zone', hzone, hwar⟩ := h
    split at hwar
    case isTrue hin =>
      cases hwar
      exact ⟨handle, tm, addr, rfl, htm, hcallback, hkey, hzone, hin⟩
    case isFalse => cases hwar
  all_goals cases h

/-- The timer of a war that fires ends it exactly if it can. -/
theorem peaceful_of_endingWar (h : s.endingWar e = some (z, zone, causedbytimeout))
    (hstep : s.step (e, env) = some t) :
    GangZoneItem.peaceful z t = (s.begin env).canEndWar zone causedbytimeout := by
  obtain ⟨handle, tm, addr, rfl, htimer, hcallback, hkey, hzone, hwar⟩ := endingWar_eq_some h
  refine of_step
    (P := fun t => GangZoneItem.peaceful z t = (s.begin env).canEndWar zone causedbytimeout) hstep ?_
  rw [Event.run, wp_fireTimer]
  refine ⟨fun hnone => ?_, fun tm' htm' => ?_⟩
  · have hsome : ((s.begin env).timers.find? fun u => u.handle = handle) = some tm := htimer
    rw [hsome] at hnone
    cases hnone
  obtain rfl := Option.some.inj (htimer.symm.trans htm')
  obtain ⟨timers, heq⟩ := (s.begin env).rearmed_eq tm
  rw [heq, TimerCallback.run_of_war hcallback, wp_bind, wp_gets, wp_bind, wp_orUndefined]
  rintro z' hz'
  obtain rfl := Option.some.inj (hkey.symm.trans hz')
  rw [wp_bind]
  refine wp_mono (GangZoneItem.wp_endWar_iff (s := { s.begin env with timers := timers }) hzone hwar)
    (fun _ t ht => ?_) (fun _ t ht => ?_)
  · exact ht.2.trans ht.1.symm
  · exact ht.2.trans ht.1.symm

theorem warsEnd_eq (hstep : s.step (e, env) = some t) :
    s.warsEnd (e, env) t = s.warsCanEnd (e, env) := by
  rw [warsEnd, warsCanEnd]
  cases hwar : s.endingWar e with
  | none => rfl
  | some war =>
    obtain ⟨z, zone, causedbytimeout⟩ := war
    exact peaceful_of_endingWar hwar hstep

end Server

/-- In a run of the server, every timer of a war that fires ends it exactly if whenever one
fires the winner's team is registered and a new owner can be saved. -/
theorem wars_end_iff (s : Server) (is : List (Event × Env)) :
    AllSteps Server.step (fun s i t => s.warsEnd i t = true) s is ↔
      Meets Server.step (fun s i => s.warsCanEnd i = true) s is := by
  refine allSteps_iff_meets (I := fun _ => True) (fun s i t _ ht => ?_) (fun _ _ _ _ _ _ => trivial)
    trivial
  rw [Server.warsEnd_eq ht]

namespace Demo

/-- A member of the second team starts a war on the first one's zone. -/
def attack : List (Event × Env) :=
  quietly [.gameModeInit, .playerConnect 0, .playerConnect 1, chooseTeam 0,
    .dialogResponse 1 24 1 0 rivals.str] ++ [(.pickUpPickup 1, { env with pickedUp := 1 })]

end Demo

/-- The attacker's team is removed, and the timeout timer leaves the zone at war. -/
theorem war_goes_on : ¬∀ is,
    AllSteps Server.step (fun s i t => s.warsEnd i t = true) Demo.initial is := by
  intro hall
  exact not_allSteps (Demo.attack ++ [(.teamRemove Demo.rivals, Demo.env)]) (.timer 4, Demo.env)
    (fun u t => u.warsEnd (.timer 4, Demo.env) t) (fun _ _ h => h) (by decide +kernel) (hall _)

end FreshCity
