import FreshCity.Imperative.Run
import FreshCity.Kills
import FreshCity.TurfWar

/-!
# The colours gang zones are shown with

A zone keeps the colour of the team that owned it when it was loaded, and is shown
with that colour whenever it is redrawn. A war that the attacker wins changes the
owner, but not the colour.
-/
namespace FreshCity
open Imperative Prog Run

namespace Server

/-- Every zone that is not at war was last shown with the colour of its owner. -/
def ShowsOwners (s : Server) : Prop :=
  ∀ z zone, s.zones.lookup z = some zone → zone.warinfo.inWar = false →
    ∃ team, s.teams.members.lookup zone.owner = some team ∧
      s.samp.zoneColor zone.zone = some (s.platform.int (team.color - 127))

/-- A colour is that of a team's zones. -/
def TeamColour (s : Server) (owner : OID) (color : ℤ) : Prop :=
  ∃ team, s.teams.members.lookup owner = some team ∧ color = s.platform.int (team.color - 127)

/-- Zones are kept under the ids SA-MP gave them and keep the colours of their owners, and the
ones that are not at war are shown with it. -/
structure Coloured (s : Server) : Prop where
  fresh : ∀ ids, s.platform.gangZoneId ids ∉ ids
  keyed : ∀ z zone, s.zones.lookup z = some zone → zone.zone = z
  live : ∀ z zone, s.zones.lookup z = some zone → z ∈ s.samp.zones
  cached : ∀ z zone, s.zones.lookup z = some zone → s.TeamColour zone.owner zone.color
  shown : ∀ z zone, s.zones.lookup z = some zone → zone.warinfo.inWar = false →
    s.samp.zoneColor z = some zone.color

variable {s t : Server} {z : ℤ} {zone : GangZoneItem}

theorem Coloured.showsOwners (h : s.Coloured) : s.ShowsOwners := by
  intro z zone hz hwar
  obtain ⟨team, hteam, hcolor⟩ := h.cached z zone hz
  exact ⟨team, hteam, by rw [h.keyed z zone hz, h.shown z zone hz hwar, hcolor]⟩

/-- Only five parts of the server matter. -/
theorem Coloured.of_eq (h : s.Coloured) (hp : t.platform = s.platform) (ht : t.teams = s.teams)
    (hz : t.zones = s.zones) (hlive : t.samp.zones = s.samp.zones)
    (hcolor : t.samp.zoneColor = s.samp.zoneColor) : t.Coloured where
  fresh := hp ▸ h.fresh
  keyed := hz ▸ h.keyed
  live := hz ▸ hlive ▸ h.live
  cached := by
    simp only [TeamColour, hp, ht, hz]
    exact h.cached
  shown := by
    rw [hz, hcolor]
    exact h.shown

/-- One zone is replaced by another, which is shown with its colour unless it is at war. -/
theorem Coloured.replace {zone' : GangZoneItem} (h : s.Coloured) (hrest : s.SameRest t)
    (hothers : ∀ y, y ≠ z → t.zones.lookup y = s.zones.lookup y)
    (hzone : s.zones.lookup z = some zone) (hzone' : t.zones.lookup z = some zone')
    (hid : zone'.zone = zone.zone) (hcached : s.TeamColour zone'.owner zone'.color)
    (hpaint : ∃ color, t.samp.zoneColor = (s.paint zone.zone color).zoneColor)
    (hshown : zone'.warinfo.inWar = false → t.samp.zoneColor z = some zone'.color) :
    t.Coloured := by
  have hkey := h.keyed z zone hzone
  refine ⟨hrest.platform ▸ h.fresh, fun y zone'' hy => ?_, fun y zone'' hy => ?_,
    fun y zone'' hy => ?_, fun y zone'' hy hwar => ?_⟩
  all_goals by_cases hyz : y = z
  · subst hyz
    obtain rfl := Option.some.inj (hzone'.symm.trans hy)
    exact hid.trans hkey
  · exact h.keyed y zone'' (hothers y hyz ▸ hy)
  · rw [hrest.sampZones, hyz]
    exact h.live z zone hzone
  · rw [hrest.sampZones]
    exact h.live y zone'' (hothers y hyz ▸ hy)
  · subst hyz
    obtain rfl := Option.some.inj (hzone'.symm.trans hy)
    simpa only [TeamColour, hrest.platform, hrest.teams] using hcached
  · simpa only [TeamColour, hrest.platform, hrest.teams] using
      h.cached y zone'' (hothers y hyz ▸ hy)
  · subst hyz
    obtain rfl := Option.some.inj (hzone'.symm.trans hy)
    exact hshown hwar
  · obtain ⟨color, hpaint⟩ := hpaint
    have hne : y ≠ zone.zone := hkey ▸ hyz
    rw [hpaint, paint_of_ne s color hne]
    exact h.shown y zone'' (hothers y hyz ▸ hy) hwar

end Server

/-! ## Kinds of change -/

namespace Kind

/-- The kinds that leave the zones, their teams and what SA-MP shows alone. -/
def keepsColours : Kind → Bool
  | zones => false
  | zoneData => false
  | sampZones => false
  | k => !k.writesTeams

theorem coloured {k : Kind} {s t : Server} (h : k.change s t) (hk : k.keepsColours = true)
    (hs : s.Coloured) : t.Coloured := by
  have hframe := frame h
  have hsamp := hframe.sampZones (by rintro rfl; cases hk)
  refine hs.of_eq hframe.platform (hframe.teams ?_) (hframe.zones ?_ ?_) hsamp.1 hsamp.2
  · revert hk
    cases k <;> simp [keepsColours, writesTeams]
  all_goals
    rintro rfl
    cases hk

end Kind

/-- The kinds of change the operations make beside those of the zones. -/
abbrev aroundZones : List Kind :=
  [.output, .database, .streamer, .areas, .pickups, .destroyTimer, .createTimer .zone]

instance (priority := low) keeps_coloured {α : Type} {x : Game α} [hx : Stays aroundZones x] :
    Keeps Server.Coloured x := by
  have hK : ∀ k ∈ aroundZones, k.keepsColours = true := by
    simp [Kind.keepsColours, Kind.writesTeams]
  exact hx.keeps fun k hk _ _ hab => Kind.coloured hab (hK k hk)

/-! ## Loading -/

section Loading
open Server
variable {s t : Server} {z : ℤ} {zone : GangZoneItem}

/-- A zone that was just built: SAMP gave it a new id, and it is shown with its owner's colour. -/
structure Server.Built (s : Server) (zone : GangZoneItem) : Prop where
  coloured : s.Coloured
  unused : zone.zone ∉ s.zones
  live : zone.zone ∈ s.samp.zones
  cached : s.TeamColour zone.owner zone.color
  shown : s.samp.zoneColor zone.zone = some zone.color
  peace : zone.warinfo = {}

/-- The server while a zone is built: SA-MP has a rectangle more. -/
structure Server.Building (s : Server) (id : ℤ) (t : Server) : Prop where
  platform : t.platform = s.platform
  teams : t.teams = s.teams
  zones : t.zones = s.zones
  live : t.samp.zones = id :: s.samp.zones
  others : ∀ y, y ≠ id → t.samp.zoneColor y = s.samp.zoneColor y

/-- The new rectangle is none of the registered zones. -/
theorem Server.Coloured.building {id : ℤ} (h : s.Coloured) (hid : id ∉ s.samp.zones)
    (ht : s.Building id t) : t.Coloured := by
  refine ⟨ht.platform ▸ h.fresh, ht.zones ▸ h.keyed, fun z zone hz => ?_, ?_,
    fun z zone hz hwar => ?_⟩
  · rw [ht.live]
    exact List.mem_cons_of_mem _ (h.live z zone (ht.zones ▸ hz))
  · simp only [TeamColour, ht.platform, ht.teams, ht.zones]
    exact h.cached
  · have hlive := h.live z zone (ht.zones ▸ hz)
    have hne : z ≠ id := fun heq => hid (heq ▸ hlive)
    rw [ht.others z hne]
    exact h.shown z zone (ht.zones ▸ hz) hwar

/-- The area and the trigger do not touch the rectangle. -/
theorem wp_placeArea_building {id : ℤ} (ht : s.Building id t) (hid : zone.zone = id)
    (hwar : zone.warinfo = {}) :
    wp GangZoneItem.placeArea (fun _ q => s.Building id q.2 ∧ q.1.zone = id ∧ q.1.warinfo = {})
      (fun _ _ => True) (zone, t) := by
  have hsame : ∀ streamer areas pickups, s.Building id
      { t with streamer := streamer, areas := areas, pickups := pickups } := fun _ _ _ =>
    ⟨ht.platform, ht.teams, ht.zones, ht.live, ht.others⟩
  simp only [GangZoneItem.placeArea, DynamicAreaManager.create, DynamicAreaManager.add,
    DynamicAreaManager.destruct, createDynamicRectangle, destroyDynamicArea, PickupManager.create,
    PickupManager.add, PickupManager.destruct, createDynamicPickup, destroyDynamicPickup, wp_bind,
    wp_self, wp_shared, wp_assign, wp_gets, wp_modify, wp_pure, wp_ite, id_eq]
  split <;> split <;> exact ⟨hsame _ _ _, hid, hwar⟩

/-- The owner's data give the zone its colour and show it. -/
theorem wp_loadOwnerData_building {id : ℤ} (h : s.Coloured) (hfresh : id ∉ s.samp.zones)
    (ht : s.Building id t) (hid : zone.zone = id) (hwar : zone.warinfo = {}) :
    wp GangZoneItem.loadOwnerData (fun _ q => q.2.Built q.1) (fun _ _ => True) (zone, t) := by
  simp only [GangZoneItem.loadOwnerData, rethrowAs, check, teamMgr, gangZoneShowForAll, emit,
    wp_handle, wp_bind, wp_self, wp_shared, wp_assign, wp_gets, wp_modify, wp_orRaise, wp_ite,
    wp_raise, ite_self, implies_true, and_true]
  intro name _ owner _ team hteam spawn _
  have ht' : s.Building id { t with
      trace := .gangZoneShowForAll zone.zone (t.platform.int (team.color - 127)) :: t.trace
      samp := t.paint zone.zone (t.platform.int (team.color - 127)) } :=
    ⟨ht.platform, ht.teams, ht.zones, ht.live, fun y hy =>
      (t.paint_of_ne _ (hid ▸ hy)).trans (ht.others y hy)⟩
  have hnot : id ∉ s.zones := fun hmem => by
    obtain ⟨old, hold⟩ := Map.mem_iff_lookup.mp hmem
    exact hfresh (h.live id old hold)
  exact {
    coloured := h.building hfresh ht'
    unused := by
      change zone.zone ∉ t.zones
      rw [hid, ht.zones]
      exact hnot
    live := by
      change zone.zone ∈ t.samp.zones
      rw [hid, ht.live]
      exact List.mem_cons_self ..
    cached := ⟨team, hteam, rfl⟩
    shown := t.paint_self ..
    peace := hwar }

/-- A zone that is built from a document. -/
theorem wp_build_coloured {item : SaveableItem} (h : s.Coloured) :
    wp (GangZoneItem.build item) (fun zone t => t.Built zone) (fun _ _ => True) s := by
  have hread := (inferInstance : Stays [] (GangZoneItem.readArea item.rawdata)).unchanged s
  rw [GangZoneItem.build, wp_bind]
  refine wp_mono hread (fun _ u hu => ?_) (fun _ _ _ => trivial)
  subst hu
  simp only [GangZoneItem.construct, allocate, gangZoneCreate, wp_bind, wp_gets, wp_modify, wp_pure,
    wp_handle]
  have hfresh := h.fresh u.samp.zones
  have hbuilding : u.Building (u.platform.gangZoneId u.samp.zones) { u with
      nextaddr := u.nextaddr + 1
      samp := { u.samp with
        zones := u.platform.gangZoneId u.samp.zones :: u.samp.zones
        zoneColor := Function.update u.samp.zoneColor (u.platform.gangZoneId u.samp.zones)
          none } } :=
    ⟨rfl, rfl, rfl, rfl, fun y hy => Function.update_of_ne hy ..⟩
  refine wp_mono (E := fun _ _ => True) ?_ (fun _ _ hq => hq) (fun e t _ => ?_)
  · rw [wp_map, wp_withLocal, wp_bind]
    refine wp_mono (wp_placeArea_building hbuilding rfl rfl) (fun _ q hq => ?_) (fun _ _ _ => trivial)
    exact wp_loadOwnerData_building h hfresh hq.1 hq.2.1 hq.2.2
  · simp [gangZoneDestroy]

theorem Server.Built.insert (h : s.Built zone) :
    ({ s with zones := s.zones.insert zone.zone zone } : Server).Coloured := by
  have hc := h.coloured
  refine ⟨hc.fresh, fun y zone' hy => ?_, fun y zone' hy => ?_, fun y zone' hy => ?_,
    fun y zone' hy hwar => ?_⟩
  all_goals
    simp only [Map.lookup_insert_ite] at hy
    split at hy
  · obtain rfl := Option.some.inj hy
    exact ‹y = _›.symm
  · exact hc.keyed y zone' hy
  · exact ‹y = _› ▸ h.live
  · exact hc.live y zone' hy
  · obtain rfl := Option.some.inj hy
    exact h.cached
  · exact hc.cached y zone' hy
  · obtain rfl := Option.some.inj hy
    exact ‹y = _› ▸ h.shown
  · exact hc.shown y zone' hy hwar

/-- Without zones there is nothing to show. -/
theorem Server.Coloured.empty (hfresh : ∀ ids, s.platform.gangZoneId ids ∉ ids)
    (hzones : s.zones = ∅) : s.Coloured := by
  have hnone : ∀ z zone, s.zones.lookup z ≠ some zone := fun z zone => by simp [hzones]
  exact ⟨hfresh, fun z zone hz => absurd hz (hnone z zone), fun z zone hz => absurd hz (hnone z zone),
    fun z zone hz => absurd hz (hnone z zone), fun z zone hz => absurd hz (hnone z zone)⟩

/-- `GangZoneMgr.LoadAllFromDatabase` shows the zones it loads with the colours of their owners. -/
theorem wp_load_coloured (h : s.Coloured) : wp GangZoneManager.loadAllFromDatabase
    (fun _ => Coloured) (fun _ _ => True) s := by
  have hclear : wp GangZoneManager.clear (fun _ => Coloured) (fun _ _ => True)
      { s with trace := .reload .gangzone :: s.trace } := by
    simp only [GangZoneManager.clear, wp_bind, wp_gets, wp_modify]
    have hstay : Stays [.sampZones, .streamer, .areas, .pickups]
        (forEach GangZoneItem.destruct s.zones.values) := inferInstance
    refine wp_mono (hstay.invariant (I := fun t => t.platform = s.platform ∧ t.zones = ∅)
      (fun k hk a b hab ha => ?_) ⟨rfl, rfl⟩) (fun _ t ht => .empty (ht.1 ▸ h.fresh) ht.2)
      (fun _ _ _ => trivial)
    have hframe := Kind.frame hab
    refine ⟨hframe.platform.trans ha.1, (hframe.zones ?_ ?_).trans ha.2⟩
    all_goals
      rintro rfl
      simp at hk
  have hbody : ∀ doc t, Coloured t → wp (do
      let _ ← nextFault
      let zone ← GangZoneItem.ofData doc
      let _ ← GangZoneManager.add zone
      pure ()) (fun _ => Coloured) (fun _ _ => True) t := by
    intro doc t ht
    refine wp_bind_keeps inferInstance ht fun _ t ht => ?_
    rw [wp_bind, GangZoneItem.ofData]
    refine wp_bind_keeps inferInstance ht fun item t ht => ?_
    refine wp_bind_keeps inferInstance ht fun loaded t ht => ?_
    refine wp_mono (wp_build_coloured ht) (fun zone t ht => ?_) (fun _ _ _ => trivial)
    simp only [GangZoneManager.add, wp_bind, wp_gets, id_eq, wp_modify, wp_pure, if_neg ht.unused]
    exact ht.insert
  rw [GangZoneManager.loadAllFromDatabase, wp_bind, emit, wp_modify, wp_bind]
  refine wp_mono hclear (fun _ t ht => ?_) (fun _ _ _ => trivial)
  rw [fetchAllFromDatabase]
  refine wp_bind_keeps inferInstance ht fun _ t ht => ?_
  have hissue : Stays aroundZones (issue (.queryAll .gangzone)) := stays_issue .output _ rfl
  refine wp_bind_keeps keeps_coloured ht fun _ t ht => ?_
  refine wp_bind_keeps inferInstance ht fun docs t ht => ?_
  exact wp_forEach docs ht fun doc _ t ht => hbody doc t ht

end Loading

/-! ## Wars and redraws -/

section Wars
open Server
variable {s t : Server} {z p : ℤ} {zone : GangZoneItem}

/-- Redrawing shows a zone the way it is. -/
instance : Keeps Server.Coloured (GangZoneItem.redraw z) := by
  refine keeps_of_wp fun s hs => wp_mono GangZoneItem.wp_redraw (fun _ t ht => ?_)
    (fun _ _ hf => hf.elim)
  obtain ⟨zone, trace, hz, rfl⟩ := ht
  refine hs.replace ⟨rfl, rfl, rfl, rfl, rfl, rfl, rfl⟩ (fun _ _ => rfl) hz hz rfl
    (hs.cached z zone hz) ⟨_, rfl⟩ fun hwar => ?_
  have hkey := hs.keyed z zone hz
  simp [hwar, ← hkey]

/-- A war that begins only changes how its zone is shown. -/
theorem Server.Coloured.warBegun {attacker : OID} {last : ℤ} {timeout : Option ℤ} (h : s.Coloured)
    (hz : s.zones.lookup z = some zone) (ht : s.WarBegun t z zone attacker last timeout) :
    t.Coloured := by
  have hz' : t.zones.lookup z =
      some (zone.warBegun attacker s.nexthandle (timeout.map fun _ => s.nexthandle + 1)) := by
    rw [ht.zones, Map.lookup_adjust, if_pos rfl, hz]
    rfl
  refine h.replace ht.rest (fun y hy => by simp [ht.zones, hy]) hz hz' rfl (h.cached z zone hz)
    ⟨_, ht.zoneColor⟩ fun hwar => ?_
  cases hwar

/-- A war that is over leaves its zone in the colour it was loaded with. -/
theorem Server.Coloured.warEnded {b : Bool} (h : s.Coloured)
    (hz : s.zones.lookup z = some zone) (ht : s.WarEnded t z zone b)
    (hcolor : s.TeamColour (zone.winner b) zone.color) : t.Coloured := by
  obtain ⟨item, hitem⟩ := ht.ended
  refine h.replace ht.rest ht.others hz hitem rfl hcolor ⟨_, ht.zoneColor⟩ fun _ => ?_
  rw [ht.zoneColor, ← h.keyed z zone hz, paint_self]
  rfl

/-- A write to a zone that keeps its id, its owner, its colour and whether it is at war. -/
theorem keeps_modifyZone {g : GangZoneItem → GangZoneItem} (hid : ∀ x, (g x).zone = x.zone)
    (howner : ∀ x, (g x).owner = x.owner) (hcolor : ∀ x, (g x).color = x.color)
    (hwar : ∀ x, (g x).warinfo.inWar = x.warinfo.inWar) :
    Keeps Server.Coloured (GangZoneItem.modifyZone z g) := by
  refine keeps_of_wp fun s hs => ?_
  rw [GangZoneItem.modifyZone, wp_modify]
  have hlookup : ∀ y zone, (s.zones.adjust z g).lookup y = some zone → ∃ old,
      s.zones.lookup y = some old ∧ zone.zone = old.zone ∧ zone.owner = old.owner ∧
        zone.color = old.color ∧ zone.warinfo.inWar = old.warinfo.inWar := by
    intro y zone hy
    rw [Map.lookup_adjust] at hy
    split at hy
    case isTrue hyz =>
      obtain ⟨old, hold, rfl⟩ := Option.map_eq_some_iff.mp hy
      exact ⟨old, hyz ▸ hold, hid old, howner old, hcolor old, hwar old⟩
    case isFalse => exact ⟨zone, hy, rfl, rfl, rfl, rfl⟩
  refine ⟨hs.fresh, fun y zone hy => ?_, fun y zone hy => ?_, fun y zone hy => ?_,
    fun y zone hy hpeace => ?_⟩
  all_goals obtain ⟨old, hold, hzone, howner, hcolor, hwar⟩ := hlookup y zone hy
  · exact hzone.trans (hs.keyed y old hold)
  · exact hs.live y old hold
  · rw [howner, hcolor]
    exact hs.cached y old hold
  · rw [hcolor]
    exact hs.shown y old hold (hwar ▸ hpeace)

instance : Keeps Server.Coloured (GangZoneItem.countEnemyKill z) := by
  refine keeps_modifyZone ?_ ?_ ?_ ?_
  all_goals
    intro x
    split <;> rfl

instance : Keeps Server.Coloured (GangZoneItem.countMemberDeath z) := by
  refine keeps_modifyZone ?_ ?_ ?_ ?_
  all_goals
    intro x
    split <;> rfl

instance : Keeps Server.Coloured (GangZoneItem.memberArrived z) := by
  have htimer : Keeps Server.Coloured (GangZoneItem.modifyZone z fun zone =>
      { zone with timeouttimerid := 0 }) :=
    keeps_modifyZone (fun _ => rfl) (fun _ => rfl) (fun _ => rfl) (fun _ => rfl)
  unfold GangZoneItem.memberArrived
  infer_instance

instance : Keeps Server.Coloured (onPlayerSpawn p) := by
  unfold onPlayerSpawn reported
  infer_instance

end Wars

/-! ## Runs -/

/-- A war that the attacker wins is won by a team of the colour the zone is shown with. -/
def ZoneOp.keepsColour (s : Server) : ZoneOp → Bool
  | endWar z b => (s.zones.lookup z).all fun zone =>
      !zone.warinfo.inWar || !zone.attackerWins b ||
        (s.teams.members.lookup zone.warinfo.attacker).all fun team =>
          decide (zone.color = s.platform.int (team.color - 127))
  | _ => true

section Runs
open Server
variable {s t : Server} {op : ZoneOp} {env : Env}

theorem Server.Coloured.begin (h : s.Coloured) (env : Env) : (s.begin env).Coloured :=
  h.of_eq rfl rfl rfl rfl rfl

/-- An operation keeps the colours if no team of another colour wins a zone. -/
theorem wp_run_coloured (hC : op.keepsColour s = true) (hs : s.Coloured) :
    wp op.run (fun _ => Coloured) (fun _ _ => True) s := by
  have hkeeps : ∀ x : Game Unit, Keeps Coloured x → wp x (fun _ => Coloured) (fun _ _ => True) s :=
    fun x hx => wp_mono (hx.wp_of_keeps hs) (fun _ _ h => h) (fun _ _ _ => trivial)
  cases op
  case load => exact wp_load_coloured hs
  case startWar z p =>
    rw [ZoneOp.run, wp_discard]
    refine GangZoneItem.wp_of_ref fun zone hz => ?_
    refine wp_mono (GangZoneItem.wp_startWar hz) (fun began u hu => ?_) (fun _ _ h => h)
    cases began with
    | false =>
      have hsame : u = s := by simpa using hu
      exact hsame ▸ hs
    | true =>
      obtain ⟨-, attacker, last, timeout, -, -, hbegun⟩ := hu
      exact hs.warBegun hz hbegun
  case endWar z b =>
    rw [ZoneOp.run, wp_discard]
    refine GangZoneItem.wp_of_ref fun zone hz => ?_
    refine wp_mono (GangZoneItem.wp_endWar hz) (fun won u hu => ?_) (fun _ _ h => h)
    split at hu
    case isFalse => exact hu.2 ▸ hs
    case isTrue hwar =>
      refine hs.warEnded hz hu.2 ?_
      by_cases hwins : zone.attackerWins b = true
      · obtain ⟨team, hteam⟩ := hu.2.registered
        refine ⟨team, hteam, ?_⟩
        rw [GangZoneItem.winner, if_pos hwins] at hteam
        simpa [ZoneOp.keepsColour, hz, hwar, hwins, hteam] using hC
      · rw [GangZoneItem.winner, if_neg hwins]
        exact hs.cached z zone hz
  case countEnemyKill z => exact hkeeps (GangZoneItem.countEnemyKill z) inferInstance
  case countMemberDeath z => exact hkeeps (GangZoneItem.countMemberDeath z) inferInstance
  case memberArrived z => exact hkeeps (GangZoneItem.memberArrived z) inferInstance
  case spawn p =>
    rw [ZoneOp.run, wp_discard]
    exact wp_mono ((inferInstance : Keeps Coloured (onPlayerSpawn p)).wp_of_keeps hs)
      (fun _ _ h => h) (fun _ _ _ => trivial)

/-- A zone that was won by a team of another colour is shown with the wrong one. -/
theorem wp_run_wrong (hC : op.keepsColour s ≠ true) :
    wp op.run (fun _ t => ¬t.ShowsOwners) (fun _ _ => True) s := by
  cases op
  case endWar z b =>
    rw [ZoneOp.run, wp_discard]
    refine GangZoneItem.wp_of_ref fun zone hz => ?_
    rw [ne_eq, Bool.not_eq_true] at hC
    simp only [ZoneOp.keepsColour, hz, Option.all_some, Bool.or_eq_false_iff,
      Bool.not_eq_false'] at hC
    obtain ⟨⟨hwar, hwins⟩, hother⟩ := hC
    refine wp_mono (GangZoneItem.wp_endWar hz) (fun won u hu hshows => ?_) (fun _ _ h => h)
    rw [if_pos hwar] at hu
    have hended := hu.2
    obtain ⟨item, hitem⟩ := hended.ended
    obtain ⟨team, hteam, hcolor⟩ := hshows z _ hitem rfl
    rw [hended.rest.teams] at hteam
    simp only [GangZoneItem.winner, GangZoneItem.warEnded] at hteam hcolor
    rw [if_pos hwins] at hteam
    rw [hended.zoneColor, paint_self, hended.rest.platform, Option.some.injEq] at hcolor
    simp [hteam, hcolor] at hother
  all_goals exact absurd rfl hC

/-- A step shows the owners' colours exactly if no team of another colour wins a zone in it. -/
theorem step_showsOwners_iff (hs : s.Coloured) (h : ZoneOp.step s (op, env) = some t) :
    t.ShowsOwners ↔ op.keepsColour s = true := by
  constructor
  · intro hshows
    by_contra hC
    exact of_returned (P := fun u => ¬u.ShowsOwners) h
      (wp_run_wrong (s := s.begin env) hC) hshows
  · intro hC
    exact (of_returned h (wp_run_coloured (s := s.begin env) hC (hs.begin env))).showsOwners

/-- A run shows every zone that is not at war with the colour of its owner exactly if no war
of it is won by a team of another colour than the one its zone was loaded with. -/
theorem owners_shown_iff (s : Server) (ops : List (ZoneOp × Env))
    (hfresh : ∀ ids, s.platform.gangZoneId ids ∉ ids) (hzones : s.zones = ∅) :
    AllSteps ZoneOp.step (fun _ _ t => t.ShowsOwners) s ops ↔
      Meets ZoneOp.step (fun s op => op.1.keepsColour s = true) s ops := by
  refine allSteps_iff_meets (I := Coloured) (fun s op t hs ht => ?_) (fun s op t hs ht hC => ?_)
    (.empty hfresh hzones)
  · exact step_showsOwners_iff hs ht
  · exact of_returned ht (wp_run_coloured (s := s.begin op.2) hC (hs.begin op.2))

end Runs

/-! ## A war by each end -/

namespace Demo

/-- SA-MP gives a new zone an id that is larger than the others. -/
def freshPlatform : Platform :=
  { platform with gangZoneId := fun ids => ids.foldr max 0 + 1 }

theorem freshPlatform_fresh (ids : List ℤ) : freshPlatform.gangZoneId ids ∉ ids := by
  intro hmem
  have hle : ∀ (l : List ℤ) (x : ℤ), x ∈ l → x ≤ l.foldr max 0 := by
    intro l x hx
    induction l with
    | nil => cases hx
    | cons y l ih =>
      rcases List.mem_cons.mp hx with rfl | hx
      · exact le_max_left ..
      · exact (ih hx).trans (le_max_right ..)
  have hself := hle ids _ hmem
  simp only [freshPlatform] at hself
  omega

def teams : Map OID Team :=
  ((∅ : Map OID Team).insert team { item := {}, ingameteamid := 1 }).insert rivals
    { item := {}, ingameteamid := 2, color := 1 }

/-- Two teams of different colours, and a member of the second one. -/
def siege : Server :=
  { initial with
    platform := freshPlatform
    teams := { members := teams }
    profiles := (∅ : Map ℤ Profile).insert 0 (member rivals) }

/-- The zone is loaded, and a war on it begins. -/
def warBegins : List (ZoneOp × Env) := [(.load, env), (.startWar 1 0, env)]

end Demo

/-- When the war is not won, the zone is shown with the colour of its owner again. -/
theorem owners_shown_defended : AllSteps ZoneOp.step (fun _ _ t => t.ShowsOwners) Demo.siege
    (Demo.warBegins ++ [(.endWar 1 false, Demo.env)]) :=
  (owners_shown_iff Demo.siege _ Demo.freshPlatform_fresh rfl).mpr
    (meets_of_check (b := fun s (op : ZoneOp × Env) => op.1.keepsColour s) (fun _ _ h => h)
      (by decide +kernel))

/-- The attacker wins the zone, which is still shown with the colour of the old owner. -/
theorem owner_not_shown :
    ¬∀ (s : Server) (ops : List (ZoneOp × Env)), (∀ ids, s.platform.gangZoneId ids ∉ ids) →
      s.zones = ∅ → AllSteps ZoneOp.step (fun _ _ t => t.ShowsOwners) s ops := by
  intro hall
  have hmeets := (owners_shown_iff Demo.siege _ Demo.freshPlatform_fresh rfl).mp
    (hall Demo.siege (Demo.warBegins ++ [(.endWar 1 true, Demo.env)]) Demo.freshPlatform_fresh rfl)
  exact not_allSteps Demo.warBegins (.endWar 1 true, Demo.env)
    (fun u _ => ZoneOp.keepsColour u (.endWar 1 true)) (fun _ _ h => h) (by decide +kernel) hmeets

end FreshCity
