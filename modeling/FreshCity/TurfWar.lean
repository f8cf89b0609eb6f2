import FreshCity.Saving
import FreshCity.Views

/-!
# What the operations of a turf war do

One lemma for each operation of a war gives the state it leaves behind when it
returns. A war has an end timer, and a timeout timer if no member of the owner's
team was in the zone when it began.
-/
namespace FreshCity
open Imperative Prog

/-! ## States -/

namespace GangZoneItem

/-- A zone once a war on it began. -/
def warBegun (zone : GangZoneItem) (attacker : OID) (endtimer : ℤ) (timeouttimer : Option ℤ) :
    GangZoneItem :=
  { zone with
    warinfo := { zone.warinfo with attacker := attacker, inWar := true }
    endtimerid := endtimer
    timeouttimerid := timeouttimer.getD zone.timeouttimerid }

/-- A zone once the war on it is over. -/
def warEnded (zone : GangZoneItem) (owner : OID) : GangZoneItem :=
  { zone with owner := owner, warinfo := {} }

/-- Who owns the zone when the war on it is over. -/
def winner (zone : GangZoneItem) (causedbytimeout : Bool) : OID :=
  if zone.attackerWins causedbytimeout then zone.warinfo.attacker else zone.owner

end GangZoneItem

namespace Server

/-- A timer of a war, with a delay in minutes. -/
def warTimer (s : Server) (handle : ℤ) (callback : TimerCallback) (minutes : ℤ) : Timer where
  handle := handle
  callback := callback
  period := dword (s.platform.int (minutes * 60000))
  repeats := false
  due := s.env.clock + dword (s.platform.int (minutes * 60000))

/-- The timers of a new war: the end timer has the first handle. -/
def warTimers (s : Server) (zone : GangZoneItem) (last : ℤ) (timeout : Option ℤ) : List Timer :=
  (timeout.map (s.warTimer (s.nexthandle + 1) (.turfWarWaitTimeout zone.addr))).toList ++
    [s.warTimer s.nexthandle (.endTurfWar zone.addr) last]

/-- A zone is shown or flashed with a colour. -/
def paint (s : Server) (id color : ℤ) : Samp :=
  { s.samp with zoneColor := Function.update s.samp.zoneColor id (some color) }

@[simp] theorem paint_self (s : Server) (id color : ℤ) :
    (s.paint id color).zoneColor id = some color := Function.update_self ..

theorem paint_of_ne (s : Server) {id y : ℤ} (color : ℤ) (h : y ≠ id) :
    (s.paint id color).zoneColor y = s.samp.zoneColor y := Function.update_of_ne h ..

/-- What is the same before and after the operations of a war. -/
structure SameRest (s t : Server) : Prop where
  platform : t.platform = s.platform
  config : t.config = s.config
  env : t.env = s.env
  teams : t.teams = s.teams
  profiles : t.profiles = s.profiles
  areas : t.areas = s.areas
  sampZones : t.samp.zones = s.samp.zones

/-- A war on a zone began: the server after `StartWar` returned true. -/
structure WarBegun (s t : Server) (z : ℤ) (zone : GangZoneItem) (attacker : OID) (last : ℤ)
    (timeout : Option ℤ) : Prop where
  rest : s.SameRest t
  delay : s.config.int .turfwarlast = some last
  timeoutDelay : ∀ n, timeout = some n → s.config.int .turfwartimeout = some n
  registered : ∃ team, s.teams.members.lookup attacker = some team
  zones : t.zones = s.zones.adjust z fun zone =>
    zone.warBegun attacker s.nexthandle (timeout.map fun _ => s.nexthandle + 1)
  timers : t.timers = s.warTimers zone last timeout ++ s.timers
  nexthandle : t.nexthandle = s.nexthandle + (s.warTimers zone last timeout).length
  zoneColor : t.samp.zoneColor =
    (s.paint zone.zone (s.platform.int (colorRed - 127))).zoneColor

/-- The war on a zone is decided, but not yet over. -/
structure WarDecided (s t : Server) (z : ℤ) (zone : GangZoneItem) (causedbytimeout : Bool) :
    Prop where
  rest : s.SameRest t
  registered : ∃ team, s.teams.members.lookup (zone.winner causedbytimeout) = some team
  others : ∀ y, y ≠ z → t.zones.lookup y = s.zones.lookup y
  decided : ∃ item, t.zones.lookup z =
    some { zone with owner := zone.winner causedbytimeout, item := item }
  timers : t.timers = if causedbytimeout then s.timers.filter fun tm => tm.handle ≠ zone.endtimerid
    else s.timers
  nexthandle : t.nexthandle = s.nexthandle
  samp : t.samp = s.samp

/-- The war on a zone is over: the server after `EndWar` returned. -/
structure WarEnded (s t : Server) (z : ℤ) (zone : GangZoneItem) (causedbytimeout : Bool) : Prop where
  rest : s.SameRest t
  registered : ∃ team, s.teams.members.lookup (zone.winner causedbytimeout) = some team
  others : ∀ y, y ≠ z → t.zones.lookup y = s.zones.lookup y
  ended : ∃ item, t.zones.lookup z =
    some { zone.warEnded (zone.winner causedbytimeout) with item := item }
  timers : t.timers = if causedbytimeout then s.timers.filter fun tm => tm.handle ≠ zone.endtimerid
    else s.timers
  nexthandle : t.nexthandle = s.nexthandle
  zoneColor : t.samp.zoneColor = (s.paint zone.zone zone.color).zoneColor

end Server

/-! ## Operations -/

namespace GangZoneItem
variable {s : Server} {z p : ℤ} {zone : GangZoneItem}

/-- A method of a zone that is not registered has no defined run. -/
theorem wp_of_ref {α : Type} {f : GangZoneItem → Game α} {Q : α → Server → Prop}
    {E : Exn → Server → Prop}
    (h : ∀ zone, s.zones.lookup z = some zone → wp (ref z >>= f) Q E s) :
    wp (ref z >>= f) Q E s := by
  cases hz : s.zones.lookup z with
  | none => simp [ref, hz]
  | some zone => exact h zone hz

theorem wp_memberInZone {members : List ℤ} : wp (memberInZone z members) (fun _ t => t = s)
    (fun _ _ => True) s :=
  wp_mono ((inferInstance : Stays [] (memberInZone z members)).unchanged s) (fun _ _ h => h)
    (fun _ _ _ => trivial)

/-- `StartWar` returns false and does nothing, or a war begins. -/
theorem wp_startWar (hzone : s.zones.lookup z = some zone) : wp (startWar z p)
    (fun b t => if b then zone.warinfo.inWar = false ∧ ∃ attacker last timeout,
        (s.profiles.lookup p).map (·.team) = some attacker ∧ attacker ≠ zone.owner ∧
        s.WarBegun t z zone attacker last timeout
      else t = s) (fun _ _ => True) s := by
  simp only [startWar, ref, Profile.ref, wp_bind, wp_gets, wp_orUndefined, hzone,
    Option.some.injEq, forall_eq', wp_ite]
  intro pr hpr
  split
  · simp
  split
  · simp
  rename_i hwar howner
  simp only [beginWar, teamMgr, pushMessage, emit, createWarTimer, configInt, createTimer,
    modifyZone, wp_bind, wp_gets, wp_orRaise, wp_modify, wp_pure, implies_true, and_true]
  intro team hteam last hlast owner _
  refine wp_mono wp_memberInZone (fun arrived t ht => ?_) (fun _ _ _ => trivial)
  subst ht
  cases arrived
  all_goals
    simp only [Bool.not_true, Bool.not_false, wp_bind, wp_when, redraw, ref, gangZoneFlashForAll,
      gangZoneShowForAll, emit, wp_gets, wp_orRaise, wp_modify, wp_orUndefined, wp_pure, wp_ite,
      Map.lookup_adjust, if_true, hzone, Option.map_some, Option.some.injEq, forall_eq',
      Bool.false_eq_true, if_false, implies_true, and_true]
  · intro minutes hminutes
    refine ⟨by simpa using hwar, pr.team, last, some minutes, by rw [hpr]; rfl, howner, ?_⟩
    exact {
      rest := ⟨rfl, rfl, rfl, rfl, rfl, rfl, rfl⟩
      delay := hlast
      timeoutDelay := by
        rintro n ⟨⟩
        exact hminutes
      registered := ⟨team, hteam⟩
      zones := by simp only [Map.adjust_adjust]; rfl
      timers := rfl
      nexthandle := Int.add_assoc ..
      zoneColor := rfl }
  · refine ⟨by simpa using hwar, pr.team, last, none, by rw [hpr]; rfl, howner, ?_⟩
    exact {
      rest := ⟨rfl, rfl, rfl, rfl, rfl, rfl, rfl⟩
      delay := hlast
      timeoutDelay := by
        rintro n ⟨⟩
      registered := ⟨team, hteam⟩
      zones := by simp only [Map.adjust_adjust]; rfl
      timers := rfl
      nexthandle := rfl
      zoneColor := rfl }

@[simp] theorem saved_zones {c : Collection} {id : OID} {m : Modifier} :
    (s.saved c id m).zones = s.zones := rfl

/-- Whether an update of the zone's document is written. -/
def writable (zone : GangZoneItem) (s : Server) (m : Modifier) : Bool :=
  zone.item.uniqueid.isSet && !s.database.refusesUpdate .gangzone zone.item.uniqueid m

/-- An update of a registered zone's document changes nothing else. -/
theorem wp_updateItem {m : Modifier} (hzone : s.zones.lookup z = some zone) :
    wp (withItem z (SaveableItem.update .gangzone m false))
      (fun _ t => zone.writable s m = true ∧ t = s.saved .gangzone zone.item.uniqueid m)
      (fun _ t => zone.writable s m = false ∧ ∃ db trace,
        db.docs = zone.item.docsAfter .gangzone m s.database ∧
        t = { s with database := db, trace := trace }) s := by
  refine SaveableItem.wp_focus_update (by rw [hzone, Option.map_some]) fun db trace => ?_
  have hsame : (s.zones.adjust z fun x => { x with item := zone.item }) = s.zones :=
    Map.adjust_eq_self fun x hx => by
      rw [hzone, Option.some.injEq] at hx
      rw [← hx]
  simp only [hsame]

/-- The winner is announced, and owns the zone. -/
theorem wp_announceWinner (causedbytimeout : Bool) (hzone : s.zones.lookup z = some zone) :
    wp (do
        when causedbytimeout (destroyTimer zone.endtimerid)
        announceWinner z zone (zone.attackerWins causedbytimeout))
      (fun _ t => s.WarDecided t z zone causedbytimeout) (fun _ _ => True) s := by
  have hannounce : ∀ timers trace, timers = (if causedbytimeout
      then s.timers.filter fun tm => tm.handle ≠ zone.endtimerid else s.timers) →
      wp (announceWinner z zone (zone.attackerWins causedbytimeout))
        (fun _ t => s.WarDecided t z zone causedbytimeout) (fun _ _ => True)
        { s with timers := timers, trace := trace } := by
    intro timers trace htimers
    simp only [announceWinner, teamMgr, pushMessage, emit, setOwner, modifyZone, wp_ite, wp_bind,
      wp_gets, wp_orRaise, wp_modify, implies_true, and_true]
    split
    case isTrue hwins =>
      have hwinner : zone.winner causedbytimeout = zone.warinfo.attacker := if_pos hwins
      intro team hteam
      refine wp_mono (wp_updateItem (s := { s with timers := timers, trace := _ }) hzone)
        (fun _ u hu => ?_) (fun _ _ _ => trivial)
      obtain ⟨-, rfl⟩ := hu
      exact {
        rest := ⟨rfl, rfl, rfl, rfl, rfl, rfl, rfl⟩
        registered := ⟨team, hwinner ▸ hteam⟩
        others := fun y hy => by simp [hy]
        decided := ⟨zone.item, by simp [hzone, hwinner]⟩
        timers := htimers
        nexthandle := rfl
        samp := rfl }
    case isFalse hwins =>
      have hwinner : zone.winner causedbytimeout = zone.owner := if_neg hwins
      intro team hteam
      exact {
        rest := ⟨rfl, rfl, rfl, rfl, rfl, rfl, rfl⟩
        registered := ⟨team, hwinner ▸ hteam⟩
        others := fun _ _ => rfl
        decided := ⟨zone.item, hwinner ▸ hzone⟩
        timers := htimers
        nexthandle := rfl
        samp := rfl }
  simp only [wp_bind, wp_when, destroyTimer, emit, wp_modify]
  split
  case isTrue hcaused => exact hannounce _ _ (by simp [hcaused])
  case isFalse hcaused => exact hannounce _ _ (by simp [hcaused])

/-- What `EndWar` returns, and the state it leaves behind. -/
theorem wp_endWar {causedbytimeout : Bool} (hzone : s.zones.lookup z = some zone) :
    wp (endWar z causedbytimeout)
      (fun won t => if zone.warinfo.inWar
        then won = zone.attackerWins causedbytimeout ∧ s.WarEnded t z zone causedbytimeout
        else won = false ∧ t = s)
      (fun _ _ => True) s := by
  rw [endWar, ref, wp_bind, wp_bind, wp_gets, hzone, wp_orUndefined]
  rintro _ ⟨⟩
  rw [wp_ite]
  split
  case isFalse hwar => exact ⟨rfl, rfl⟩
  have hdecided := wp_announceWinner causedbytimeout hzone
  rw [wp_bind] at hdecided ⊢
  refine wp_mono hdecided (fun _ u hu => ?_) (fun _ _ _ => trivial)
  rw [wp_bind]
  refine wp_mono hu (fun _ v hv => ?_) (fun _ _ _ => trivial)
  obtain ⟨item, hitem⟩ := hv.decided
  simp only [modifyZone, redraw, ref, gangZoneShowForAll, gangZoneFlashForAll, emit, wp_bind,
    wp_modify, wp_gets, wp_orUndefined, wp_ite, wp_pure, Map.lookup_adjust, if_true, hitem,
    Option.map_some, Option.some.injEq, forall_eq', Bool.false_eq_true, if_false, true_and]
  have hrest := hv.rest
  exact {
    rest := ⟨hrest.platform, hrest.config, hrest.env, hrest.teams, hrest.profiles, hrest.areas,
      hrest.sampZones⟩
    registered := hv.registered
    others := fun y hy => by simpa [hy] using hv.others y hy
    ended := ⟨item, by simp [hitem, warEnded]⟩
    timers := hv.timers
    nexthandle := hv.nexthandle
    zoneColor := by simp only [Server.paint, hv.samp] }

/-- A zone is shown with its colour, or flashes while it is at war. -/
theorem wp_redraw : wp (redraw z)
    (fun _ t => ∃ zone trace, s.zones.lookup z = some zone ∧ t = { s with
      trace := trace
      samp := s.paint zone.zone (if zone.warinfo.inWar then s.platform.int (colorRed - 127)
        else zone.color) }) (fun _ _ => False) s := by
  simp only [redraw, ref, gangZoneShowForAll, gangZoneFlashForAll, emit, wp_bind, wp_modify,
    wp_gets, wp_orUndefined, wp_ite]
  intro zone hzone
  split
  case isTrue hwar => exact ⟨zone, _, hzone, by rw [if_pos hwar]; rfl⟩
  case isFalse hwar => exact ⟨zone, _, hzone, by rw [if_neg hwar]; rfl⟩

end GangZoneItem

/-! ## Runs of operations -/

/-- The operations on gang zones. -/
inductive ZoneOp where
  | load
  | startWar (z p : ℤ)
  | endWar (z : ℤ) (causedbytimeout : Bool)
  | countEnemyKill (z : ℤ)
  | countMemberDeath (z : ℤ)
  | memberArrived (z : ℤ)
  | spawn (p : ℤ)

namespace ZoneOp

def run : ZoneOp → Game Unit
  | load => GangZoneManager.loadAllFromDatabase
  | startWar z p => discard (GangZoneItem.startWar z p)
  | endWar z causedbytimeout => discard (GangZoneItem.endWar z causedbytimeout)
  | countEnemyKill z => GangZoneItem.countEnemyKill z
  | countMemberDeath z => GangZoneItem.countMemberDeath z
  | memberArrived z => GangZoneItem.memberArrived z
  | spawn p => discard (onPlayerSpawn p)

end ZoneOp

/-- The state after a program that returns normally, in an environment of its own. -/
def Server.returned (s : Server) (x : Game Unit) (env : Env) : Option Server :=
  match x (s.begin env) with
  | .ok _ t => some t
  | _ => none

theorem Server.of_returned {s t : Server} {x : Game Unit} {env : Env} {P : Server → Prop}
    (h : s.returned x env = some t) (hP : wp x (fun _ => P) (fun _ _ => True) (s.begin env)) :
    P t := by
  rw [Server.returned] at h
  cases hx : x (s.begin env) with
  | ok a u =>
    rw [hx] at h
    obtain rfl := Option.some.inj h
    exact (wp_of_ok hx).mp hP
  | error e u => rw [hx] at h; cases h
  | undefined => rw [hx] at h; cases h

/-- One operation that succeeds. -/
def ZoneOp.step (s : Server) (i : ZoneOp × Env) : Option Server := s.returned i.1.run i.2

end FreshCity
