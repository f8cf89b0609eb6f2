import FreshCity.RacePhases
import FreshCity.Totality

/-!
# The checkpoints of a race

A racer moves along the checkpoints by an index that only grows, and SA-MP shows
the checkpoint the racer drives to. What the operations of a race do to the indices
and to the checkpoints on display is described once, as moves from track to track.
Whether an access to the checkpoints stays in range, and whether the racers see the
checkpoint they are at, follows from the moves.
-/
namespace FreshCity
open Imperative Prog Run

/-! ## Tracks -/

/-- The checkpoints of a race, how far its racers are, and the race checkpoints that
are on display. -/
structure Track where
  state : RaceState
  starter : ℤ
  type : ℤ
  checkpoints : List Coordinate3D
  progress : ℤ → Option ℤ
  display : ℤ → Option RaceCheckpoint

def Racing.track (race : Racing) (display : ℤ → Option RaceCheckpoint) : Track where
  state := race.racedata.state
  starter := race.racedata.starter
  type := race.raceinfo.type
  checkpoints := race.checkpoints
  progress p := (race.racers.lookup p).map (·.currentcp)
  display := display

def Server.track (s : Server) (k : ℤ) : Option Track :=
  (s.races.lookup k).map fun race => race.track s.samp.raceCheckpoint

/-- What a racer at an index is to see: the checkpoint there, and the one after it. -/
structure Displays (type : ℤ) (checkpoints : List Coordinate3D) (i : ℕ) (shown : RaceCheckpoint) :
    Prop where
  pos : checkpoints[i]? = some shown.pos
  next : ∀ next, checkpoints[i + 1]? = some next → shown.next = next
  air : shown.type = 3 ∨ shown.type = 4 ↔ type = raceTypeAir
  finish : shown.type = 1 ∨ shown.type = 4 ↔ i + 1 = checkpoints.length

namespace Track

/-- A racer is put at an index, and sees something. -/
def place (c : Track) (p i : ℤ) (shown : Option RaceCheckpoint) : Track :=
  { c with
    progress := Function.update c.progress p (some i)
    display := Function.update c.display p shown }

/-- The race starts: every racer moves on by one and sees the checkpoint there. -/
structure Starts (c c' : Track) : Prop where
  same : c' = { c with state := .inProgress, progress := c'.progress, display := c'.display }
  absent : ∀ p, c.progress p = none → c'.progress p = none
  moved : ∀ p, (c.progress p).isSome → c'.progress p = some 1 ∧
    ∃ shown, c'.display p = some shown ∧ Displays c.type c.checkpoints 1 shown

/-- A racer reaches a checkpoint. At the last one the race may end, and if the race is not
kept under its starter another race ends. -/
def Reaches (k : ℤ) (c : Track) (p : ℤ) (c' : Track) : Prop :=
  ∃ i, c.progress p = some i ∧
    if i + 1 = c.checkpoints.length then
      ∃ display, c' = { c.place p (i + 1) none with display := display } ∧
        (c.starter = k → display = Function.update c.display p none)
    else ∃ shown, Displays c.type c.checkpoints (i + 1).toNat shown ∧ c' = c.place p (i + 1) (some shown)

/-- What holds of a track at all times. -/
structure Sound (c : Track) : Prop where
  long : c.state ≠ .building → 2 ≤ c.checkpoints.length
  unjoined : c.state = .building → ∀ p, c.progress p = none
  waiting : c.state ≠ .inProgress → ∀ p i, c.progress p = some i → i = 0
  within : ∀ p i, c.progress p = some i → 0 ≤ i ∧ i ≤ c.checkpoints.length

end Track

/-- The race with a key takes a player in. -/
def Server.Admits (s : Server) (k p : ℤ) : Prop :=
  ∃ race, s.races.lookup k = some race ∧ race.Admits s p

/-- What an operation makes of a track. -/
def RaceOp.Moves (s : Server) (k : ℤ) (c : Track) : RaceOp → Track → Prop
  | appendCheckpoint pos, c' => c' = c ∨
      c.state = .building ∧ c' = { c with checkpoints := c.checkpoints ++ [pos] }
  | create, c' => c' = c ∨
      c.state = .building ∧ 2 ≤ c.checkpoints.length ∧ c' = { c with state := .joining }
  | join p, c' => c' = c ∨
      c.state = .joining ∧ s.Admits k p ∧ ∃ shown, c' = c.place p 0 shown ∧
        (s.config.collection .waypoint = true → ∃ startcp nextcp, c.checkpoints[0]? = some startcp ∧
          c.checkpoints[1]? = some nextcp ∧ ∃ cp, shown = some cp ∧
            (startcp.z = nextcp.z → Displays c.type c.checkpoints 0 cp))
  | quit p, c' => c' = c ∨ c' = { c with
      progress := Function.update c.progress p none, display := Function.update c.display p none }
  | ready, c' => c' = c ∨ c.state = .joining ∧ c' = { c with state := .ready }
  | countDown, c' => c' = c ∨ c.state = .ready ∧ c.Starts c'
  | playerReachCheckpoint p, c' => c' = c ∨ c.state = .inProgress ∧ c.Reaches k p c'

namespace Track
variable {s : Server} {k : ℤ} {c c' : Track} {op : RaceOp}

/-- A racer who is put at an index in range leaves the track sound. -/
theorem Sound.place {p i : ℤ} {display : ℤ → Option RaceCheckpoint} (hc : c.Sound)
    (hbuilding : c.state ≠ .building) (hwaiting : c.state ≠ .inProgress → i = 0)
    (hi : 0 ≤ i ∧ i ≤ c.checkpoints.length) :
    ({ c with progress := Function.update c.progress p (some i), display := display } : Track).Sound where
  long := hc.long
  unjoined h := absurd h hbuilding
  waiting hstate q j hj := by
    simp only [Function.update_apply] at hj
    split at hj
    · obtain rfl : i = j := Option.some.inj hj
      exact hwaiting hstate
    · exact hc.waiting hstate q j hj
  within q j hj := by
    simp only [Function.update_apply] at hj
    split at hj
    · obtain rfl : i = j := Option.some.inj hj
      exact hi
    · exact hc.within q j hj

theorem Sound.remove {p : ℤ} {display : ℤ → Option RaceCheckpoint} (hc : c.Sound) :
    ({ c with progress := Function.update c.progress p none, display := display } : Track).Sound where
  long := hc.long
  unjoined h q := by
    simp only [Function.update_apply]
    split
    · rfl
    · exact hc.unjoined h q
  waiting hstate q j hj := by
    simp only [Function.update_apply] at hj
    split at hj
    · cases hj
    · exact hc.waiting hstate q j hj
  within q j hj := by
    simp only [Function.update_apply] at hj
    split at hj
    · cases hj
    · exact hc.within q j hj

theorem Sound.starts (hc : c.Sound) (hready : c.state = .ready) (h : c.Starts c') : c'.Sound := by
  have hstate : c'.state = .inProgress := by rw [h.same]
  have hcps : c'.checkpoints = c.checkpoints := by rw [h.same]
  have hlong : 2 ≤ c.checkpoints.length := hc.long (by simp [hready])
  have hprogress : ∀ p i, c'.progress p = some i → i = 1 := by
    intro p i hi
    cases hp : c.progress p with
    | none => simp [h.absent p hp] at hi
    | some j =>
      rw [(h.moved p (by simp [hp])).1] at hi
      exact (Option.some.inj hi).symm
  constructor
  · rw [hcps]
    exact fun _ => hlong
  · simp [hstate]
  · simp [hstate]
  · intro p i hi
    rw [hcps, hprogress p i hi]
    omega

/-- Every operation leaves a sound track. -/
theorem Sound.moves (hc : c.Sound) (h : op.Moves s k c c') : c'.Sound := by
  cases op with
  | appendCheckpoint pos =>
    rcases h with rfl | ⟨hbuilding, rfl⟩
    · exact hc
    · refine ⟨fun hnot => absurd hbuilding hnot, hc.unjoined, hc.waiting, fun p i hi => ?_⟩
      simp [hc.unjoined hbuilding] at hi
  | create =>
    rcases h with rfl | ⟨hbuilding, hlong, rfl⟩
    · exact hc
    · refine ⟨fun _ => hlong, by simp, fun _ p i hi => ?_, hc.within⟩
      simp [hc.unjoined hbuilding] at hi
  | join p =>
    rcases h with rfl | ⟨hjoining, -, shown, rfl, -⟩
    · exact hc
    · exact hc.place (by simp [hjoining]) (fun _ => rfl) (by omega)
  | quit p =>
    rcases h with rfl | rfl
    · exact hc
    · exact hc.remove
  | ready =>
    rcases h with rfl | ⟨hjoining, rfl⟩
    · exact hc
    · exact ⟨fun _ => hc.long (by simp [hjoining]), by simp,
        fun _ => hc.waiting (by simp [hjoining]), hc.within⟩
  | countDown =>
    rcases h with rfl | ⟨hready, hstarts⟩
    · exact hc
    · exact hc.starts hready hstarts
  | playerReachCheckpoint p =>
    rcases h with rfl | ⟨hrunning, i, hi, hreach⟩
    · exact hc
    have hwithin := hc.within p i hi
    split at hreach
    case isTrue hlast =>
      obtain ⟨display, rfl, -⟩ := hreach
      exact hc.place (by simp [hrunning]) (by simp [hrunning]) (by omega)
    case isFalse =>
      obtain ⟨shown, hshown, rfl⟩ := hreach
      have hlt := (List.getElem?_eq_some_iff.mp hshown.pos).1
      exact hc.place (by simp [hrunning]) (by simp [hrunning]) (by omega)

end Track

/-! ## What the operations do -/

section Operations
set_option synthInstance.maxSize 1000
variable {s : Server} {k p : ℤ} {c : Track} {race : Racing}

theorem Server.track_eq_some : s.track k = some c ↔
    ∃ race, s.races.lookup k = some race ∧ race.track s.samp.raceCheckpoint = c :=
  Option.map_eq_some_iff

/-- A write to a race, and to what is on display. -/
theorem Server.track_adjust {t : Server} {g : Racing → Racing} {c' : Track}
    (hc : s.track k = some c) (hraces : t.races = s.races.adjust k g)
    (hg : ∀ race, s.races.lookup k = some race → race.track s.samp.raceCheckpoint = c →
      (g race).track t.samp.raceCheckpoint = c') : t.track k = some c' := by
  obtain ⟨race, hrace, htrack⟩ := Server.track_eq_some.mp hc
  refine Server.track_eq_some.mpr ⟨g race, ?_, hg race hrace htrack⟩
  rw [hraces, Map.lookup_adjust_self hrace]

/-- A write to the data of a race. -/
theorem Server.track_modifyData (g : RaceData → RaceData) {state : RaceState}
    (hc : s.track k = some c)
    (hg : ∀ d, d.state = c.state → (g d).state = state ∧ (g d).starter = d.starter) :
    ({ s with races := s.races.adjust k fun race =>
      { race with racedata := g race.racedata } } : Server).track k = some { c with state := state } := by
  refine Server.track_adjust hc rfl fun race _ htrack => ?_
  obtain ⟨hstate, hstarter⟩ := hg race.racedata (congrArg Track.state htrack)
  subst htrack
  simp only [Racing.track, hstate, hstarter]

theorem Server.track_congr {t : Server} (hraces : t.races = s.races)
    (hdisplay : t.samp.raceCheckpoint = s.samp.raceCheckpoint) : t.track k = s.track k := by
  rw [Server.track, Server.track, hraces, hdisplay]

theorem Racing.checkpointType_finish (race : Racing) (finish : Bool) :
    race.checkpointType finish = 1 ∨ race.checkpointType finish = 4 ↔ finish = true := by
  unfold Racing.checkpointType
  cases finish <;> split <;> simp

theorem Racing.checkpointType_air (race : Racing) (finish : Bool) :
    race.checkpointType finish = 3 ∨ race.checkpointType finish = 4 ↔
      race.raceinfo.type = raceTypeAir := by
  unfold Racing.checkpointType
  cases finish <;> split <;> simp_all

/-- A racer sees the checkpoint at an index, and nothing else changes. -/
theorem wp_showCheckpoint (i : ℕ) : wp (race.showCheckpoint p i)
    (fun _ t => ∃ shown trace, Displays race.raceinfo.type race.checkpoints i shown ∧
      t = { s with trace := trace, samp := { s.samp with
        raceCheckpoint := Function.update s.samp.raceCheckpoint p (some shown) } })
    (fun _ _ => False) s := by
  simp only [Racing.showCheckpoint, setPlayerRaceCheckpoint, emit, wp_bind, wp_orUndefined, wp_ite,
    wp_modify]
  intro pos hpos
  have hlt := (List.getElem?_eq_some_iff.mp hpos).1
  split
  case isTrue hlast =>
    refine ⟨_, _, ⟨hpos, fun next hnext => ?_, race.checkpointType_air true, ?_⟩, rfl⟩
    · have hnext := (List.getElem?_eq_some_iff.mp hnext).1
      omega
    · rw [race.checkpointType_finish]
      exact iff_of_true rfl (by omega)
  case isFalse hinner =>
    intro nextcp hnextcp
    refine ⟨_, _, ⟨hpos, fun next hnext => ?_, race.checkpointType_air false, ?_⟩, rfl⟩
    · exact Option.some.inj (hnextcp.symm.trans hnext)
    · rw [race.checkpointType_finish]
      exact iff_of_false Bool.false_ne_true (by omega)

/-- A race that ends leaves the other races as they are. -/
theorem wp_destruct_races {o : Option Racing} {race : Racing} (hs : s.races.lookup k = o) :
    wp race.destruct (fun _ t => t.races.lookup k = o) (fun _ t => t.races.lookup k = o) s := by
  have hstay : Stays raceKinds race.destruct := inferInstance
  refine hstay.invariant (fun j hj a b hab ha => ?_) hs
  rw [(Kind.frame hab).races (by rintro rfl; simp at hj)]
  exact ha

/-- The race is gone, or it is as it was; then only another race can have changed what is shown. -/
def Server.EndsOrStays (k : ℤ) (c : Track) (t : Server) : Prop :=
  t.track k = none ∨ ∃ display, t.track k = some { c with display := display } ∧
    (c.starter = k → display = c.display)

theorem wp_finish (hc : s.track k = some c) :
    wp (Racing.finish k) (fun _ => Server.EndsOrStays k c) (fun _ => Server.EndsOrStays k c) s := by
  obtain ⟨race, hrace, htrack⟩ := Server.track_eq_some.mp hc
  have hstarter : race.racedata.starter = c.starter := congrArg Track.starter htrack
  simp only [Racing.finish, Racing.ref, wp_bind, wp_gets, wp_orUndefined, wp_when]
  intro r hr
  obtain rfl : race = r := Option.some.inj (hrace.symm.trans hr)
  split
  case isFalse => exact Or.inr ⟨_, hc, fun _ => rfl⟩
  case isTrue =>
  have hloop : wp (forEach (fun q => sendClientMessage q .raceEnds) race.racers.keys : Game Unit)
      (fun _ t => t.track k = some c ∧ t.races = s.races) (fun _ _ => False) s :=
    wp_forEach _ ⟨hc, rfl⟩ fun q _ t ht => ⟨(Server.track_congr rfl rfl).trans ht.1, ht.2⟩
  refine wp_mono hloop (fun _ t ht => ?_) (fun _ _ h => h.elim)
  simp only [Racing.mgrRemove, wp_bind, wp_gets, wp_modify, hstarter]
  by_cases hk : c.starter = k
  · -- the race itself is removed
    have hgone : ∀ u : Server, u.races.lookup k = none → u.EndsOrStays k c :=
      fun u hu => Or.inl (by rw [Server.track, hu]; rfl)
    refine wp_mono (wp_forEach (I := fun u => u.races.lookup k = none)
      (J := fun _ u => u.races.lookup k = none) _ (by simp [hk]) fun r _ u hu =>
        wp_destruct_races hu) (fun _ u hu => hgone u hu) (fun _ u hu => hgone u hu)
  · -- another race is removed, and with it the checkpoints of its racers
    have hkept : ∀ u : Server, u.races.lookup k = some race → u.EndsOrStays k c := fun u hu =>
      Or.inr ⟨u.samp.raceCheckpoint, by rw [Server.track, hu, ← htrack]; rfl, fun h => absurd h hk⟩
    have hother : (t.races.erase c.starter).lookup k = some race := by
      rw [Map.lookup_erase_ite, if_neg (Ne.symm hk), ht.2, hrace]
    exact wp_mono (wp_forEach (I := fun u => u.races.lookup k = some race)
      (J := fun _ u => u.races.lookup k = some race) _ hother fun r _ u hu =>
        wp_destruct_races hu) (fun _ u hu => hkept u hu) (fun _ u hu => hkept u hu)

/-- A racer who is past the last checkpoint has nothing to see. -/
theorem wp_playerFinish (hc : s.track k = some c) (hrunning : c.state = .inProgress) :
    wp (Racing.playerFinish k p)
      (fun _ => Server.EndsOrStays k { c with display := Function.update c.display p none })
      (fun _ => Server.EndsOrStays k { c with display := Function.update c.display p none }) s := by
  obtain ⟨race, hrace, htrack⟩ := Server.track_eq_some.mp hc
  have hstate : race.racedata.state = .inProgress := (congrArg Track.state htrack).trans hrunning
  simp only [Racing.playerFinish, Racing.ref, Racing.modifyData, Racing.modifyRacer,
    Racing.modifyRace, disablePlayerRaceCheckpoint, sendClientMessage, emit, wp_bind, wp_gets,
    wp_orUndefined, wp_when, wp_modify]
  intro r hr
  obtain rfl : race = r := Option.some.inj (hrace.symm.trans hr)
  rw [if_pos hstate]
  intro info hinfo
  have hdone : ∀ t : Server,
      t.races = ((s.races.adjust k fun r => { r with racedata := { r.racedata with
        waitingplayer := race.racedata.waitingplayer - 1 } }).adjust k fun r =>
          { r with racers := r.racers.adjust p fun info => { info with
            usedtime := s.env.time - race.racedata.start
            sessionrank := race.racers.keys.length - (race.racedata.waitingplayer - 1) } }) →
      t.samp.raceCheckpoint = Function.update s.samp.raceCheckpoint p none →
      t.track k = some { c with display := Function.update c.display p none } := by
    intro t hraces hdisplay
    rw [Map.adjust_adjust] at hraces
    refine Server.track_adjust hc hraces fun r _ hr => ?_
    subst hr
    rw [hdisplay]
    simp only [Racing.track, Track.mk.injEq, true_and, and_true]
    funext q
    rw [Map.lookup_adjust]
    split
    case isTrue hq =>
      subst hq
      cases hlookup : r.racers.lookup q <;> simp
    case isFalse => rfl
  split
  case isTrue => exact wp_finish (hdone _ rfl rfl)
  case isFalse => exact Or.inr ⟨_, hdone _ rfl rfl, fun _ => rfl⟩

/-- The race is gone, or the operation made its track into another. -/
def Server.Moved (s : Server) (k : ℤ) (c : Track) (op : RaceOp) (t : Server) : Prop :=
  t.track k = none ∨ ∃ c', op.Moves s k c c' ∧ t.track k = some c'

theorem Server.Moved.stays {op : RaceOp} (hop : op.Moves s k c c) (hc : s.track k = some c) :
    s.Moved k c op s := Or.inr ⟨c, hop, hc⟩

/-- A racer's index is written. -/
theorem Server.track_modifyRacer {t : Server} {g : RacerInfo → RacerInfo} {i : ℤ}
    (hc : s.track k = some c) (hp : c.progress p = some i)
    (hraces : t.races = s.races.adjust k fun race => { race with racers := race.racers.adjust p g })
    (hg : ∀ info, info.currentcp = i → (g info).currentcp = i + 1) :
    t.track k = some { c with
      progress := Function.update c.progress p (some (i + 1)), display := t.samp.raceCheckpoint } := by
  refine Server.track_adjust hc hraces fun race _ htrack => ?_
  subst htrack
  simp only [Racing.track, Track.mk.injEq, true_and, and_true]
  funext q
  rw [Map.lookup_adjust, Function.update_apply]
  split
  · obtain ⟨info, hinfo, hi⟩ := Option.map_eq_some_iff.mp hp
    simp [hinfo, hg info hi]
  · rfl

/-- While the race is run, a racer's index is counted up before it is used. -/
theorem playerReachCheckpoint_running {info : RacerInfo} (hrace : s.races.lookup k = some race)
    (hstate : race.racedata.state = .inProgress) (hinfo : race.racers.lookup p = some info) :
    Racing.playerReachCheckpoint k p s =
      (if info.currentcp + 1 = race.checkpoints.length then Racing.playerFinish k p
        else race.showCheckpoint p (info.currentcp + 1).toNat)
      { s with races := s.races.adjust k fun race => { race with
        racers := race.racers.adjust p fun info => { info with currentcp := info.currentcp + 1 } } } := by
  simp only [Racing.playerReachCheckpoint, Racing.ref, Racing.modifyRacer, Racing.modifyRace,
    bind_apply, gets_apply, hrace, hinfo, orUndefined_some, orRaise_some, pure_apply, modify_apply,
    when_true hstate]

theorem playerReachCheckpoint_idle (hrace : s.races.lookup k = some race)
    (hstate : race.racedata.state ≠ .inProgress) :
    Racing.playerReachCheckpoint k p s = (pure () : Game Unit) s := by
  simp only [Racing.playerReachCheckpoint, Racing.ref, bind_apply, gets_apply, hrace,
    orUndefined_some, pure_apply, when_false hstate]

theorem playerReachCheckpoint_absent (hrace : s.races.lookup k = some race)
    (hstate : race.racedata.state = .inProgress) (hinfo : race.racers.lookup p = none) :
    Racing.playerReachCheckpoint k p s = (raise (.runtimeError .notInTheRace) : Game Unit) s := by
  simp only [Racing.playerReachCheckpoint, Racing.ref, bind_apply, gets_apply, hrace, hinfo,
    orUndefined_some, orRaise_none, pure_apply, raise_apply, when_true hstate]

/-- The racer and the index that a track has. -/
theorem Server.racer_of_progress {i : ℤ} (hc : s.track k = some c) (hp : c.progress p = some i) :
    ∃ race info, s.races.lookup k = some race ∧ race.track s.samp.raceCheckpoint = c ∧
      race.racers.lookup p = some info ∧ info.currentcp = i := by
  obtain ⟨race, hrace, rfl⟩ := Server.track_eq_some.mp hc
  obtain ⟨info, hinfo, hi⟩ := Option.map_eq_some_iff.mp hp
  exact ⟨race, info, hrace, rfl, hinfo, hi⟩

/-- A racer moves on to a checkpoint that is there, and sees it. -/
theorem wp_reach_inner {i : ℤ} (hc : s.track k = some c) (hrunning : c.state = .inProgress)
    (hp : c.progress p = some i) (hinner : i + 1 ≠ c.checkpoints.length) :
    wp (Racing.playerReachCheckpoint k p)
      (fun _ t => ∃ shown, Displays c.type c.checkpoints (i + 1).toNat shown ∧
        t.track k = some (c.place p (i + 1) (some shown))) (fun _ _ => False) s := by
  obtain ⟨race, info, hrace, rfl, hinfo, rfl⟩ := Server.racer_of_progress hc hp
  have hindex : info.currentcp + 1 ≠ race.checkpoints.length := hinner
  rw [wp_of_eq (playerReachCheckpoint_running hrace hrunning hinfo), if_neg hindex]
  refine wp_mono (wp_showCheckpoint _) (fun _ t ht => ?_) (fun _ _ h => h.elim)
  obtain ⟨shown, trace, hshown, rfl⟩ := ht
  exact ⟨shown, hshown, Server.track_modifyRacer hc hp rfl fun _ heq => congrArg (· + 1) heq⟩

/-- A racer reaches the last checkpoint. -/
theorem wp_reach_last {i : ℤ} (hc : s.track k = some c) (hrunning : c.state = .inProgress)
    (hp : c.progress p = some i) (hlast : i + 1 = c.checkpoints.length) :
    wp (Racing.playerReachCheckpoint k p) (fun _ => Server.EndsOrStays k (c.place p (i + 1) none))
      (fun _ => Server.EndsOrStays k (c.place p (i + 1) none)) s := by
  obtain ⟨race, info, hrace, rfl, hinfo, rfl⟩ := Server.racer_of_progress hc hp
  have hindex : info.currentcp + 1 = race.checkpoints.length := hlast
  rw [wp_of_eq (playerReachCheckpoint_running hrace hrunning hinfo), if_pos hindex]
  exact wp_playerFinish (Server.track_modifyRacer hc hp rfl fun _ heq => congrArg (· + 1) heq) hrunning

theorem wp_playerReachCheckpoint_track (hc : s.track k = some c) :
    wp (Racing.playerReachCheckpoint k p) (fun _ => s.Moved k c (.playerReachCheckpoint p))
      (fun _ => s.Moved k c (.playerReachCheckpoint p)) s := by
  have hstays : s.Moved k c (.playerReachCheckpoint p) s := .stays (Or.inl rfl) hc
  obtain ⟨race, hrace, rfl⟩ := Server.track_eq_some.mp hc
  by_cases hrunning : race.racedata.state = .inProgress
  case neg =>
    rw [wp_of_eq (playerReachCheckpoint_idle hrace hrunning)]
    exact hstays
  cases hp : (race.track s.samp.raceCheckpoint).progress p with
  | none =>
    rw [wp_of_eq (playerReachCheckpoint_absent hrace hrunning (Option.map_eq_none_iff.mp hp))]
    exact hstays
  | some i =>
    by_cases hlast : i + 1 = (race.track s.samp.raceCheckpoint).checkpoints.length
    · have hended : ∀ t, Server.EndsOrStays k
          ((race.track s.samp.raceCheckpoint).place p (i + 1) none) t →
          s.Moved k (race.track s.samp.raceCheckpoint) (.playerReachCheckpoint p) t := by
        rintro t (hnone | ⟨display, ht, hkept⟩)
        · exact Or.inl hnone
        · refine Or.inr ⟨_, Or.inr ⟨hrunning, i, hp, ?_⟩, ht⟩
          rw [if_pos hlast]
          exact ⟨display, rfl, hkept⟩
      exact wp_mono (wp_reach_last hc hrunning hp hlast) (fun _ t ht => hended t ht)
        (fun _ t ht => hended t ht)
    · refine wp_mono (wp_reach_inner hc hrunning hp hlast) (fun _ t ht => ?_) (fun _ _ h => h.elim)
      obtain ⟨shown, hshown, ht⟩ := ht
      refine Or.inr ⟨_, Or.inr ⟨hrunning, i, hp, ?_⟩, ht⟩
      rw [if_neg hlast]
      exact ⟨shown, hshown, rfl⟩

/-! ### The start -/

/-- The race starts, and the racers in the list have been moved on. -/
structure Track.Underway (c : Track) (pre : List ℤ) (c' : Track) : Prop where
  same : c' = { c with state := .inProgress, progress := c'.progress, display := c'.display }
  before : ∀ p ∉ pre, c'.progress p = c.progress p
  after : ∀ p ∈ pre, c'.progress p = some 1 ∧
    ∃ shown, c'.display p = some shown ∧ Displays c.type c.checkpoints 1 shown

namespace Track.Underway
variable {c' : Track} {pre : List ℤ}

theorem begin (c : Track) : c.Underway [] { c with state := .inProgress } :=
  ⟨rfl, fun _ _ => rfl, fun _ hp => absurd hp List.not_mem_nil⟩

theorem state (h : c.Underway pre c') : c'.state = .inProgress := by rw [h.same]

theorem checkpoints (h : c.Underway pre c') : c'.checkpoints = c.checkpoints := by rw [h.same]

theorem type (h : c.Underway pre c') : c'.type = c.type := by rw [h.same]

/-- One racer more is moved on. -/
theorem place {shown : RaceCheckpoint} (h : c.Underway pre c')
    (hshown : Displays c.type c.checkpoints 1 shown) :
    c.Underway (pre ++ [p]) (c'.place p 1 (some shown)) := by
  have hsame := h.same
  refine ⟨?_, fun q hq => ?_, fun q hq => ?_⟩
  · rw [hsame]
    rfl
  · simp only [List.mem_append, List.mem_singleton, not_or] at hq
    simp only [Track.place, Function.update_of_ne hq.2]
    exact h.before q hq.1
  · by_cases hqp : q = p
    · subst hqp
      exact ⟨Function.update_self .., shown, Function.update_self .., hshown⟩
    · have hpre : q ∈ pre := by simpa [hqp] using hq
      simp only [Track.place, Function.update_of_ne hqp]
      exact h.after q hpre

theorem starts {keys : List ℤ} (h : c.Underway keys c') (hkeys : ∀ p, p ∈ keys ↔ (c.progress p).isSome) :
    c.Starts c' where
  same := h.same
  absent p hp := by
    have hout : p ∉ keys := fun hmem => by
      have hsome := (hkeys p).mp hmem
      simp [hp] at hsome
    rw [h.before p hout, hp]
  moved p hp := h.after p ((hkeys p).mpr hp)

end Track.Underway

/-- The racers whom the start still has to move on wait at the first checkpoint. -/
theorem Track.Sound.waits {c' : Track} {keys pre post : List ℤ} (hsound : c.Sound)
    (hready : c.state = .ready) (hkeys : ∀ p ∈ keys, (c.progress p).isSome) (hnodup : keys.Nodup)
    (has : keys = pre ++ p :: post) (h : c.Underway pre c') : c'.progress p = some 0 := by
  subst has
  have hnew : p ∉ pre := fun hmem => (List.nodup_append.mp hnodup).2.2 p hmem p (by simp) rfl
  obtain ⟨i, hi⟩ := Option.isSome_iff_exists.mp (hkeys p (by simp))
  rw [h.before p hnew, hi, hsound.waiting (by simp [hready]) p i hi]

theorem Racing.isSome_progress {display : ℤ → Option RaceCheckpoint} :
    p ∈ race.racers.keys ↔ ((race.track display).progress p).isSome := by
  rw [← AList.mem_keys, Map.mem_iff_lookup, Racing.track, Option.isSome_map, Option.isSome_iff_exists]

/-- One pass of the loop of `Racing::Start`. -/
def Racing.startRacer (k q : ℤ) : Game Unit := do
  sendClientMessage q .raceStarts
  Racing.playerReachCheckpoint k q
  native (.togglePlayerControllable q true)

/-- One pass of the start moves a racer on who waits at the first checkpoint. -/
theorem wp_startRacer {c' : Track} {pre : List ℤ} (hs : s.track k = some c') (h : c.Underway pre c')
    (hp : c'.progress p = some 0) (hlong : 2 ≤ c.checkpoints.length) :
    wp (Racing.startRacer k p) (fun _ t => ∃ c', c.Underway (pre ++ [p]) c' ∧ t.track k = some c')
      (fun _ _ => False) s := by
  have hinner : (0 : ℤ) + 1 ≠ c'.checkpoints.length := by
    rw [h.checkpoints]
    omega
  simp only [Racing.startRacer, sendClientMessage, native, emit, wp_bind, wp_modify]
  have hsent : ({ s with trace := .message p .raceStarts :: s.trace } : Server).track k = some c' := hs
  refine wp_mono (wp_reach_inner hsent h.state hp hinner) (fun _ t ht => ?_) (fun _ _ hf => hf)
  obtain ⟨shown, hshown, ht⟩ := ht
  rw [h.type, h.checkpoints] at hshown
  exact ⟨_, h.place hshown, ht⟩

/-- The end of `Racing::Start`. -/
def Racing.startClock (k : ℤ) : Game Unit := do
  let race ← Racing.ref k
  let now ← gets (·.env.time)
  Racing.modifyData k fun d => { d with start := now, waitingplayer := race.racers.keys.length }

theorem start_ready (hrace : s.races.lookup k = some race) (hstate : race.racedata.state = .ready) :
    Racing.start k s =
      (do forEach (Racing.startRacer k) race.racers.keys; Racing.startClock k : Game Unit)
      { s with races := s.races.adjust k fun race =>
        { race with racedata := { race.racedata with state := .inProgress } } } := by
  have hnot : ¬race.racedata.state ≠ .ready := not_not.mpr hstate
  simp only [Racing.start, Racing.ref, Racing.modifyData, Racing.modifyRace, bind_apply, gets_apply,
    hrace, orUndefined_some, pure_apply, raiseIf, if_neg hnot, modify_apply]
  rfl

/-- The start moves all the racers on. -/
theorem wp_startRacers {keys : List ℤ} (hs : s.track k = some { c with state := .inProgress })
    (hsound : c.Sound) (hready : c.state = .ready) (hkeys : ∀ p ∈ keys, (c.progress p).isSome)
    (hnodup : keys.Nodup) :
    wp (forEach (Racing.startRacer k) keys)
      (fun _ t => ∃ c', c.Underway keys c' ∧ t.track k = some c') (fun _ _ => False) s := by
  refine wp_forEach_visited (I := fun pre (t : Server) => ∃ c', c.Underway pre c' ∧ t.track k = some c')
    ⟨_, .begin c, hs⟩ fun pre q post has t ht => ?_
  obtain ⟨c', h, ht⟩ := ht
  exact wp_startRacer ht h (hsound.waits hready hkeys hnodup has h) (hsound.long (by simp [hready]))

theorem wp_start_track (hc : s.track k = some c) (hsound : c.Sound) (hready : c.state = .ready) :
    wp (Racing.start k) (fun _ t => ∃ c', c.Starts c' ∧ t.track k = some c') (fun _ _ => False) s := by
  obtain ⟨race, hrace, rfl⟩ := Server.track_eq_some.mp hc
  rw [wp_of_eq (start_ready hrace hready), wp_bind]
  have hbegun := Server.track_modifyData (fun d => { d with state := .inProgress }) hc
    fun _ _ => ⟨rfl, rfl⟩
  have hloop := wp_startRacers hbegun hsound hready (fun _ => Racing.isSome_progress.mp)
    race.racers.keys_nodup
  refine wp_mono hloop (fun _ t ⟨c', h, ht⟩ => ?_) (fun _ _ hf => hf)
  simp only [Racing.startClock, Racing.ref, Racing.modifyData, Racing.modifyRace, wp_bind, wp_gets,
    wp_orUndefined, wp_modify]
  intro r hr
  refine ⟨c', h.starts fun _ => Racing.isSome_progress, ?_⟩
  exact Server.track_modifyData (fun d => { d with
    start := t.env.time, waitingplayer := r.racers.keys.length }) ht fun _ hd => ⟨hd, rfl⟩

theorem wp_countDown_track (hc : s.track k = some c) (hsound : c.Sound) :
    wp (Racing.countDown k) (fun _ => s.Moved k c .countDown) (fun _ => s.Moved k c .countDown) s := by
  have hstays : ∀ t : Server, t.track k = some c → s.Moved k c .countDown t :=
    fun t ht => Or.inr ⟨c, Or.inl rfl, ht⟩
  obtain ⟨race, hrace, htrack⟩ := Server.track_eq_some.mp hc
  simp only [Racing.countDown, Racing.ref, wp_bind, wp_gets, wp_orUndefined, wp_raiseIf, wp_ite]
  intro r hr
  obtain rfl : race = r := Option.some.inj (hrace.symm.trans hr)
  split
  case isTrue => exact hstays s hc
  case isFalse hready =>
  have hready : c.state = .ready := (congrArg Track.state htrack).symm.trans (not_not.mp hready)
  split
  case isTrue =>
    have hstarted : ∀ t : Server, t.track k = some c → wp (do
        Racing.modifyData k fun d => { d with countdowntimerid := 0 }
        Racing.start k : Game Unit) (fun _ => s.Moved k c .countDown)
        (fun _ => s.Moved k c .countDown) t := by
      intro t ht
      have hstopped := Server.track_modifyData (fun d => { d with countdowntimerid := 0 }) ht
        fun _ hd => ⟨hd, rfl⟩
      rw [wp_bind, Racing.modifyData, Racing.modifyRace, wp_modify]
      refine wp_mono (wp_start_track hstopped hsound hready) (fun _ u hu => ?_) (fun _ _ hf => hf.elim)
      obtain ⟨c', hstarts, hu⟩ := hu
      exact Or.inr ⟨c', Or.inr ⟨hready, hstarts⟩, hu⟩
    rw [wp_when]
    split
    · simp only [destroyTimer, emit, wp_bind, wp_modify]
      exact hstarted _ hc
    · exact hstarted s hc
  case isFalse =>
    have hloop : wp (forEach (fun q => sendClientMessage q (.raceCountDown race.racedata.countdown))
        race.racers.keys : Game Unit) (fun _ t => t.track k = some c) (fun _ _ => False) s :=
      wp_forEach _ hc fun q _ t ht => ht
    refine wp_mono hloop (fun _ t ht => hstays _ ?_) (fun _ _ hf => hf.elim)
    exact Server.track_modifyData (fun d => { d with countdown := d.countdown - 1 }) ht
      fun _ hd => ⟨hd, rfl⟩

/-! ### The other operations -/

/-- A method of a race stores the race back on the track it leads to. -/
theorem wp_withRace_track {op : RaceOp} {x : Method Racing Unit} (hc : s.track k = some c)
    (hx : ∀ race, s.races.lookup k = some race → race.track s.samp.raceCheckpoint = c →
      wp x (fun _ q => op.Moves s k c (q.1.track q.2.samp.raceCheckpoint))
        (fun _ q => op.Moves s k c (q.1.track q.2.samp.raceCheckpoint)) (race, s)) :
    wp (Racing.withRace k x) (fun _ => s.Moved k c op) (fun _ => s.Moved k c op) s := by
  obtain ⟨race, hrace, htrack⟩ := Server.track_eq_some.mp hc
  rw [Racing.withRace, wp_focus]
  intro r hr
  obtain rfl : race = r := Option.some.inj (hrace.symm.trans hr)
  have hput : ∀ q : Racing × Server, op.Moves s k c (q.1.track q.2.samp.raceCheckpoint) →
      s.Moved k c op { q.2 with races := q.2.races.adjust k fun _ => q.1 } := by
    intro q hq
    cases hlookup : q.2.races.lookup k with
    | none => exact Or.inl (by simp [Server.track, hlookup])
    | some r => exact Or.inr ⟨_, hq, Server.track_eq_some.mpr ⟨q.1, by simp [hlookup], rfl⟩⟩
  exact wp_mono (hx race hrace htrack) (fun _ q hq => hput q hq) (fun _ q hq => hput q hq)

theorem wp_appendCheckpoint_track {pos : Coordinate3D} (hc : s.track k = some c) :
    wp (Racing.withRace k (Racing.appendCheckpoint pos))
      (fun _ => s.Moved k c (.appendCheckpoint pos)) (fun _ => s.Moved k c (.appendCheckpoint pos)) s := by
  refine wp_withRace_track hc fun race _ htrack => ?_
  subst htrack
  rw [Racing.appendCheckpoint, wp_bind, wp_self, wp_bind, wp_raiseIf]
  split
  case isTrue => exact Or.inl rfl
  case isFalse hbuilding => exact Or.inr ⟨not_not.mp hbuilding, rfl⟩

theorem Kind.raceCheckpoint_eq {j : Kind} {a b : Server} (hab : j.change a b)
    (hj : j ∈ [Kind.output, .database, .insert .racing]) :
    b.samp.raceCheckpoint = a.samp.raceCheckpoint := by
  simp only [List.mem_cons, List.not_mem_nil, or_false] at hj
  rcases hj with rfl | rfl | rfl
  · obtain ⟨_, -, rfl⟩ := hab
    rfl
  · obtain ⟨_, rfl⟩ := hab
    rfl
  · obtain ⟨_, -, rfl⟩ := hab
    rfl

theorem wp_create_track (hc : s.track k = some c) : wp (Racing.withRace k Racing.create)
    (fun _ => s.Moved k c .create) (fun _ => s.Moved k c .create) s := by
  refine wp_withRace_track hc fun race _ htrack => ?_
  subst htrack
  simp only [Racing.create, wp_bind, wp_self, wp_raiseIf]
  split
  case isTrue => exact Or.inl rfl
  case isFalse hbuilding =>
  split
  case isTrue => exact Or.inl rfl
  case isFalse hlong =>
  simp only [wp_shared, wp_gets, genOID, wp_bind, wp_modify, wp_pure, wp_part, wp_assign]
  have hitem : MethodStays [.output, .database, .insert .racing] (SaveableItem.create .racing
      (Racing.document (s.env.genoid s.genoids).val (s.platform.gbkToUTF8 race.raceinfo.name)
        race.raceinfo.creator race.raceinfo.type race.checkpoints) false) := inferInstance
  have hdisplay : ∀ {p q : SaveableItem × Server}, Path (methodChange Kind.change)
      (none :: [Kind.output, .database, .insert .racing].map some) p q →
      q.2.samp.raceCheckpoint = p.2.samp.raceCheckpoint := fun hpath =>
    @Path.view_eq _ _ _ _ _ _ _ (fun u : Server => u.samp.raceCheckpoint)
      (fun j hj _ _ hab => Kind.raceCheckpoint_eq hab hj) (path_of_methodPath hpath)
  refine wp_mono (hitem.path _) (fun _ q hq => ?_) (fun _ q hq => ?_)
  · have hsame := hdisplay hq
    refine Or.inr ⟨not_not.mp hbuilding, not_lt.mp hlong, ?_⟩
    rw [hsame]
    rfl
  · have hsame := hdisplay hq
    rw [hsame]
    exact Or.inl rfl

theorem wp_quit_track (hc : s.track k = some c) :
    wp (Racing.quit k p) (fun _ => s.Moved k c (.quit p)) (fun _ => s.Moved k c (.quit p)) s := by
  simp only [Racing.quit, Racing.ref, Racing.modifyData, Racing.modifyRace, Profile.delRaceJoined,
    Profile.modifyRace, disablePlayerRaceCheckpoint, emit, wp_bind, wp_gets, wp_orUndefined,
    wp_raiseIf, wp_modify]
  intro race hrace
  split
  case isTrue => exact .stays (Or.inl rfl) hc
  case isFalse =>
  refine Or.inr ⟨_, Or.inr rfl, ?_⟩
  refine Server.track_adjust hc (Map.adjust_adjust ..) fun r _ hr => ?_
  subst hr
  simp only [Racing.track, Track.mk.injEq, true_and, and_true]
  funext q
  rw [Map.lookup_erase_ite, Function.update_apply]
  split <;> rfl

theorem wp_ready_track (hc : s.track k = some c) :
    wp (Racing.ready k) (fun _ => s.Moved k c .ready) (fun _ => s.Moved k c .ready) s := by
  obtain ⟨race, hrace, htrack⟩ := Server.track_eq_some.mp hc
  simp only [Racing.ready, Racing.ref, wp_bind, wp_gets, wp_orUndefined, wp_raiseIf]
  intro r hr
  obtain rfl : race = r := Option.some.inj (hrace.symm.trans hr)
  split
  case isTrue => exact .stays (Or.inl rfl) hc
  case isFalse hjoining =>
  have hjoining : c.state = .joining :=
    (congrArg Track.state htrack).symm.trans (not_not.mp hjoining)
  have hloop : wp (forEach (fun q => do
      sendClientMessage q .raceCountDownBegins
      native (.togglePlayerControllable q false)) race.racers.keys : Game Unit)
      (fun _ t => t.track k = some c) (fun _ _ => False) s :=
    wp_forEach _ hc fun q _ t ht => ht
  refine wp_mono hloop (fun _ t ht => ?_) (fun _ _ h => h.elim)
  simp only [createTimer, emit, Racing.modifyData, Racing.modifyRace, wp_bind, wp_gets, wp_modify,
    wp_pure]
  refine Or.inr ⟨_, Or.inr ⟨hjoining, rfl⟩, ?_⟩
  exact Server.track_modifyData (fun d => { d with countdowntimerid := t.nexthandle, state := .ready })
    ht fun _ _ => ⟨rfl, rfl⟩

/-- What a new racer sees is the first checkpoint, if the second one has its height. -/
theorem Racing.displays_startDisplay {startcp nextcp : Coordinate3D} (hlong : 2 ≤ race.checkpoints.length)
    (hstart : race.checkpoints[0]? = some startcp) (hnext : race.checkpoints[1]? = some nextcp)
    (hlevel : startcp.z = nextcp.z) :
    Displays race.raceinfo.type race.checkpoints 0 (race.startDisplay startcp nextcp) where
  pos := by
    rw [hstart, Racing.startDisplay, ← hlevel]
  next next h := Option.some.inj (hnext.symm.trans h)
  air := race.checkpointType_air false
  finish := by
    rw [Racing.startDisplay, race.checkpointType_finish]
    exact iff_of_false Bool.false_ne_true (by omega)

/-- A player who is entered is put at the first checkpoint. -/
theorem Racing.track_insertRacer {display : ℤ → Option RaceCheckpoint} {shown : Option RaceCheckpoint}
    (hwaiting : ∀ info, race.racers.lookup p = some info → info.currentcp = 0) :
    (race.insertRacer p).track (Function.update display p shown) =
      (race.track display).place p 0 shown := by
  have hprogress : (fun q => ((race.insertRacer p).racers.lookup q).map (·.currentcp)) =
      Function.update (race.track display).progress p (some 0) := by
    funext q
    rw [Function.update_apply]
    by_cases hq : q = p
    · subst hq
      cases hlookup : race.racers.lookup q with
      | none => simp [Racing.insertRacer, ← AList.lookup_isSome, hlookup]
      | some info => simp [Racing.insertRacer, ← AList.lookup_isSome, hlookup, hwaiting info hlookup]
    · rw [if_neg hq, Racing.insertRacer]
      split
      · rfl
      · simp [AList.lookup_insert_ne hq, Racing.track]
  obtain ⟨hdata, hinfo, hcps⟩ : (race.insertRacer p).racedata = race.racedata ∧
      (race.insertRacer p).raceinfo = race.raceinfo ∧
      (race.insertRacer p).checkpoints = race.checkpoints := by
    unfold Racing.insertRacer
    split <;> exact ⟨rfl, rfl, rfl⟩
  rw [Racing.track, hprogress, hdata, hinfo, hcps]
  rfl

theorem wp_join_track (hc : s.track k = some c) (hsound : c.Sound) :
    wp (Racing.withRace k (Racing.join p)) (fun _ => s.Moved k c (.join p))
      (fun _ => s.Moved k c (.join p)) s := by
  refine wp_withRace_track hc fun race hrace htrack => ?_
  subst htrack
  have hwaiting : race.Admits s p → ∀ info, race.racers.lookup p = some info → info.currentcp = 0 := by
    intro hadmits info hinfo
    have hstate : race.racedata.state ≠ .inProgress := by simp [hadmits.state]
    exact hsound.waiting hstate p _ (by simp [Racing.track, hinfo])
  refine wp_mono wp_join (fun _ q hq => ?_) (fun _ q hq => ?_)
  · obtain ⟨startcp, nextcp, trace, hstart, hnext, hserver⟩ := hq.shown
    have hlong : 2 ≤ race.checkpoints.length := (List.getElem?_eq_some_iff.mp hnext).1
    refine Or.inr ⟨hq.admits.state, ⟨race, hrace, hq.admits⟩,
      some (race.startDisplay startcp nextcp), ?_, fun _ => ⟨startcp, nextcp, hstart, hnext, _, rfl,
        race.displays_startDisplay hlong hstart hnext⟩⟩
    rw [hq.entered, hserver]
    exact Racing.track_insertRacer (hwaiting hq.admits)
  · rcases hq with rfl | hq
    · exact Or.inl rfl
    refine Or.inr ⟨hq.admits.state, ⟨race, hrace, hq.admits⟩, s.samp.raceCheckpoint p, ?_,
      fun hconfigured => ?_⟩
    · rw [hq.entered, hq.samp, ← Racing.track_insertRacer (hwaiting hq.admits),
        Function.update_eq_self]
    · exact absurd (hconfigured.symm.trans hq.unconfigured) (by simp)

/-- A call moves the race along, whether it throws or not. -/
theorem wp_run_track {op : RaceOp} (hc : s.track k = some c) (hsound : c.Sound) :
    wp (op.run k) (fun _ => s.Moved k c op) (fun _ => s.Moved k c op) s := by
  obtain ⟨race, hrace, -⟩ := Server.track_eq_some.mp hc
  rw [RaceOp.run.eq_def, wp_bind, racingMgr, wp_bind, wp_gets, hrace, getItem, orRaise_some, wp_pure]
  cases op with
  | appendCheckpoint pos => exact wp_appendCheckpoint_track hc
  | create => exact wp_create_track hc
  | join p =>
    simp only [profileMgr, getItem, wp_bind, wp_gets, wp_orRaise]
    exact ⟨fun _ _ => wp_join_track hc hsound, fun _ => .stays (Or.inl rfl) hc⟩
  | quit p =>
    simp only [profileMgr, getItem, wp_bind, wp_gets, wp_orRaise]
    exact ⟨fun _ _ => wp_quit_track hc, fun _ => .stays (Or.inl rfl) hc⟩
  | ready => exact wp_ready_track hc
  | countDown => exact wp_countDown_track hc hsound
  | playerReachCheckpoint p => exact wp_playerReachCheckpoint_track hc

end Operations

/-! ## Accesses in range -/

section Defined
set_option synthInstance.maxSize 1000
variable {s : Server} {k p : ℤ} {c : Track} {race : Racing}

instance : Total (Profile.delRaceJoined p) := total_modify _

instance {g : Profile → Option ℤ} : Total (Profile.modifyRace p g) := total_modify _

instance {n : ℤ} : Total (Profile.setRaceJoined p n) := total_bind

instance : Total (racingMgr k) := total_bind

instance {g : Racing → Racing} : Total (Racing.modifyRace k g) := total_modify _

instance {g : RaceData → RaceData} : Total (Racing.modifyData k g) := total_modify _

instance {g : RacerInfo → RacerInfo} : Total (Racing.modifyRacer k p g) := total_modify _

instance : Total race.destruct := by unfold Racing.destruct; infer_instance

instance : Total (Racing.mgrRemove k) := by unfold Racing.mgrRemove; infer_instance

/-- A reference to a race that is registered. -/
theorem defined_ref {α : Type} {f : Racing → Game α} (hrace : s.races.lookup k = some race) :
    Defined (Racing.ref k >>= f) s ↔ Defined (f race) s := by
  have href : Racing.ref k s = .ok race s := by simp [Racing.ref, bind_apply, hrace]
  exact defined_of_eq (bind_ok _ href)

/-- `ProfileMgr[p]` throws if there is no such profile. -/
theorem defined_profileMgr {α : Type} {f : Profile → Game α} : Defined (profileMgr p >>= f) s ↔
    ∀ pr, s.profiles.lookup p = some pr → Defined (f pr) s := by
  rw [Total.wp_defined, profileMgr, wp_bind, wp_gets, getItem, wp_orRaise]
  exact and_iff_left fun _ => trivial

/-- So does `RacingMgr[k]` if there is no such race. -/
theorem defined_racingMgr {α : Type} {f : Racing → Game α} : Defined (racingMgr k >>= f) s ↔
    ∀ race, s.races.lookup k = some race → Defined (f race) s := by
  rw [Total.wp_defined, racingMgr, wp_bind, wp_gets, getItem, wp_orRaise]
  exact and_iff_left fun _ => trivial

theorem defined_quit (hrace : s.races.lookup k = some race) : Defined (Racing.quit k p) s := by
  rw [Racing.quit, defined_ref hrace]
  exact Total.defined s

theorem defined_ready (hrace : s.races.lookup k = some race) : Defined (Racing.ready k) s := by
  rw [Racing.ready, defined_ref hrace]
  exact Total.defined s

theorem defined_finish (hk : k ∈ s.races) : Defined (Racing.finish k) s := by
  obtain ⟨race, hrace⟩ := Map.mem_iff_lookup.mp hk
  rw [Racing.finish, defined_ref hrace]
  exact Total.defined s

theorem defined_playerFinish {info : RacerInfo} (hrace : s.races.lookup k = some race)
    (hinfo : race.racers.lookup p = some info) : Defined (Racing.playerFinish k p) s := by
  rw [Racing.playerFinish, defined_ref hrace, defined_when, hinfo]
  intro _
  simp only [Racing.modifyData, Racing.modifyRacer, Racing.modifyRace, disablePlayerRaceCheckpoint,
    sendClientMessage, emit, orUndefined_some, defined_bind, defined_pure, defined_gets,
    defined_modify, defined_when, wp_bind, wp_pure, wp_gets, wp_modify, true_and]
  have hk : k ∈ s.races := Map.mem_iff_lookup.mpr ⟨race, hrace⟩
  exact fun _ => defined_finish (by simpa using hk)

/-- The checkpoint at an index is shown if it is there, and the one after it too unless it is
the last. -/
theorem defined_showCheckpoint {i : ℕ} :
    Defined (race.showCheckpoint p i) s ↔ i < race.checkpoints.length := by
  simp only [Racing.showCheckpoint, defined_bind, defined_orUndefined, wp_orUndefined, defined_ite]
  constructor
  · rintro ⟨⟨cp, hcp⟩, -⟩
    exact (List.getElem?_eq_some_iff.mp hcp).1
  · intro hi
    refine ⟨⟨_, List.getElem?_eq_getElem hi⟩, fun cp _ => ?_⟩
    split
    case isTrue => exact Total.defined s
    case isFalse hinner =>
      have hnext : i + 1 < race.checkpoints.length := by omega
      exact ⟨⟨_, List.getElem?_eq_getElem hnext⟩, fun next _ => Total.defined s⟩

/-- Reaching a checkpoint is defined unless the racer is past the last one already. -/
theorem defined_playerReachCheckpoint (hc : s.track k = some c)
    (hwithin : ∀ i, c.progress p = some i → 0 ≤ i ∧ i ≤ c.checkpoints.length) :
    Defined (Racing.playerReachCheckpoint k p) s ↔
      (c.state = .inProgress → ∀ i, c.progress p = some i → i < c.checkpoints.length) := by
  obtain ⟨race, hrace, rfl⟩ := Server.track_eq_some.mp hc
  by_cases hrunning : race.racedata.state = .inProgress
  case neg =>
    rw [defined_of_eq (playerReachCheckpoint_idle hrace hrunning)]
    exact iff_of_true (defined_pure ()) fun h => absurd h hrunning
  cases hinfo : race.racers.lookup p with
  | none =>
    rw [defined_of_eq (playerReachCheckpoint_absent hrace hrunning hinfo)]
    exact iff_of_true (defined_raise _) fun _ i hi => by simp [Racing.track, hinfo] at hi
  | some info =>
    have hp : (race.track s.samp.raceCheckpoint).progress p = some info.currentcp := by
      simp [Racing.track, hinfo]
    have hindex : 0 ≤ info.currentcp ∧ info.currentcp ≤ race.checkpoints.length :=
      hwithin _ hp
    have hlt : (race.racedata.state = .inProgress → ∀ i,
        (race.track s.samp.raceCheckpoint).progress p = some i → i < race.checkpoints.length) ↔
        info.currentcp < race.checkpoints.length := by
      rw [hp]
      exact ⟨fun h => h hrunning _ rfl, fun h _ i hi => Option.some.inj hi ▸ h⟩
    rw [defined_of_eq (playerReachCheckpoint_running hrace hrunning hinfo)]
    refine Iff.trans ?_ hlt.symm
    split
    case isTrue hlast =>
      refine iff_of_true ?_ (by omega)
      have hmoved := Map.lookup_adjust_self hinfo fun info =>
        { info with currentcp := info.currentcp + 1 }
      exact defined_playerFinish (Map.lookup_adjust_self hrace _) hmoved
    case isFalse hinner =>
      rw [defined_showCheckpoint]
      omega

theorem defined_startRacers {keys : List ℤ} (hs : s.track k = some { c with state := .inProgress })
    (hsound : c.Sound) (hready : c.state = .ready) (hkeys : ∀ p ∈ keys, (c.progress p).isSome)
    (hnodup : keys.Nodup) : Defined (forEach (Racing.startRacer k) keys) s := by
  refine defined_forEach (I := fun pre t => ∃ c', c.Underway pre c' ∧ t.track k = some c')
    ⟨_, .begin c, hs⟩ fun pre q post has t ht => ?_
  obtain ⟨c', h, ht⟩ := ht
  have hlong : 2 ≤ c.checkpoints.length := hsound.long (by simp [hready])
  have hq : c'.progress q = some 0 := hsound.waits hready hkeys hnodup has h
  have hzero : ∀ i, c'.progress q = some i → i = 0 := by
    intro i hi
    rw [hq] at hi
    exact (Option.some.inj hi).symm
  have hlater := wp_startRacer ht h hq hlong
  refine ⟨?_, wp_mono hlater (fun _ _ hu => hu) (fun _ _ hf => hf.elim)⟩
  have hsent : ({ t with trace := .message q .raceStarts :: t.trace } : Server).track k = some c' := ht
  have hreach : Defined (Racing.playerReachCheckpoint k q)
      { t with trace := .message q .raceStarts :: t.trace } := by
    refine (defined_playerReachCheckpoint hsent fun i hi => ?_).mpr fun _ i hi => ?_
    · rw [hzero i hi]
      omega
    · rw [hzero i hi, h.checkpoints]
      omega
  simp only [Racing.startRacer, sendClientMessage, native, emit, defined_bind, defined_modify,
    wp_modify, wp_true, and_true, true_and]
  exact hreach

/-- A race that is ready starts without an access out of range. -/
theorem defined_start (hc : s.track k = some c) (hsound : c.Sound) (hready : c.state = .ready) :
    Defined (Racing.start k) s := by
  obtain ⟨race, hrace, rfl⟩ := Server.track_eq_some.mp hc
  have hbegun := Server.track_modifyData (fun d => { d with state := .inProgress }) hc
    fun _ _ => ⟨rfl, rfl⟩
  have hkeys : ∀ p ∈ race.racers.keys, ((race.track s.samp.raceCheckpoint).progress p).isSome :=
    fun _ => Racing.isSome_progress.mp
  rw [defined_of_eq (start_ready hrace hready), defined_bind]
  refine ⟨defined_startRacers hbegun hsound hready hkeys race.racers.keys_nodup, ?_⟩
  have hloop := wp_startRacers hbegun hsound hready hkeys race.racers.keys_nodup
  refine wp_mono hloop (fun _ t ht => ?_) (fun _ _ _ => trivial)
  obtain ⟨c', -, ht⟩ := ht
  obtain ⟨r, hr, -⟩ := Server.track_eq_some.mp ht
  rw [Racing.startClock, defined_ref hr]
  exact Total.defined t

theorem defined_countDown (hc : s.track k = some c) (hsound : c.Sound) :
    Defined (Racing.countDown k) s := by
  obtain ⟨race, hrace, htrack⟩ := Server.track_eq_some.mp hc
  rw [Racing.countDown, defined_ref hrace, Total.wp_defined, wp_raiseIf]
  split
  case isTrue => trivial
  case isFalse hready =>
  have hready : c.state = .ready := (congrArg Track.state htrack).symm.trans (not_not.mp hready)
  rw [defined_ite]
  split
  case isFalse => exact Total.defined s
  case isTrue =>
  have hstarted : ∀ t : Server, t.track k = some c → Defined (do
      Racing.modifyData k fun d => { d with countdowntimerid := 0 }
      Racing.start k : Game Unit) t := by
    intro t ht
    rw [Total.wp_defined, Racing.modifyData, Racing.modifyRace, wp_modify]
    have hstopped := Server.track_modifyData (fun d => { d with countdowntimerid := 0 }) ht
      fun _ hd => ⟨hd, rfl⟩
    exact defined_start hstopped hsound hready
  rw [Total.wp_defined, wp_when]
  split
  · simp only [destroyTimer, emit, wp_bind, wp_modify]
    exact hstarted _ hc
  · exact hstarted s hc

/-- A player with a profile who joins finds the first two checkpoints. -/
theorem defined_join {pr : Profile} (hc : s.track k = some c) (hsound : c.Sound)
    (hpr : s.profiles.lookup p = some pr) : Defined (Racing.withRace k (Racing.join p)) s := by
  obtain ⟨race, hrace, rfl⟩ := Server.track_eq_some.mp hc
  rw [Racing.withRace, defined_focus]
  refine ⟨race, hrace, ?_⟩
  rw [Racing.join, Total.wp_defined, wp_self, Total.wp_defined, wp_raiseIf]
  split
  case isTrue => trivial
  case isFalse hstate =>
  have hjoining : race.racedata.state = .joining := not_not.mp hstate
  have hlong : 2 ≤ race.checkpoints.length := hsound.long (by simp [Racing.track, hjoining])
  have hstart := List.getElem?_eq_getElem (i := 0) (l := race.checkpoints) (by omega)
  have hnext := List.getElem?_eq_getElem (i := 1) (l := race.checkpoints) (by omega)
  rw [defined_bind]
  refine ⟨by simp [Profile.hasVar, Profile.ref, hpr], ?_⟩
  simp only [wp_shared, Profile.hasVar, Profile.ref, wp_bind, wp_gets, hpr, orUndefined_some, wp_pure,
    hstart, hnext]
  exact Total.defined _

/-- The index of the racer who reaches a checkpoint is in range, so that it can be counted up. -/
def RaceOp.inRange (k : ℤ) (s : Server) : RaceOp → Prop
  | playerReachCheckpoint p => ∀ race info, s.races.lookup k = some race →
      race.racedata.state = .inProgress → race.racers.lookup p = some info →
      info.currentcp < race.checkpoints.length
  | _ => True

/-- A call on a registered race is defined exactly if the racer's index is in range. -/
theorem defined_run {op : RaceOp} (hc : s.track k = some c) (hsound : c.Sound) :
    Defined (op.run k) s ↔ op.inRange k s := by
  obtain ⟨race, hrace, htrack⟩ := Server.track_eq_some.mp hc
  rw [RaceOp.run.eq_def, defined_racingMgr]
  simp only [hrace, Option.some.injEq, forall_eq']
  cases op with
  | appendCheckpoint pos =>
    refine iff_of_true ((defined_focus ..).mpr ⟨race, hrace, ?_⟩) trivial
    unfold Racing.appendCheckpoint
    exact Total.defined _
  | create =>
    refine iff_of_true ((defined_focus ..).mpr ⟨race, hrace, ?_⟩) trivial
    unfold Racing.create
    exact Total.defined _
  | join p => exact iff_of_true (defined_profileMgr.mpr fun _ hpr => defined_join hc hsound hpr) trivial
  | quit p => exact iff_of_true (defined_profileMgr.mpr fun _ _ => defined_quit hrace) trivial
  | ready => exact iff_of_true (defined_ready hrace) trivial
  | countDown => exact iff_of_true (defined_countDown hc hsound) trivial
  | playerReachCheckpoint p =>
    refine (defined_playerReachCheckpoint hc (hsound.within p)).trans ?_
    subst htrack
    constructor
    · intro h r info hr hrunning hinfo
      obtain rfl : race = r := Option.some.inj (hrace.symm.trans hr)
      exact h hrunning _ (by simp [Racing.track, hinfo])
    · intro h hrunning i hi
      obtain ⟨info, hinfo, rfl⟩ := Option.map_eq_some_iff.mp hi
      exact h race info hrace hrunning hinfo

/-- The race is sound, or gone. -/
def SoundRace (k : ℤ) (s : Server) : Prop := ∀ c, s.track k = some c → c.Sound

theorem isSome_step_iff {i : RaceOp × Env} (hs : SoundRace k s) :
    (RaceOp.step k s i).isSome ↔ i.1.inRange k s := by
  cases hc : (s.begin i.2).track k with
  | some c => exact defined_run hc (hs c hc)
  | none =>
    have hrace : s.races.lookup k = none := Option.map_eq_none_iff.mp hc
    obtain ⟨op, env⟩ := i
    refine iff_of_true ?_ ?_
    · have hgone : Defined (op.run k) (s.begin env) := by
        rw [RaceOp.run.eq_def, defined_racingMgr]
        exact fun race hr => absurd (hrace.symm.trans hr) (by simp)
      exact hgone
    · cases op with
      | playerReachCheckpoint p => exact fun race info hr => absurd (hrace.symm.trans hr) (by simp)
      | _ => trivial

end Defined

/-! ## Runs -/

section Runs
variable {s t : Server} {k : ℤ} {i : RaceOp × Env}

/-- A race that is there after a step was moved by it. -/
theorem moves_of_step {c' : Track} (hs : SoundRace k s) (hstep : RaceOp.step k s i = some t)
    (hc' : t.track k = some c') : ∃ c, s.track k = some c ∧ i.1.Moves (s.begin i.2) k c c' := by
  cases hc : s.track k with
  | none =>
    have hgone : (s.begin i.2).course k = none :=
      Option.map_eq_none_iff.mpr (Option.map_eq_none_iff.mp hc)
    have ht : t = s.begin i.2 := state_of_wp (P := fun t => t = s.begin i.2)
      (wp_mono (wp_run_gone hgone) (fun _ _ hf => hf.elim) fun _ _ h => h) hstep
    have hnone : t.track k = none := by
      rw [ht]
      exact hc
    exact absurd (hnone.symm.trans hc') (by simp)
  | some c =>
    have hmoved := state_of_wp (wp_run_track (s := s.begin i.2) hc (hs c hc)) hstep
    rcases hmoved with hnone | ⟨d, hd, ht⟩
    · exact absurd (hnone.symm.trans hc') (by simp)
    · obtain rfl : d = c' := Option.some.inj (ht.symm.trans hc')
      exact ⟨c, rfl, hd⟩

theorem SoundRace.step (hs : SoundRace k s) (hstep : RaceOp.step k s i = some t) : SoundRace k t := by
  intro c' hc'
  obtain ⟨c, hc, hmoves⟩ := moves_of_step hs hstep hc'
  exact (hs c hc).moves hmoves

/-- A race as the constructors make it, unless it is open with too few checkpoints. -/
theorem Racing.New.sound {race : Racing} (hrace : s.races.lookup k = some race) (hnew : race.New)
    (hlong : race.racedata.state ≠ .building → 2 ≤ race.checkpoints.length) : SoundRace k s := by
  rintro c hc
  obtain ⟨r, hr, rfl⟩ := Server.track_eq_some.mp hc
  obtain rfl : race = r := Option.some.inj (hrace.symm.trans hr)
  have hnone : ∀ p, (race.track s.samp.raceCheckpoint).progress p = none := by
    simp [Racing.track, hnew.racers]
  exact ⟨hlong, fun _ => hnone, fun _ p i hi => by simp [hnone] at hi, fun p i hi => by simp [hnone] at hi⟩

/-- A run of calls on a race accesses its checkpoints within their range exactly if no racer who
has passed the last one reaches a checkpoint again. -/
theorem accesses_in_range_iff (race : Racing) (ops : List (RaceOp × Env))
    (hrace : s.races.lookup k = some race) (hnew : race.New)
    (hlong : race.racedata.state ≠ .building → 2 ≤ race.checkpoints.length) :
    (final (RaceOp.step k) s ops).isSome ↔
      Guarded (RaceOp.step k) (fun s i => i.1.inRange k s) s ops :=
  isSome_final_iff_guarded (I := SoundRace k) (fun _ _ hs => isSome_step_iff hs)
    (fun _ _ _ hs hstep => hs.step hstep) (hnew.sound hrace hlong) ops

namespace Demo

/-- Two racers, and the first of them is told of the last checkpoint twice. -/
def finishTwice : List RaceOp :=
  [.appendCheckpoint ⟨0, 0, 0⟩, .appendCheckpoint ⟨1, 0, 0⟩, .create, .join 0, .join 1, .ready,
    .countDown, .countDown, .countDown, .countDown, .countDown, .countDown,
    .playerReachCheckpoint 1, .playerReachCheckpoint 1]

end Demo

theorem accesses_in_range_track :
    (final (RaceOp.step 0) Demo.course (Demo.raceOps.map fun op => (op, Demo.env))).isSome ↔
      Guarded (RaceOp.step 0) (fun s i => i.1.inRange 0 s) Demo.course
        (Demo.raceOps.map fun op => (op, Demo.env)) :=
  accesses_in_range_iff Demo.track _ rfl ⟨Or.inl rfl, rfl, rfl, rfl⟩ fun h => absurd rfl h

/-- A racer who is told of a checkpoint after the last one while another still races. -/
theorem access_past_the_end :
    ¬∀ ops : List (RaceOp × Env), (final (RaceOp.step 0) Demo.course ops).isSome := by
  intro h
  have hend : (final (RaceOp.step 0) Demo.course
      (Demo.finishTwice.map fun op => (op, Demo.env))).isSome = false := by decide +kernel
  rw [h] at hend
  cases hend

/-! ## What the racers see -/

/-- Every racer who has not finished sees the checkpoint at their index. -/
def Track.Shows (c : Track) : Prop :=
  ∀ p i, c.progress p = some i → i < c.checkpoints.length →
    ∃ shown, c.display p = some shown ∧ Displays c.type c.checkpoints i.toNat shown

/-- The same, said of the race and of what SA-MP has on display. -/
def RacersSee (k : ℤ) (s : Server) : Prop :=
  ∀ race p info, s.races.lookup k = some race → race.racers.lookup p = some info →
    info.currentcp < race.checkpoints.length →
    ∃ shown, s.samp.raceCheckpoint p = some shown ∧
      Displays race.raceinfo.type race.checkpoints info.currentcp.toNat shown

/-- A player who is taken in finds a place to start from, and the first two checkpoints at
one height. -/
def RaceOp.showsStart (k : ℤ) (s : Server) : RaceOp → Prop
  | join p => s.Admits k p → s.config.collection .waypoint = true ∧
      ∀ race startcp nextcp, s.races.lookup k = some race → race.checkpoints[0]? = some startcp →
        race.checkpoints[1]? = some nextcp → startcp.z = nextcp.z
  | _ => True

theorem RaceOp.showsStart.begin {op : RaceOp} (h : op.showsStart k s) (env : Env) :
    op.showsStart k (s.begin env) := by
  cases op with
  | join p =>
    rintro ⟨race, hrace, hadmits⟩
    exact h ⟨race, hrace, hadmits.state, hadmits.free⟩
  | _ => trivial

namespace Track
variable {c c' : Track} {op : RaceOp} {p i : ℤ}

/-- The racer who moves sees the new checkpoint, and the others go on seeing theirs. -/
theorem Shows.place {shown : Option RaceCheckpoint} (hc : c.Shows)
    (hshown : i < c.checkpoints.length →
      ∃ cp, shown = some cp ∧ Displays c.type c.checkpoints i.toNat cp) :
    (c.place p i shown).Shows := by
  intro q j hj hlt
  by_cases hq : q = p
  · subst hq
    simp only [Track.place, Function.update_self] at hj ⊢
    obtain rfl : i = j := Option.some.inj hj
    exact hshown hlt
  · simp only [Track.place, Function.update_of_ne hq] at hj ⊢
    exact hc q j hj hlt

theorem Shows.starts (hc : c.Starts c') : c'.Shows := by
  intro p i hi _
  have htype : c'.type = c.type := by rw [hc.same]
  have hcps : c'.checkpoints = c.checkpoints := by rw [hc.same]
  cases hp : c.progress p with
  | none => simp [hc.absent p hp] at hi
  | some j =>
    obtain ⟨hone, hshown⟩ := hc.moved p (by simp [hp])
    obtain rfl : 1 = i := Option.some.inj (hone.symm.trans hi)
    rw [htype, hcps]
    exact hshown

/-- Every operation keeps the race with its starter. -/
theorem starter_of_moves (h : op.Moves s k c c') : c'.starter = c.starter := by
  cases op with
  | appendCheckpoint pos => rcases h with rfl | ⟨-, rfl⟩ <;> rfl
  | create => rcases h with rfl | ⟨-, -, rfl⟩ <;> rfl
  | join p => rcases h with rfl | ⟨-, -, shown, rfl, -⟩ <;> rfl
  | quit p => rcases h with rfl | rfl <;> rfl
  | ready => rcases h with rfl | ⟨-, rfl⟩ <;> rfl
  | countDown =>
    rcases h with rfl | ⟨-, hstarts⟩
    · rfl
    · rw [hstarts.same]
  | playerReachCheckpoint p =>
    rcases h with rfl | ⟨-, i, -, hreach⟩
    · rfl
    split at hreach
    · obtain ⟨display, rfl, -⟩ := hreach
      rfl
    · obtain ⟨shown, -, rfl⟩ := hreach
      rfl

/-- An operation goes on showing the racers their checkpoints, if a new racer is shown theirs. -/
theorem Shows.moves (hc : c.Shows) (hsound : c.Sound) (hstarter : c.starter = k)
    (hs : s.track k = some c) (hop : op.showsStart k s) (h : op.Moves s k c c') : c'.Shows := by
  cases op with
  | appendCheckpoint pos =>
    rcases h with rfl | ⟨hbuilding, rfl⟩
    · exact hc
    · exact fun p i hi => by simp [hsound.unjoined hbuilding] at hi
  | create =>
    rcases h with rfl | ⟨-, -, rfl⟩
    · exact hc
    · exact hc
  | join p =>
    rcases h with rfl | ⟨-, hadmits, shown, rfl, hshown⟩
    · exact hc
    obtain ⟨hconfigured, hlevel⟩ := hop hadmits
    obtain ⟨startcp, nextcp, hstart, hnext, cp, rfl, hdisplays⟩ := hshown hconfigured
    obtain ⟨race, hrace, rfl⟩ := Server.track_eq_some.mp hs
    exact hc.place fun _ => ⟨cp, rfl, hdisplays (hlevel race startcp nextcp hrace hstart hnext)⟩
  | quit p =>
    rcases h with rfl | rfl
    · exact hc
    intro q i hi hlt
    by_cases hq : q = p
    · simp [hq] at hi
    · simp only [Function.update_of_ne hq] at hi ⊢
      exact hc q i hi hlt
  | ready =>
    rcases h with rfl | ⟨-, rfl⟩
    · exact hc
    · exact hc
  | countDown =>
    rcases h with rfl | ⟨-, hstarts⟩
    · exact hc
    · exact Shows.starts hstarts
  | playerReachCheckpoint p =>
    rcases h with rfl | ⟨-, i, -, hreach⟩
    · exact hc
    split at hreach
    case isTrue hlast =>
      obtain ⟨display, rfl, hdisplay⟩ := hreach
      rw [hdisplay hstarter]
      exact hc.place fun hlt => absurd hlast hlt.ne
    case isFalse =>
      obtain ⟨shown, hshown, rfl⟩ := hreach
      exact hc.place fun _ => ⟨shown, rfl, hshown⟩

end Track

/-- The racers of a race that is kept under its starter see their checkpoints, or the race is gone. -/
structure ShownRace (k : ℤ) (s : Server) : Prop where
  sound : SoundRace k s
  starter : ∀ c, s.track k = some c → c.starter = k
  shows : ∀ c, s.track k = some c → c.Shows

theorem ShownRace.racersSee (h : ShownRace k s) : RacersSee k s := by
  intro race p info hrace hinfo hlt
  have hc : s.track k = some (race.track s.samp.raceCheckpoint) :=
    Server.track_eq_some.mpr ⟨race, hrace, rfl⟩
  exact h.shows _ hc p _ (by simp [Racing.track, hinfo]) hlt

theorem ShownRace.step (h : ShownRace k s) (hstep : RaceOp.step k s i = some t)
    (hop : i.1.showsStart k s) : ShownRace k t := by
  refine ⟨h.sound.step hstep, fun c' hc' => ?_, fun c' hc' => ?_⟩
  all_goals obtain ⟨c, hc, hmoves⟩ := moves_of_step h.sound hstep hc'
  · exact (Track.starter_of_moves hmoves).trans (h.starter c hc)
  · exact (h.shows c hc).moves (h.sound c hc) (h.starter c hc) (s := s.begin i.2) hc
      (hop.begin i.2) hmoves

/-- In every run of calls on a race in which new racers are shown the start, every racer who has
not finished sees the checkpoint at their index. -/
theorem racers_see_their_checkpoints (race : Racing) (ops : List (RaceOp × Env))
    (hrace : s.races.lookup k = some race) (hnew : race.New)
    (hlong : race.racedata.state ≠ .building → 2 ≤ race.checkpoints.length)
    (hstarter : race.racedata.starter = k)
    (hops : Meets (RaceOp.step k) (fun s i => i.1.showsStart k s) s ops) :
    AllSteps (RaceOp.step k) (fun _ _ t => RacersSee k t) s ops := by
  refine AllSteps.of_invariant (I := ShownRace k) (fun s i t hs hstep hop => ?_) ?_ hops
  · have ht := hs.step hstep hop
    exact ⟨ht.racersSee, ht⟩
  · have hfirst : ∀ c, s.track k = some c → c = race.track s.samp.raceCheckpoint := by
      intro c hc
      obtain ⟨r, hr, rfl⟩ := Server.track_eq_some.mp hc
      rw [Option.some.inj (hrace.symm.trans hr)]
    refine ⟨hnew.sound hrace hlong, fun c hc => ?_, fun c hc p i hi => ?_⟩
    · rw [hfirst c hc]
      exact hstarter
    · simp [hfirst c hc, Racing.track, hnew.racers] at hi

/-- A test for the start of a race to be level. -/
def RaceOp.startsLevel (k : ℤ) (s : Server) : RaceOp → Bool
  | join _ => s.config.collection .waypoint && (s.races.lookup k).all fun race =>
      decide (race.checkpoints[0]?.map (·.z) = race.checkpoints[1]?.map (·.z))
  | _ => true

theorem RaceOp.showsStart_of_startsLevel {op : RaceOp} (h : op.startsLevel k s = true) :
    op.showsStart k s := by
  cases op with
  | join p =>
    obtain ⟨hconfigured, hlevel⟩ := Bool.and_eq_true_iff.mp h
    refine fun _ => ⟨hconfigured, fun race startcp nextcp hrace hstart hnext => ?_⟩
    simpa [hrace, hstart, hnext] using hlevel
  | _ => trivial

theorem racers_see_their_checkpoints_track : AllSteps (RaceOp.step 0) (fun _ _ t => RacersSee 0 t)
    Demo.course (Demo.raceOps.map fun op => (op, Demo.env)) :=
  racers_see_their_checkpoints Demo.track _ rfl ⟨Or.inl rfl, rfl, rfl, rfl⟩ (fun h => absurd rfl h) rfl
    (meets_of_check (b := fun s i => i.1.startsLevel 0 s)
      (fun _ _ h => RaceOp.showsStart_of_startsLevel h) (by decide +kernel))

namespace Demo

/-- The second checkpoint lies higher than the first. -/
def climb : List RaceOp :=
  [.appendCheckpoint ⟨0, 0, 0⟩, .appendCheckpoint ⟨1, 0, 5⟩, .create]

/-- A test for the player 1 to see the first checkpoint while the player is at it. -/
def seesStart (s : Server) : Bool :=
  (s.races.lookup 0).all fun race => (race.racers.lookup 1).all fun info =>
    decide (info.currentcp = 0 → 0 < race.checkpoints.length →
      (s.samp.raceCheckpoint 1).map (·.pos) = race.checkpoints[0]?)

theorem seesStart_of_racersSee (h : RacersSee 0 s) : seesStart s = true := by
  simp only [seesStart, Option.all_eq_true, decide_eq_true_eq]
  intro race hrace info hinfo hzero hpos
  obtain ⟨shown, hshown, hdisplays⟩ := h race 1 info hrace hinfo (by omega)
  have hfirst := hdisplays.pos
  rw [hzero] at hfirst
  rw [hshown]
  exact hfirst.symm

end Demo

/-- A racer who joins a race that climbs sees the first checkpoint at the height of the second. -/
theorem start_shown_at_wrong_height :
    ¬∀ ops : List (RaceOp × Env),
      AllSteps (RaceOp.step 0) (fun _ _ t => RacersSee 0 t) Demo.course ops := fun h =>
  not_allSteps (Demo.climb.map fun op => (op, Demo.env)) (.join 1, Demo.env)
    (fun _ t => Demo.seesStart t) (fun _ _ ht => Demo.seesStart_of_racersSee ht) (by decide +kernel) (h _)

end Runs

end FreshCity
