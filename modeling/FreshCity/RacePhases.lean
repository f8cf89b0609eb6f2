import FreshCity.Kills
import FreshCity.RaceMembership

/-!
# The phases of a race

A race is built, joined, counted down and run. What its operations do to the part
of it that the phases depend on is described once, as steps from course to course;
the discipline of the phases follows for every order of calls.
-/
namespace FreshCity
open Imperative Prog Run

/-! ## Operations -/

/-- The public operations of a race. -/
inductive RaceOp where
  | appendCheckpoint (pos : Coordinate3D)
  | create
  | join (p : ℤ)
  | quit (p : ℤ)
  | ready
  | countDown
  | playerReachCheckpoint (p : ℤ)
  deriving DecidableEq

namespace RaceOp

/-- A call on the race with a key. The player who joins or quits has a profile. -/
def run (k : ℤ) (op : RaceOp) : Game Unit := do
  let _ ← racingMgr k
  match op with
  | appendCheckpoint pos => Racing.withRace k (Racing.appendCheckpoint pos)
  | create => Racing.withRace k Racing.create
  | join p => do
    let _ ← profileMgr p
    Racing.withRace k (Racing.join p)
  | quit p => do
    let _ ← profileMgr p
    Racing.quit k p
  | ready => Racing.ready k
  | countDown => Racing.countDown k
  | playerReachCheckpoint p => Racing.playerReachCheckpoint k p

/-- One call, which may fail, in an environment of its own. -/
def step (k : ℤ) (s : Server) (i : RaceOp × Env) : Option Server :=
  (i.1.run k (s.begin i.2)).state?

end RaceOp

/-! ## Courses -/

/-- What the phases of a race depend on. -/
structure Course where
  state : RaceState
  countdowntimerid : ℤ
  countdown : ℤ
  checkpoints : List Coordinate3D
  racers : List ℤ
  deriving DecidableEq

def Racing.course (race : Racing) : Course where
  state := race.racedata.state
  countdowntimerid := race.racedata.countdowntimerid
  countdown := race.racedata.countdown
  checkpoints := race.checkpoints
  racers := race.racers.keys

def Server.course (s : Server) (k : ℤ) : Option Course := (s.races.lookup k).map Racing.course

/-- Where an operation can lead from a course. -/
def RaceOp.Leads (c : Course) : RaceOp → Course → Prop
  | appendCheckpoint pos, c' => if c.state = .building
      then c' = { c with checkpoints := c.checkpoints ++ [pos] } else c' = c
  | create, c' => c' = c ∨ c.state = .building ∧ c' = { c with state := .joining }
  | join p, c' => c' = c ∨ c.state = .joining ∧ c' = { c with racers := p :: c.racers }
  | quit p, c' => c' = c ∨ c' = { c with racers := c.racers.erase p }
  | ready, c' => if c.state = .joining
      then ∃ handle, handle ≠ 0 ∧ c' = { c with countdowntimerid := handle, state := .ready }
      else c' = c
  | countDown, c' => if c.state = .ready
      then if c.countdown = 0 then c' = { c with countdowntimerid := 0, state := .inProgress }
        else c' = { c with countdown := c.countdown - 1 }
      else c' = c
  | playerReachCheckpoint _, c' => c' = c

/-! ## Staying on a course -/

namespace Server
variable {s : Server} {k : ℤ} {c : Course}

/-- The race is on the course, or gone. The next timer has a handle that is not zero. -/
structure OnCourse (k : ℤ) (c : Course) (s : Server) : Prop where
  handles : 0 < s.nexthandle
  course : s.course k = none ∨ s.course k = some c

theorem course_eq_some : s.course k = some c ↔
    ∃ race, s.races.lookup k = some race ∧ race.course = c := Option.map_eq_some_iff

theorem OnCourse.of_eq {t : Server} (h : s.OnCourse k c) (hhandle : 0 < t.nexthandle)
    (hrace : t.races.lookup k = s.races.lookup k) : t.OnCourse k c := by
  refine ⟨hhandle, ?_⟩
  rw [Server.course, hrace]
  exact h.course

/-- A write to a race moves it from one course to another. -/
theorem OnCourse.adjust {g : Racing → Racing} {c' : Course} (h : s.OnCourse k c)
    (hg : ∀ race, race.course = c → (g race).course = c') :
    ({ s with races := s.races.adjust k g } : Server).OnCourse k c' := by
  refine ⟨h.handles, ?_⟩
  simp only [Server.course, Map.lookup_adjust, if_true, Option.map_map]
  rcases h.course with hnone | hsome
  · exact Or.inl (by simpa [Server.course] using hnone)
  · obtain ⟨race, hrace, hcourse⟩ := course_eq_some.mp hsome
    exact Or.inr (by simp [hrace, hg race hcourse])

theorem OnCourse.adjust_of_ne {j : ℤ} {g : Racing → Racing} (h : s.OnCourse k c) (hj : j ≠ k) :
    ({ s with races := s.races.adjust j g } : Server).OnCourse k c :=
  h.of_eq h.handles (by rw [Map.lookup_adjust, if_neg (Ne.symm hj)])

end Server

section Course
set_option synthInstance.maxSize 1000
open Server
variable {s : Server} {k p : ℤ} {c : Course} {race : Racing}

/-- The kinds of change that racing makes beside those of the race itself. -/
abbrev raceKinds : List Kind :=
  [.output, .samp, .database, .counters, .insert .racing, .setVar .raceJoined, .profileRace,
    .destroyTimer]

theorem onCourse_of_kind {j : Kind} (hj : j ∈ raceKinds) {a b : Server} (hab : j.change a b)
    (ha : a.OnCourse k c) : b.OnCourse k c := by
  have hframe := Kind.frame hab
  have hraces : j ≠ .races := by
    rintro rfl
    simp at hj
  have htimer : ∀ d, j ≠ .createTimer d := by
    rintro d rfl
    simp at hj
  exact ha.of_eq (by rw [hframe.nexthandle htimer]; exact ha.handles) (by rw [hframe.races hraces])

instance (priority := low) keeps_course {α : Type} {x : Game α} [hx : Stays raceKinds x] :
    Keeps (OnCourse k c) x := hx.keeps fun _ hj _ _ hab ha => onCourse_of_kind hj hab ha

theorem keeps_modifyRace_course {j : ℤ} {g : Racing → Racing} (hg : ∀ race, (g race).course = race.course) :
    Keeps (OnCourse k c) (Racing.modifyRace j g) := by
  refine keeps_of_wp fun s hs => ?_
  by_cases hj : j = k
  · subst hj
    exact hs.adjust fun race hrace => (hg race).trans hrace
  · exact hs.adjust_of_ne hj

instance keeps_modifyRacer_course {j : ℤ} {g : RacerInfo → RacerInfo} :
    Keeps (OnCourse k c) (Racing.modifyRacer j p g) :=
  keeps_modifyRace_course fun _ => by simp [Racing.course]

instance keeps_mgrRemove_course {j : ℤ} : Keeps (OnCourse k c) (Racing.mgrRemove j) := by
  have herase : Keeps (OnCourse k c) (modify fun s => { s with races := s.races.erase j } : Game Unit) := by
    refine keeps_of_wp fun s hs => ⟨hs.handles, ?_⟩
    by_cases hj : j = k
    · subst hj
      simp [Server.course]
    · have hsame : (s.races.erase j).lookup k = s.races.lookup k := AList.lookup_erase_ne (Ne.symm hj)
      simpa [Server.course, hsame] using hs.course
  unfold Racing.mgrRemove
  infer_instance

instance keeps_finish_course {j : ℤ} : Keeps (OnCourse k c) (Racing.finish j) := by
  unfold Racing.finish; infer_instance

instance keeps_playerFinish_course {j : ℤ} : Keeps (OnCourse k c) (Racing.playerFinish j p) := by
  have hdata : ∀ w, Keeps (OnCourse k c)
      (Racing.modifyData j fun d => { d with waitingplayer := w }) :=
    fun _ => keeps_modifyRace_course fun _ => rfl
  unfold Racing.playerFinish; infer_instance

instance keeps_playerReachCheckpoint_course {j : ℤ} :
    Keeps (OnCourse k c) (Racing.playerReachCheckpoint j p) := by
  unfold Racing.playerReachCheckpoint; infer_instance

/-! ## What the operations do -/

/-- A method that leaves the races alone. -/
theorem wp_method_course {τ α : Type} {x : Method τ α} (hx : MethodStays raceKinds x) (a : τ)
    (hs : s.OnCourse k c) :
    wp x (fun _ q => q.2.OnCourse k c) (fun _ q => q.2.OnCourse k c) (a, s) := by
  have hpath : ∀ q : τ × Server, Path (methodChange Kind.change) (none :: raceKinds.map some) (a, s) q →
      q.2.OnCourse k c := fun q hq =>
    (path_of_methodPath hq).invariant (fun j hj _ _ hab ha => onCourse_of_kind hj hab ha) hs
  exact wp_mono (hx.path (a, s)) (fun _ q hq => hpath q hq) (fun _ q hq => hpath q hq)

/-- The operation led to one of its courses, or the race is gone. -/
def Server.Follows (k : ℤ) (c : Course) (op : RaceOp) (t : Server) : Prop :=
  ∃ c', op.Leads c c' ∧ t.OnCourse k c'

/-- A method of a race stores the race back on the course it leads to. -/
theorem wp_withRace_course {op : RaceOp} {x : Method Racing Unit}
    (hx : ∀ race, race.course = c → s.races.lookup k = some race →
      wp x (fun _ q => ∃ c', op.Leads c c' ∧ q.1.course = c' ∧ q.2.OnCourse k c)
        (fun _ q => ∃ c', op.Leads c c' ∧ q.1.course = c' ∧ q.2.OnCourse k c) (race, s))
    (hs : s.OnCourse k c) :
    wp (Racing.withRace k x) (fun _ => Follows k c op) (fun _ => Follows k c op) s := by
  rw [Racing.withRace, wp_focus]
  intro race hrace
  have hcourse : race.course = c := by
    rcases hs.course with hnone | hsome
    · simp [Server.course, hrace] at hnone
    · simpa [Server.course, hrace] using hsome
  have hput : ∀ q : Racing × Server, (∃ c', op.Leads c c' ∧ q.1.course = c' ∧ q.2.OnCourse k c) →
      ({ q.2 with races := q.2.races.adjust k fun _ => q.1 } : Server).Follows k c op := by
    rintro q ⟨c', hleads, hq, hon⟩
    exact ⟨c', hleads, hon.adjust fun _ _ => hq⟩
  exact wp_mono (hx race hcourse hrace) (fun _ q hq => hput q hq) (fun _ q hq => hput q hq)

theorem wp_appendCheckpoint_course {pos : Coordinate3D} (hs : s.OnCourse k c) :
    wp (Racing.withRace k (Racing.appendCheckpoint pos)) (fun _ => Follows k c (.appendCheckpoint pos))
      (fun _ => Follows k c (.appendCheckpoint pos)) s := by
  refine wp_withRace_course (fun race hcourse _ => ?_) hs
  have hstate : race.racedata.state = c.state := congrArg Course.state hcourse
  rw [Racing.appendCheckpoint, wp_bind, wp_self, wp_bind, wp_raiseIf, hstate]
  split
  case isTrue hnot => exact ⟨c, by rw [RaceOp.Leads, if_neg hnot], hcourse, hs⟩
  case isFalse hbuilding =>
    rw [not_not] at hbuilding
    refine ⟨_, by rw [RaceOp.Leads, if_pos hbuilding], ?_, hs⟩
    subst hcourse
    rfl

theorem wp_create_course (hs : s.OnCourse k c) :
    wp (Racing.withRace k Racing.create) (fun _ => Follows k c .create)
      (fun _ => Follows k c .create) s := by
  refine wp_withRace_course (fun race hcourse _ => ?_) hs
  have hstate : race.racedata.state = c.state := congrArg Course.state hcourse
  have hstay : ∃ c', RaceOp.create.Leads c c' ∧ race.course = c' ∧ s.OnCourse k c :=
    ⟨c, Or.inl rfl, hcourse, hs⟩
  simp only [Racing.create, wp_bind, wp_self, wp_raiseIf]
  split
  case isTrue => exact hstay
  case isFalse hbuilding =>
  rw [not_not, hstate] at hbuilding
  split
  case isTrue => exact hstay
  case isFalse =>
  simp only [wp_shared, wp_gets, genOID, wp_bind, wp_modify, wp_pure, wp_part, wp_assign]
  have hitem : MethodStays raceKinds (SaveableItem.create .racing
      (Racing.document (s.env.genoid s.genoids).val (s.platform.gbkToUTF8 race.raceinfo.name)
        race.raceinfo.creator race.raceinfo.type race.checkpoints) false) := inferInstance
  have hnext : ({ s with genoids := s.genoids + 1 } : Server).OnCourse k c :=
    hs.of_eq hs.handles rfl
  refine wp_mono (wp_method_course hitem race.item hnext) (fun _ q hq => ?_) (fun _ q hq => ?_)
  · refine ⟨_, Or.inr ⟨hbuilding, rfl⟩, ?_, hq⟩
    subst hcourse
    rfl
  · exact ⟨c, Or.inl rfl, hcourse, hq⟩

theorem wp_quit_course (hs : s.OnCourse k c) :
    wp (Racing.quit k p) (fun _ => Follows k c (.quit p)) (fun _ => Follows k c (.quit p)) s := by
  simp only [Racing.quit, Racing.ref, wp_bind, wp_gets, wp_orUndefined, wp_raiseIf]
  intro race hrace
  split
  case isTrue => exact ⟨c, Or.inl rfl, hs⟩
  case isFalse =>
  have hkeys : ∀ r : Racing, r.course = c →
      ({ r with racers := r.racers.erase p } : Racing).course = { c with racers := c.racers.erase p } := by
    rintro r rfl
    simp [Racing.course, AList.keys_erase]
  have hrest : Keeps (OnCourse k { c with racers := c.racers.erase p }) (do
      Profile.delRaceJoined p
      disablePlayerRaceCheckpoint p
      Racing.modifyData k fun d => { d with waitingplayer := d.waitingplayer - 1 } : Game Unit) := by
    have hdata : Keeps (OnCourse k { c with racers := c.racers.erase p })
        (Racing.modifyData k fun d => { d with waitingplayer := d.waitingplayer - 1 }) :=
      keeps_modifyRace_course fun _ => rfl
    infer_instance
  rw [Racing.modifyRace, wp_modify]
  have hleft := hrest.wp_of_keeps (hs.adjust hkeys)
  exact wp_mono hleft (fun _ _ h => ⟨_, Or.inr rfl, h⟩) (fun _ _ h => ⟨_, Or.inr rfl, h⟩)

theorem wp_ready_course (hs : s.OnCourse k c) :
    wp (Racing.ready k) (fun _ => Follows k c .ready) (fun _ => Follows k c .ready) s := by
  simp only [Racing.ready, Racing.ref, wp_bind, wp_gets, wp_orUndefined, wp_raiseIf]
  intro race hrace
  have hcourse : race.course = c := by
    rcases hs.course with hnone | hsome
    · simp [Server.course, hrace] at hnone
    · simpa [Server.course, hrace] using hsome
  have hstate : race.racedata.state = c.state := congrArg Course.state hcourse
  rw [hstate]
  split
  case isTrue hnot => exact ⟨c, by simp only [RaceOp.Leads, if_neg hnot], hs⟩
  case isFalse hjoining =>
  rw [not_not] at hjoining
  have hloop : wp (forEach (fun q => do
      sendClientMessage q .raceCountDownBegins
      native (.togglePlayerControllable q false)) race.racers.keys : Game Unit)
      (fun _ => OnCourse k c) (fun _ _ => False) s :=
    wp_forEach _ hs fun q _ t ht => ht.of_eq ht.handles rfl
  refine wp_mono hloop (fun _ t ht => ?_) (fun _ _ h => h.elim)
  simp only [createTimer, emit, Racing.modifyData, Racing.modifyRace, wp_bind, wp_gets, wp_modify,
    wp_pure]
  have hhandle := ht.handles
  refine ⟨{ c with countdowntimerid := t.nexthandle, state := .ready }, ?_, ?_⟩
  · rw [RaceOp.Leads, if_pos hjoining]
    exact ⟨t.nexthandle, hhandle.ne', rfl⟩
  · have hnext : ({ t with
        trace := .createTimer t.nexthandle (.raceCountDown race.addr) :: t.trace
        timers := ⟨t.nexthandle, .raceCountDown race.addr, 1000, true, t.env.clock + 1000⟩ :: t.timers
        nexthandle := t.nexthandle + 1 } : Server).OnCourse k c :=
      ht.of_eq (Int.add_pos hhandle Int.one_pos) rfl
    refine hnext.adjust fun r hr => ?_
    subst hr
    rfl

/-- A registered race is on the course of the server. -/
theorem Server.OnCourse.course_eq (hs : s.OnCourse k c) (hrace : s.races.lookup k = some race) :
    race.course = c := by
  rcases hs.course with hnone | hsome
  · simp [Server.course, hrace] at hnone
  · simpa [Server.course, hrace] using hsome

/-- A race that is ready starts, whatever becomes of the racers' first checkpoints. -/
theorem wp_start_course (hs : s.OnCourse k c) (hready : c.state = .ready) :
    wp (Racing.start k) (fun _ => OnCourse k { c with state := .inProgress })
      (fun _ => OnCourse k { c with state := .inProgress }) s := by
  simp only [Racing.start, Racing.ref, wp_bind, wp_gets, wp_orUndefined, wp_raiseIf]
  intro race hrace
  have hstate : race.racedata.state = .ready :=
    (congrArg Course.state (hs.course_eq hrace)).trans hready
  rw [if_neg (not_not.mpr hstate), Racing.modifyData, Racing.modifyRace, wp_modify]
  have hbegun : OnCourse k { c with state := .inProgress } _ := hs.adjust (g := fun race =>
    { race with racedata := { race.racedata with state := .inProgress } }) fun r hr => by
      subst hr; rfl
  have hrest : Keeps (OnCourse k { c with state := .inProgress }) (do
      forEach (fun q => do
        sendClientMessage q .raceStarts
        Racing.playerReachCheckpoint k q
        native (.togglePlayerControllable q true)) race.racers.keys
      let race ← Racing.ref k
      let now ← gets (·.env.time)
      Racing.modifyData k fun d =>
        { d with start := now, waitingplayer := race.racers.keys.length } : Game Unit) := by
    have hdata : ∀ t w, Keeps (OnCourse k { c with state := .inProgress })
        (Racing.modifyData k fun d => { d with start := t, waitingplayer := w }) :=
      fun _ _ => keeps_modifyRace_course fun _ => rfl
    infer_instance
  exact hrest.wp_of_keeps hbegun

theorem wp_countDown_course (hs : s.OnCourse k c) :
    wp (Racing.countDown k) (fun _ => Follows k c .countDown) (fun _ => Follows k c .countDown) s := by
  simp only [Racing.countDown, Racing.ref, wp_bind, wp_gets, wp_orUndefined, wp_raiseIf, wp_ite]
  intro race hrace
  have hcourse := hs.course_eq hrace
  have hstate : race.racedata.state = c.state := congrArg Course.state hcourse
  have hcount : race.racedata.countdown = c.countdown := congrArg Course.countdown hcourse
  rw [hstate, hcount]
  split
  case isTrue hnot => exact ⟨c, by rw [RaceOp.Leads, if_neg hnot], hs⟩
  case isFalse hready =>
  rw [not_not] at hready
  split
  case isTrue hzero =>
    have hstarted : ∀ t : Server, t.OnCourse k c → wp (do
        Racing.modifyData k fun d => { d with countdowntimerid := 0 }
        Racing.start k : Game Unit) (fun _ => Follows k c .countDown)
        (fun _ => Follows k c .countDown) t := by
      intro t ht
      have hstopped : OnCourse k { c with countdowntimerid := 0 } _ := ht.adjust (g := fun race =>
        { race with racedata := { race.racedata with countdowntimerid := 0 } }) fun r hr => by
          subst hr; rfl
      rw [wp_bind, Racing.modifyData, Racing.modifyRace, wp_modify]
      refine wp_mono (wp_start_course hstopped hready) (fun _ u hu => ?_) (fun _ u hu => ?_)
      all_goals exact ⟨_, by rw [RaceOp.Leads, if_pos hready, if_pos hzero], hu⟩
    rw [wp_when]
    split
    · simp only [destroyTimer, emit, wp_bind, wp_modify]
      exact hstarted _ (hs.of_eq hs.handles rfl)
    · exact hstarted s hs
  case isFalse hpositive =>
    have hloop : wp (forEach (fun q => sendClientMessage q (.raceCountDown c.countdown))
        race.racers.keys : Game Unit) (fun _ => OnCourse k c) (fun _ _ => False) s :=
      wp_forEach _ hs fun q _ t ht => ht.of_eq ht.handles rfl
    refine wp_mono hloop (fun _ t ht => ?_) (fun _ _ h => h.elim)
    refine ⟨_, by rw [RaceOp.Leads, if_pos hready, if_neg hpositive], ht.adjust fun r hr => ?_⟩
    subst hr
    rfl

/-! ## Joining -/

/-- A teleport does not throw, and nothing of it is kept but the trace. -/
theorem wp_performTeleport (w : Waypoint) : wp (w.performTeleport p)
    (fun _ t => ∃ trace, t = { s with trace := trace }) (fun _ _ => False) s := by
  simp only [Waypoint.performTeleport, Waypoint.applyToPlayer, Waypoint.applyToVehicle, native, emit,
    wp_bind, wp_modify, wp_gets, wp_when]
  split <;> exact ⟨_, rfl⟩

/-- The player may join: the race is open, and the player is in no race. -/
structure Racing.Admits (race : Racing) (s : Server) (p : ℤ) : Prop where
  state : race.racedata.state = .joining
  free : ∃ pr, s.profiles.lookup p = some pr ∧ pr.pvars.raceJoined = none

/-- What `Join` shows a new racer: the first checkpoint, at the height of the second. -/
def Racing.startDisplay (race : Racing) (startcp nextcp : Coordinate3D) : RaceCheckpoint :=
  ⟨race.checkpointType false, ⟨startcp.x, startcp.y, nextcp.z⟩, nextcp, 10⟩

/-- The server once a racer was entered and shown a checkpoint. -/
def Server.joined (s : Server) (p k : ℤ) (cp : RaceCheckpoint) (trace : List Effect) : Server :=
  { s with
    trace := trace
    profiles := s.profiles.adjust p fun q =>
      { q with pvars := { q.pvars with raceJoined := some k } }
    samp := { s.samp with raceCheckpoint := Function.update s.samp.raceCheckpoint p (some cp) } }

/-- `Join` returned: the racer is in, and sees the start. -/
structure Racing.Joins (race : Racing) (s : Server) (p : ℤ) (q : Racing × Server) : Prop where
  admits : race.Admits s p
  configured : s.config.collection .waypoint = true
  entered : q.1 = race.insertRacer p
  shown : ∃ startcp nextcp trace, race.checkpoints[0]? = some startcp ∧
    race.checkpoints[1]? = some nextcp ∧
    q.2 = s.joined p race.racedata.starter (race.startDisplay startcp nextcp) trace

/-- `Join` threw with the racer in: there is no collection of waypoints in the configuration. -/
structure Racing.JoinsUnseen (race : Racing) (s : Server) (p : ℤ) (q : Racing × Server) : Prop where
  admits : race.Admits s p
  unconfigured : s.config.collection .waypoint = false
  entered : q.1 = race.insertRacer p
  samp : q.2.samp = s.samp
  races : q.2.races = s.races
  nexthandle : q.2.nexthandle = s.nexthandle

/-- `Join` refuses, or enters the racer. -/
theorem wp_join : wp (Racing.join p) (fun _ q => race.Joins s p q)
    (fun _ q => q = (race, s) ∨ race.JoinsUnseen s p q) (race, s) := by
  rw [Racing.join, wp_bind, wp_self, wp_bind, wp_raiseIf]
  split
  case isTrue => exact Or.inl rfl
  case isFalse hstate =>
  simp only [wp_shared, Profile.hasVar, Profile.ref, wp_bind, wp_gets, wp_orUndefined, wp_pure,
    wp_raiseIf, true_or]
  intro pr hpr
  split
  case isTrue => trivial
  case isFalse hfree =>
  have hadmits : race.Admits s p :=
    ⟨not_not.mp hstate, pr, hpr, by simpa using hfree⟩
  simp only [wp_assign, Profile.setRaceJoined, emit, Profile.modifyRace, wp_bind, wp_shared,
    wp_modify, wp_orUndefined, Waypoint.ofTarget, SaveableItem.unsaved, configCollection, wp_gets,
    wp_raiseIf, wp_pure]
  intro startcp hstart nextcp hnext
  split
  case isTrue hmissing =>
    exact Or.inr ⟨hadmits, by simpa using hmissing, rfl, rfl, rfl, rfl⟩
  case isFalse hconfigured =>
    simp only [setPlayerRaceCheckpoint, emit, wp_bind, wp_modify]
    refine wp_mono (wp_performTeleport _) (fun _ t ht => ?_) (fun _ _ h => h.elim)
    obtain ⟨trace, rfl⟩ := ht
    exact ⟨hadmits, by simpa using hconfigured, rfl, startcp, nextcp, trace, hstart, hnext, rfl⟩

theorem Racing.course_insertRacer (race : Racing) (p : ℤ) :
    (race.insertRacer p).course = race.course ∨
      (race.insertRacer p).course = { race.course with racers := p :: race.course.racers } := by
  rw [Racing.insertRacer]
  split
  case isTrue => exact Or.inl rfl
  case isFalse hmem =>
    refine Or.inr ?_
    have hkeys : (race.racers.insert p {}).keys = p :: race.racers.keys := by
      rw [AList.keys_insert, List.erase_of_not_mem (by rwa [← AList.mem_keys])]
    rw [Racing.course, hkeys]
    rfl

theorem wp_join_course (hs : s.OnCourse k c) :
    wp (Racing.withRace k (Racing.join p)) (fun _ => Follows k c (.join p))
      (fun _ => Follows k c (.join p)) s := by
  refine wp_withRace_course (fun race hcourse _ => ?_) hs
  have hentered : race.Admits s p → ∀ q : Racing × Server, q.1 = race.insertRacer p →
      q.2.OnCourse k c → ∃ c', RaceOp.Leads c (.join p) c' ∧ q.1.course = c' ∧ q.2.OnCourse k c := by
    intro hadmits q hq hon
    have hjoining : c.state = .joining := (congrArg Course.state hcourse).symm.trans hadmits.state
    rw [hq]
    rcases race.course_insertRacer p with hsame | hnew
    · exact ⟨c, Or.inl rfl, hsame.trans hcourse, hon⟩
    · exact ⟨_, Or.inr ⟨hjoining, rfl⟩, by rw [hnew, hcourse], hon⟩
  refine wp_mono wp_join (fun _ q hq => ?_) (fun _ q hq => ?_)
  · obtain ⟨_, _, _, -, -, hserver⟩ := hq.shown
    refine hentered hq.admits q hq.entered ?_
    rw [hserver]
    exact hs.of_eq hs.handles rfl
  · rcases hq with rfl | hq
    · exact ⟨c, Or.inl rfl, hcourse, hs⟩
    · exact hentered hq.admits q hq.entered
        (hs.of_eq (by rw [hq.nexthandle]; exact hs.handles) (by rw [hq.races]))

/-- A call on a race that is gone throws. -/
theorem wp_run_gone {op : RaceOp} (hs : s.course k = none) :
    wp (op.run k) (fun _ _ => False) (fun _ t => t = s) s := by
  have hrace : s.races.lookup k = none := Option.map_eq_none_iff.mp hs
  rw [RaceOp.run.eq_def, wp_bind, racingMgr, wp_bind, wp_gets, hrace]
  rfl

/-- A call leads the race along its course, whether it throws or not. -/
theorem wp_run_course {op : RaceOp} (hs : s.OnCourse k c) (hc : s.course k = some c) :
    wp (op.run k) (fun _ => Follows k c op) (fun _ => Follows k c op) s := by
  obtain ⟨race, hrace, -⟩ := course_eq_some.mp hc
  rw [RaceOp.run.eq_def, wp_bind, racingMgr, wp_bind, wp_gets, hrace, getItem, orRaise_some, wp_pure]
  cases op with
  | appendCheckpoint pos => exact wp_appendCheckpoint_course hs
  | create => exact wp_create_course hs
  | join p =>
    simp only [profileMgr, getItem, wp_bind, wp_gets, wp_orRaise]
    exact ⟨fun _ _ => wp_join_course hs, fun _ => ⟨c, Or.inl rfl, hs⟩⟩
  | quit p =>
    simp only [profileMgr, getItem, wp_bind, wp_gets, wp_orRaise]
    exact ⟨fun _ _ => wp_quit_course hs, fun _ => ⟨c, Or.inl rfl, hs⟩⟩
  | ready => exact wp_ready_course hs
  | countDown => exact wp_countDown_course hs
  | playerReachCheckpoint p =>
    have hkeep : Keeps (OnCourse k c) (Racing.playerReachCheckpoint k p) := inferInstance
    exact wp_mono (hkeep.wp_of_keeps hs) (fun _ _ h => ⟨c, rfl, h⟩) (fun _ _ h => ⟨c, rfl, h⟩)

end Course

/-! ## The discipline of the phases -/

/-- The order of the states. -/
def RaceState.next : RaceState → RaceState
  | .building => .joining
  | .joining => .ready
  | .ready => .inProgress
  | state => state

/-- The number of calls of `CountDown` since `Ready`, if there was one. -/
def RaceOp.count (c : Course) (since : Option ℕ) : RaceOp → Option ℕ
  | ready => if c.state = .joining then some 0 else since
  | countDown => since.map (· + 1)
  | _ => since

/-- What one operation may do to a race. -/
structure Course.Disciplined (since : Option ℕ) (op : RaceOp) (c c' : Course) : Prop where
  advances : c'.state = c.state ∨ c'.state = c.state.next
  checkpoints : c'.checkpoints ≠ c.checkpoints → c.state = .building
  entered : ∀ p ∈ c'.racers, p ∉ c.racers → c.state = .joining
  timer : c'.countdowntimerid ≠ 0 ↔ c'.state = .ready
  starts : c.state ≠ .inProgress ∧ c'.state = .inProgress ↔ op = .countDown ∧ since = some 5

/-- The countdown goes along with the calls of `CountDown`, and the timer with the state. -/
structure Course.Phased (since : Option ℕ) (c : Course) : Prop where
  timer : c.countdowntimerid ≠ 0 ↔ c.state = .ready
  phase : (c.state = .building ∨ c.state = .joining) ∧ since = none ∧ c.countdown = 5 ∨
    c.state = .ready ∧ (∃ n : ℕ, since = some n ∧ c.countdown = 5 - n ∧ n ≤ 5) ∨
    c.state = .inProgress ∧ ∃ n, since = some n ∧ 6 ≤ n

/-- An operation that neither counts nor changes the state leaves the phase alone. -/
theorem Course.Phased.of_same {since : Option ℕ} {op : RaceOp} {c c' : Course}
    (h : c.Phased since) (hop : op ≠ .countDown) (hstate : c'.state = c.state)
    (htimer : c'.countdowntimerid = c.countdowntimerid) (hcount : c'.countdown = c.countdown)
    (hcps : c'.checkpoints ≠ c.checkpoints → c.state = .building)
    (hracers : ∀ p ∈ c'.racers, p ∉ c.racers → c.state = .joining) :
    Disciplined since op c c' ∧ c'.Phased since := by
  refine ⟨⟨Or.inl hstate, hcps, hracers, ?_, ?_⟩, ?_, ?_⟩
  · rw [htimer, hstate]
    exact h.timer
  · rw [hstate]
    exact iff_of_false (fun hstart => hstart.1 hstart.2) fun hcd => hop hcd.1
  · rw [htimer, hstate]
    exact h.timer
  · rw [hstate, hcount]
    exact h.phase

/-- `CountDown` counts, and starts the race at the sixth call. -/
theorem Course.Phased.countDown {since : Option ℕ} {c c' : Course} (h : c.Phased since)
    (hleads : RaceOp.countDown.Leads c c') :
    Disciplined since .countDown c c' ∧ c'.Phased (RaceOp.countDown.count c since) := by
  rw [RaceOp.count]
  rcases h.phase with ⟨hopen, rfl, hcount⟩ | ⟨hready, n, rfl, hcount, hn⟩ | ⟨hrunning, n, rfl, hn⟩
  · have hnot : c.state ≠ .ready := by rcases hopen with heq | heq <;> simp [heq]
    obtain rfl : c' = c := by rwa [RaceOp.Leads, if_neg hnot] at hleads
    exact ⟨⟨Or.inl rfl, fun hne => absurd rfl hne, fun p hp hout => absurd hp hout, h.timer,
      by simp⟩, h.timer, Or.inl ⟨hopen, rfl, hcount⟩⟩
  · rw [RaceOp.Leads, if_pos hready] at hleads
    split at hleads
    case isTrue hzero =>
      obtain rfl : n = 5 := by omega
      subst hleads
      exact ⟨⟨Or.inr (by rw [hready]; rfl), fun hne => absurd rfl hne,
        fun p hp hout => absurd hp hout, by simp, by simp [hready]⟩, by simp,
        Or.inr (Or.inr ⟨rfl, 6, rfl, le_rfl⟩)⟩
    case isFalse hpositive =>
      have hlt : n ≠ 5 := by
        rintro rfl
        simp [hcount] at hpositive
      subst hleads
      exact ⟨⟨Or.inl rfl, fun hne => absurd rfl hne, fun p hp hout => absurd hp hout, h.timer,
        by simp [hready, hlt]⟩, h.timer,
        Or.inr (Or.inl ⟨hready, n + 1, rfl, by simp only [hcount]; push_cast; ring, by omega⟩)⟩
  · have hnot : c.state ≠ .ready := by simp [hrunning]
    obtain rfl : c' = c := by rwa [RaceOp.Leads, if_neg hnot] at hleads
    have hne : n ≠ 5 := by omega
    exact ⟨⟨Or.inl rfl, fun hne => absurd rfl hne, fun p hp hout => absurd hp hout, h.timer,
      by simp [hrunning, hne]⟩, h.timer, Or.inr (Or.inr ⟨hrunning, n + 1, rfl, by omega⟩)⟩

/-- Wherever an operation leads, it keeps to the order of the phases. -/
theorem Course.Phased.leads {since : Option ℕ} {op : RaceOp} {c c' : Course}
    (h : c.Phased since) (hleads : op.Leads c c') :
    Disciplined since op c c' ∧ c'.Phased (op.count c since) := by
  have hstay : ∀ op : RaceOp, op ≠ .countDown → Disciplined since op c c ∧ c.Phased since :=
    fun op hop => h.of_same hop rfl rfl rfl (fun hne => absurd rfl hne) fun p hp hnot => absurd hp hnot
  cases op with
  | appendCheckpoint pos =>
    rw [RaceOp.Leads] at hleads
    split at hleads
    case isTrue hbuilding =>
      subst hleads
      exact h.of_same (by simp) rfl rfl rfl (fun _ => hbuilding) fun p hp hnot => absurd hp hnot
    case isFalse => exact hleads ▸ hstay (.appendCheckpoint pos) (by simp)
  | create =>
    rcases hleads with rfl | ⟨hbuilding, rfl⟩
    · exact hstay _ (by simp)
    have hphase := h.phase
    have htimer := h.timer
    simp only [hbuilding, reduceCtorEq, iff_false, not_not, or_false, true_and, false_and,
      or_self] at hphase htimer
    refine ⟨⟨Or.inr (by rw [hbuilding]; rfl), fun hne => absurd rfl hne,
      fun p hp hnot => absurd hp hnot, ?_, ?_⟩, ?_, Or.inl ⟨Or.inr rfl, hphase⟩⟩
    all_goals simp [htimer]
  | join p =>
    rcases hleads with rfl | ⟨hjoining, rfl⟩
    · exact hstay _ (by simp)
    · exact h.of_same (by simp) rfl rfl rfl (fun hne => absurd rfl hne) fun _ _ _ => hjoining
  | quit p =>
    rcases hleads with rfl | rfl
    · exact hstay _ (by simp)
    · exact h.of_same (by simp) rfl rfl rfl (fun hne => absurd rfl hne)
        fun q hq hnot => absurd (List.mem_of_mem_erase hq) hnot
  | ready =>
    rw [RaceOp.Leads] at hleads
    split at hleads
    case isTrue hjoining =>
      obtain ⟨handle, hhandle, rfl⟩ := hleads
      have hphase := h.phase
      simp only [hjoining, reduceCtorEq, or_true, true_and, false_and, or_false] at hphase
      refine ⟨⟨Or.inr (by rw [hjoining]; rfl), fun hne => absurd rfl hne,
        fun p hp hnot => absurd hp hnot, by simp [hhandle], by simp⟩, by simp [hhandle], ?_⟩
      rw [RaceOp.count, if_pos hjoining]
      exact Or.inr (Or.inl ⟨rfl, 0, rfl, by simpa using hphase.2, by omega⟩)
    case isFalse hnot =>
      rw [hleads, RaceOp.count, if_neg hnot]
      exact hstay _ (by simp)
  | countDown => exact h.countDown hleads
  | playerReachCheckpoint p =>
    obtain rfl : c' = c := hleads
    exact hstay (.playerReachCheckpoint p) (by simp)

/-! ## Runs -/

namespace Racing

/-- A race as the constructors make it. -/
structure New (race : Racing) : Prop where
  state : race.racedata.state = .building ∨ race.racedata.state = .joining
  countdowntimerid : race.racedata.countdowntimerid = 0
  countdown : race.racedata.countdown = 5
  racers : race.racers = ∅

theorem wp_ofNew_new (name : Text) (starter type : ℤ) (creator : OID) (s : Server) :
    wp (ofNew name starter type creator) (fun race _ => race.New) (fun _ _ => True) s :=
  wp_last fun _ _ => wp_last fun _ _ => ⟨Or.inl rfl, rfl, rfl, rfl⟩

theorem wp_ofName_new (name : Text) (starter : ℤ) (s : Server) :
    wp (ofName name starter) (fun race _ => race.New) (fun _ _ => True) s := by
  refine wp_last fun _ _ => wp_last fun item _ => wp_last fun addr t => ?_
  simp only [wp_map, wp_withLocal, wp_bind]
  have hload := keeps_loadData.wp_of_keeps (s := ({ item := item, addr := addr }, t)) ⟨rfl, rfl⟩
  refine wp_mono hload (fun _ u hu => ?_) (fun _ _ _ => trivial)
  obtain ⟨hracers, hdata⟩ := hu
  exact ⟨Or.inr rfl, by simp [hdata], by simp [hdata], hracers⟩

theorem New.phased {race : Racing} (h : race.New) : race.course.Phased none where
  timer := by
    have hnot : race.course.state ≠ .ready := by
      rcases h.state with heq | heq <;> simp [Racing.course, heq]
    exact iff_of_false (not_not.mpr h.countdowntimerid) hnot
  phase := Or.inl ⟨h.state, rfl, h.countdown⟩

end Racing

/-- The calls of `CountDown` since `Ready`, counted along a run. -/
def countSince (k : ℤ) (s : Server) (since : Option ℕ) (i : RaceOp × Env) (_ : Server) : Option ℕ :=
  match s.course k with
  | some c => i.1.count c since
  | none => since

/-- A step keeps to the order of the phases, as long as the race is there. -/
def RaceDisciplined (k : ℤ) (w : Server × Option ℕ) (i : RaceOp × Env) (u : Server × Option ℕ) :
    Prop :=
  ∀ c c', w.1.course k = some c → u.1.course k = some c' → c.Disciplined w.2 i.1 c'

/-- The race is in phase, or gone. -/
def InPhase (k : ℤ) (w : Server × Option ℕ) : Prop :=
  0 < w.1.nexthandle ∧ ∀ c, w.1.course k = some c → c.Phased w.2

theorem step_disciplined {k : ℤ} {w u : Server × Option ℕ} {i : RaceOp × Env} (hw : InPhase k w)
    (hstep : watch (RaceOp.step k) (countSince k) w i = some u) :
    RaceDisciplined k w i u ∧ InPhase k u := by
  obtain ⟨hrun, hcount⟩ := watch_eq_some.mp hstep
  cases hc : w.1.course k with
  | none =>
    have hgone : ∀ t, t = w.1.begin i.2 → t.course k = none ∧ 0 < t.nexthandle := by
      rintro t rfl
      exact ⟨hc, hw.1⟩
    have hu := state_of_wp (P := fun t => t.course k = none ∧ 0 < t.nexthandle)
      (wp_mono (wp_run_gone (s := w.1.begin i.2) hc) (fun _ _ h => h.elim) fun _ t ht => hgone t ht)
      hrun
    exact ⟨fun c c' hwc => by simp [hc] at hwc, hu.2, fun c' huc => by simp [hu.1] at huc⟩
  | some c =>
    have hon : (w.1.begin i.2).OnCourse k c := ⟨hw.1, Or.inr hc⟩
    obtain ⟨c', hleads, hu⟩ := state_of_wp (wp_run_course hon hc) hrun
    have hkept := (hw.2 c hc).leads hleads
    have hc' : ∀ d, u.1.course k = some d → d = c' := by
      intro d hd
      rcases hu.course with hnone | hsome
      · simp [hnone] at hd
      · simpa [hsome, eq_comm] using hd
    have hsince : u.2 = i.1.count c w.2 := by
      rw [← hcount, countSince, hc]
    refine ⟨fun d d' hwd hud => ?_, hu.handles, fun d' hud => ?_⟩
    · obtain rfl : c = d := Option.some.inj (hc.symm.trans hwd)
      exact hc' d' hud ▸ hkept.1
    · rw [hsince, hc' d' hud]
      exact hkept.2

/-- A race only advances, in the order of its phases. Checkpoints are added while it is built and
racers while it is joined; the timer runs while it is counted down, and the sixth call of
`CountDown` since `Ready` starts it. -/
theorem race_disciplined (k : ℤ) (s : Server) (race : Racing) (ops : List (RaceOp × Env))
    (hrace : s.races.lookup k = some race) (hnew : race.New) (hhandle : 0 < s.nexthandle) :
    AllSteps (watch (RaceOp.step k) (countSince k)) (RaceDisciplined k) (s, none) ops := by
  have hphase : InPhase k (s, none) := by
    refine ⟨hhandle, fun c hc => ?_⟩
    obtain ⟨r, hr, rfl⟩ := Server.course_eq_some.mp hc
    obtain rfl : race = r := Option.some.inj (hrace.symm.trans hr)
    exact hnew.phased
  refine AllSteps.of_step (I := InPhase k) (fun w i u hw hstep => ?_) hphase ops
  exact step_disciplined hw hstep

namespace Demo

/-- A race that the player 0 begins to build. -/
def track : Racing := { racedata := { state := .building, starter := 0 } }

/-- The builder of a race, and another player. -/
def course : Server :=
  { initial with
    profiles := ((∅ : Map ℤ Profile).insert 0 (member team)).insert 1 (member rivals)
    races := (∅ : Map ℤ Racing).insert 0 track }

/-- The race is built, joined by one player and counted down. -/
def raceOps : List RaceOp :=
  [.appendCheckpoint ⟨0, 0, 0⟩, .appendCheckpoint ⟨1, 0, 0⟩, .create, .join 1, .ready, .countDown,
    .countDown, .countDown, .countDown, .countDown, .countDown, .playerReachCheckpoint 1]

end Demo

theorem race_disciplined_track : AllSteps (watch (RaceOp.step 0) (countSince 0)) (RaceDisciplined 0)
    (Demo.course, none) (Demo.raceOps.map fun op => (op, Demo.env)) :=
  race_disciplined 0 Demo.course Demo.track _ rfl ⟨Or.inl rfl, rfl, rfl, rfl⟩ (by decide)

end FreshCity
