import FreshCity.RaceCheckpoints

/-!
# How many racers still race

A race that is run ends when its counter of waiting players comes to zero. Reaching
the last checkpoint and quitting both count down. The counter is compared with the
racers who have not finished, after every call.
-/
namespace FreshCity
open Imperative Prog Run

/-! ## Racers who have not finished -/

/-- How many racers are not past the last of `n` checkpoints. -/
def unfinishedAmong (n : ℕ) (racers : Map ℤ RacerInfo) : ℕ :=
  racers.values.countP fun info => decide (info.currentcp < (n : ℤ))

section Unfinished
variable {n : ℕ} {racers : Map ℤ RacerInfo} {p : ℤ} {info : RacerInfo}

/-- The racers without one of them, and that one. -/
theorem unfinishedAmong_erase (hinfo : racers.lookup p = some info) :
    unfinishedAmong n racers =
      unfinishedAmong n (racers.erase p) + if info.currentcp < n then 1 else 0 := by
  have hperm := Map.values_perm_erase hinfo
  simp only [unfinishedAmong, hperm.countP_eq, List.countP_cons, decide_eq_true_eq]

/-- The same, of a racer whose record is written. -/
theorem unfinishedAmong_adjust {g : RacerInfo → RacerInfo} (hinfo : racers.lookup p = some info) :
    unfinishedAmong n (racers.adjust p g) =
      unfinishedAmong n (racers.erase p) + if (g info).currentcp < n then 1 else 0 := by
  have hperm := Map.values_adjust_perm g hinfo
  simp only [unfinishedAmong, hperm.countP_eq, List.countP_cons, decide_eq_true_eq]

/-- A write that keeps the index of every racer. -/
theorem unfinishedAmong_adjust_same {g : RacerInfo → RacerInfo}
    (hg : ∀ info, (g info).currentcp = info.currentcp) :
    unfinishedAmong n (racers.adjust p g) = unfinishedAmong n racers := by
  have hvalues := Map.map_values_adjust (f := g)
    (g := fun info : RacerInfo => decide (info.currentcp < (n : ℤ))) (fun info => by rw [hg info])
    racers p
  have hcount := congrArg (List.countP id) hvalues
  rw [List.countP_map, List.countP_map] at hcount
  exact hcount

/-- All have finished. -/
theorem unfinishedAmong_eq_zero :
    unfinishedAmong n racers = 0 ↔ ∀ p info, racers.lookup p = some info → n ≤ info.currentcp := by
  simp only [unfinishedAmong, List.countP_eq_zero, decide_eq_true_eq, not_lt]
  constructor
  · exact fun h p info hinfo => h info (Map.mem_values_of_lookup hinfo)
  · intro h info hinfo
    obtain ⟨e, he, rfl⟩ := List.mem_map.mp hinfo
    exact h e.1 e.2 (AList.mem_lookup_iff.mpr he)

/-- Nobody has finished. -/
theorem unfinishedAmong_eq_length (h : ∀ p info, racers.lookup p = some info → info.currentcp < n) :
    unfinishedAmong n racers = racers.keys.length := by
  have hall : ∀ info ∈ racers.values, decide (info.currentcp < (n : ℤ)) = true := by
    intro info hinfo
    obtain ⟨e, he, rfl⟩ := List.mem_map.mp hinfo
    exact decide_eq_true (h e.1 e.2 (AList.mem_lookup_iff.mpr he))
  rw [unfinishedAmong, List.countP_eq_length.mpr hall]
  simp [Map.values, AList.keys, List.keys]

end Unfinished

/-- How many racers of a race have not finished. -/
def Racing.unfinished (race : Racing) : ℕ := unfinishedAmong race.checkpoints.length race.racers

/-! ## What a finish does -/

namespace Racing
variable {s : Server} {k p now : ℤ} {race : Racing}

/-- The race once a racer has moved on to the next checkpoint. -/
def movedOn (race : Racing) (p : ℤ) : Racing :=
  { race with
    racers := race.racers.adjust p fun info => { info with currentcp := info.currentcp + 1 } }

/-- The server once a racer has moved on. -/
def moveServer (k p : ℤ) (s : Server) : Server :=
  { s with races := s.races.adjust k fun race => race.movedOn p }

/-- The race once the finish of a racer is written down. -/
def finishedBy (race : Racing) (p now : ℤ) : Racing :=
  { race with
    racedata := { race.racedata with waitingplayer := race.racedata.waitingplayer - 1 }
    racers := race.racers.adjust p fun info => { info with
      usedtime := now - race.racedata.start
      sessionrank := race.racers.keys.length - (race.racedata.waitingplayer - 1) } }

/-- The server once a racer has finished. -/
def finishServer (k p : ℤ) (race : Racing) (s : Server) : Server :=
  { s with
    races := s.races.adjust k fun _ => race.finishedBy p s.env.time
    samp := { s.samp with raceCheckpoint := Function.update s.samp.raceCheckpoint p none }
    trace := .message p (.raceFinished (s.env.time - race.racedata.start)
      (race.racers.keys.length - (race.racedata.waitingplayer - 1))) ::
        .disablePlayerRaceCheckpoint p :: s.trace }

end Racing

namespace Racing
variable {s : Server} {k p now : ℤ} {race : Racing} {info : RacerInfo}

theorem playerFinish_running (hrace : s.races.lookup k = some race)
    (hstate : race.racedata.state = .inProgress) (hinfo : race.racers.lookup p = some info) :
    playerFinish k p s =
      when (race.racedata.waitingplayer - 1 = 0) (finish k) (finishServer k p race s) := by
  simp only [playerFinish, ref, modifyData, modifyRacer, modifyRace, disablePlayerRaceCheckpoint,
    sendClientMessage, emit, bind_apply, gets_apply, hrace, hinfo, orUndefined_some, pure_apply,
    modify_apply, when_true hstate, Map.adjust_adjust, finishServer]
  have hsame : (s.races.adjust k fun r => { r with
      racedata := { r.racedata with waitingplayer := race.racedata.waitingplayer - 1 }
      racers := r.racers.adjust p fun info => { info with
        usedtime := s.env.time - race.racedata.start
        sessionrank := race.racers.keys.length - (race.racedata.waitingplayer - 1) } }) =
      s.races.adjust k fun _ => race.finishedBy p s.env.time := by
    refine Map.adjust_congr fun r hr => ?_
    obtain rfl : race = r := Option.some.inj (hrace.symm.trans hr)
    rfl
  rw [hsame]

/-- A race that ends is taken off the registry, if it is kept under its starter. -/
theorem wp_finish_gone (hrace : s.races.lookup k = some race)
    (hstate : race.racedata.state = .inProgress) (hstarter : race.racedata.starter = k) :
    wp (finish k) (fun _ t => t.races.lookup k = none) (fun _ t => t.races.lookup k = none) s := by
  simp only [finish, ref, wp_bind, wp_gets, hrace, orUndefined_some, wp_pure, hstarter,
    when_true hstate]
  refine wp_mono (wp_forEach (I := fun _ => True) (J := fun _ _ => False) _ trivial
    fun _ _ _ _ => trivial) (fun _ t _ => ?_) (fun _ _ h => h.elim)
  simp only [mgrRemove, wp_bind, wp_gets, wp_modify]
  exact wp_forEach (I := fun u : Server => u.races.lookup k = none)
    (J := fun _ (u : Server) => u.races.lookup k = none) _ (AList.lookup_erase k _)
    fun r _ u hu => wp_destruct_races hu

end Racing

/-! ## Calls while the race is run -/

/-- The race once a racer has quit. -/
def Racing.without (race : Racing) (p : ℤ) : Racing :=
  { race with
    racedata := { race.racedata with waitingplayer := race.racedata.waitingplayer - 1 }
    racers := race.racers.erase p }

/-- What a call makes of a race that is run, unless the race ends. -/
def RaceOp.result (s : Server) (race : Racing) : RaceOp → Option Racing
  | quit p => if p ∈ s.profiles ∧ p ∈ race.racers then some (race.without p) else some race
  | playerReachCheckpoint p => match race.racers.lookup p with
    | none => some race
    | some info =>
      if info.currentcp + 1 ≠ race.checkpoints.length then some (race.movedOn p)
      else if race.racedata.waitingplayer - 1 = 0 then none
      else some ((race.movedOn p).finishedBy p s.env.time)
  | _ => some race

section Running
set_option synthInstance.maxSize 1000
variable {s : Server} {k p : ℤ} {race : Racing} {info : RacerInfo}

/-- A method that refuses to go on puts the race back as it was. -/
theorem wp_withRace_refuses {x : Method Racing Unit} (hrace : s.races.lookup k = some race)
    (hx : wp x (fun _ q => q.1 = race ∧ q.2 = s) (fun _ q => q.1 = race ∧ q.2 = s) (race, s)) :
    wp (Racing.withRace k x) (fun _ t => t.races.lookup k = some race)
      (fun _ t => t.races.lookup k = some race) s := by
  rw [Racing.withRace, wp_focus]
  intro r hr
  obtain rfl : race = r := Option.some.inj (hrace.symm.trans hr)
  refine wp_mono hx (fun _ q hq => ?_) (fun _ q hq => ?_)
  all_goals
    obtain ⟨rfl, rfl⟩ := hq
    exact Map.lookup_adjust_self hrace _

theorem wp_reach_result (hrace : s.races.lookup k = some race)
    (hstate : race.racedata.state = .inProgress) (hstarter : race.racedata.starter = k) :
    wp (Racing.playerReachCheckpoint k p)
      (fun _ t => t.races.lookup k = (RaceOp.playerReachCheckpoint p).result s race)
      (fun _ t => t.races.lookup k = (RaceOp.playerReachCheckpoint p).result s race) s := by
  cases hinfo : race.racers.lookup p with
  | none =>
    rw [wp_of_eq (playerReachCheckpoint_absent hrace hstate hinfo)]
    simpa [RaceOp.result, hinfo] using hrace
  | some info =>
    rw [wp_of_eq (playerReachCheckpoint_running hrace hstate hinfo)]
    simp only [RaceOp.result, hinfo]
    have hmoved := Map.lookup_adjust_self hrace fun race => race.movedOn p
    by_cases hlast : info.currentcp + 1 = race.checkpoints.length
    case neg =>
      rw [if_neg hlast, if_pos hlast]
      refine wp_mono (wp_showCheckpoint _) (fun _ t ht => ?_) (fun _ _ h => h.elim)
      obtain ⟨shown, trace, -, rfl⟩ := ht
      exact hmoved
    case pos =>
    rw [if_pos hlast, if_neg (not_not.mpr hlast)]
    have hracer : (race.movedOn p).racers.lookup p =
        some { info with currentcp := info.currentcp + 1 } := Map.lookup_adjust_self hinfo _
    have hdata : (race.movedOn p).racedata = race.racedata := rfl
    refine (wp_of_eq (Racing.playerFinish_running (s := Racing.moveServer k p s) hmoved hstate
      hracer)).mpr ?_
    rw [wp_when, hdata]
    have hfinished := Map.lookup_adjust_self hmoved fun _ =>
      (race.movedOn p).finishedBy p s.env.time
    split
    case isTrue => exact Racing.wp_finish_gone hfinished hstate hstarter
    case isFalse => exact hfinished

theorem wp_quit_result (hrace : s.races.lookup k = some race) :
    wp (do let _ ← profileMgr p; Racing.quit k p : Game Unit)
      (fun _ t => t.races.lookup k = (RaceOp.quit p).result s race)
      (fun _ t => t.races.lookup k = (RaceOp.quit p).result s race) s := by
  simp only [profileMgr, getItem, Racing.quit, Racing.ref, Racing.modifyData, Racing.modifyRace,
    Profile.delRaceJoined, Profile.modifyRace, disablePlayerRaceCheckpoint, emit, wp_bind, wp_gets,
    wp_orRaise, hrace, orUndefined_some, wp_pure, wp_raiseIf, wp_modify, RaceOp.result]
  refine ⟨fun pr hpr => ?_, fun hnone => ?_⟩
  · have hp : p ∈ s.profiles := Map.mem_iff_lookup.mpr ⟨pr, hpr⟩
    split
    case isTrue hout => rw [if_neg fun h => hout h.2]
    case isFalse hin =>
      rw [if_pos ⟨hp, not_not.mp hin⟩]
      simp [hrace, Racing.without]
  · rw [if_neg fun h => AList.lookup_eq_none.mp hnone h.1]

/-- What a call makes of a race that is run, whether it throws or not. -/
theorem wp_run_result {op : RaceOp} (hrace : s.races.lookup k = some race)
    (hstate : race.racedata.state = .inProgress) (hstarter : race.racedata.starter = k) :
    wp (op.run k) (fun _ t => t.races.lookup k = op.result s race)
      (fun _ t => t.races.lookup k = op.result s race) s := by
  rw [RaceOp.run.eq_def, wp_bind, racingMgr, wp_bind, wp_gets, hrace, getItem, orRaise_some,
    wp_pure]
  cases op with
  | appendCheckpoint pos =>
    refine wp_withRace_refuses hrace ?_
    simp [Racing.appendCheckpoint, hstate]
  | create =>
    refine wp_withRace_refuses hrace ?_
    simp [Racing.create, hstate]
  | join p =>
    simp only [profileMgr, getItem, wp_bind, wp_gets, wp_orRaise]
    refine ⟨fun _ _ => wp_withRace_refuses hrace ?_, fun _ => hrace⟩
    simp [Racing.join, hstate]
  | quit p => exact wp_quit_result hrace
  | ready => simp [Racing.ready, Racing.ref, hrace, hstate, RaceOp.result]
  | countDown => simp [Racing.countDown, Racing.ref, hrace, hstate, RaceOp.result]
  | playerReachCheckpoint p => exact wp_reach_result hrace hstate hstarter

end Running

/-! ## The counter -/

/-- The racers once a call has moved or removed the one it is about. -/
def RaceOp.racersAfter (s : Server) (race : Racing) : RaceOp → Map ℤ RacerInfo
  | quit p => if p ∈ s.profiles then race.racers.erase p else race.racers
  | playerReachCheckpoint p =>
    race.racers.adjust p fun info => { info with currentcp := info.currentcp + 1 }
  | _ => race.racers

/-- The counter of a race that is run is the number of racers who have not finished. -/
def Racing.Counts (race : Racing) : Prop :=
  race.racedata.state = .inProgress → race.racedata.waitingplayer = race.unfinished

/-- While the race is run, its counter is right after a step, and the race goes with the step that
leaves nobody unfinished. -/
structure RaceCounted (k : ℤ) (s : Server) (i : RaceOp × Env) (t : Server) : Prop where
  counts : ∀ race, t.races.lookup k = some race → race.Counts
  ends : ∀ race, s.races.lookup k = some race → race.racedata.state = .inProgress →
    (t.races.lookup k = none ↔ 0 < race.unfinished ∧
      unfinishedAmong race.checkpoints.length (i.1.racersAfter s race) = 0)

/-- A racer who quits a race that is run has not finished, and is not the last such. -/
def RaceOp.quitsInTime (k : ℤ) (s : Server) : RaceOp → Bool
  | quit p => (s.races.lookup k).all fun race => (race.racers.lookup p).all fun info =>
      decide (race.racedata.state = .inProgress → p ∈ s.profiles →
        info.currentcp < (race.checkpoints.length : ℤ) ∧ 1 < race.unfinished)
  | _ => true

namespace Racing
variable {s : Server} {k p now : ℤ} {race : Racing} {info : RacerInfo}

/-- A racer who moves on to a checkpoint that is there has not finished yet. -/
theorem unfinished_onward (hinfo : race.racers.lookup p = some info)
    (hlt : info.currentcp + 1 < race.checkpoints.length) :
    (race.movedOn p).unfinished = race.unfinished := by
  have hafter : (race.movedOn p).unfinished = unfinishedAmong race.checkpoints.length
      (race.racers.erase p) + if info.currentcp + 1 < race.checkpoints.length then 1 else 0 :=
    unfinishedAmong_adjust hinfo
  have hbefore : info.currentcp < race.checkpoints.length := by omega
  rw [hafter, if_pos hlt, unfinished, unfinishedAmong_erase hinfo, if_pos hbefore]

/-- A racer who moves on from the last checkpoint has. -/
theorem unfinished_last (hinfo : race.racers.lookup p = some info)
    (hlast : info.currentcp + 1 = race.checkpoints.length) :
    race.unfinished = (race.movedOn p).unfinished + 1 := by
  have hafter : (race.movedOn p).unfinished = unfinishedAmong race.checkpoints.length
      (race.racers.erase p) + if info.currentcp + 1 < race.checkpoints.length then 1 else 0 :=
    unfinishedAmong_adjust hinfo
  have hbefore : info.currentcp < race.checkpoints.length := by omega
  rw [hafter, if_neg (by omega), unfinished, unfinishedAmong_erase hinfo, if_pos hbefore]

theorem unfinished_finishedBy : (race.finishedBy p now).unfinished = race.unfinished :=
  unfinishedAmong_adjust_same fun _ => rfl

/-- The counter goes down with every quit, the number of unfinished racers only with that of one
who has not finished. -/
theorem counts_without (hstate : race.racedata.state = .inProgress)
    (hcounts : race.racedata.waitingplayer = race.unfinished)
    (hinfo : race.racers.lookup p = some info) :
    (race.without p).Counts ↔ info.currentcp < race.checkpoints.length := by
  have hwaiting : (race.without p).racedata.waitingplayer = race.unfinished - 1 := by
    rw [← hcounts]
    rfl
  have herase : race.unfinished =
      (race.without p).unfinished + if info.currentcp < race.checkpoints.length then 1 else 0 :=
    unfinishedAmong_erase hinfo
  have hrunning : (race.without p).racedata.state = .inProgress := hstate
  rw [Counts, hwaiting, imp_iff_right hrunning, herase]
  split
  case isTrue hlt => simp [hlt]
  case isFalse hle => simp [hle]

end Racing

/-! ## One step -/

section Steps
set_option synthInstance.maxSize 1000
variable {s t : Server} {k p : ℤ} {race : Racing} {info : RacerInfo} {i : RaceOp × Env}

/-- A call that leaves the race and its racers alone leaves the counter right. -/
theorem raceCounted_same (hrace : s.races.lookup k = some race)
    (hcounts : race.Counts) (hsame : t.races.lookup k = some race)
    (hracers : i.1.racersAfter s race = race.racers) : RaceCounted k s i t where
  counts r hr := by
    obtain rfl : race = r := Option.some.inj (hsame.symm.trans hr)
    exact hcounts
  ends r hr _ := by
    obtain rfl : race = r := Option.some.inj (hrace.symm.trans hr)
    rw [hsame, hracers]
    refine iff_of_false (by simp) fun h => ?_
    exact h.1.ne' h.2

theorem raceCounted_quit (hrace : s.races.lookup k = some race)
    (hstate : race.racedata.state = .inProgress)
    (hcounts : race.racedata.waitingplayer = race.unfinished) (hi : i.1 = .quit p)
    (ht : t.races.lookup k = i.1.result s race) :
    RaceCounted k s i t ↔ i.1.quitsInTime k s = true := by
  obtain ⟨op, env⟩ := i
  obtain rfl : op = .quit p := hi
  simp only [RaceOp.result] at ht
  by_cases hp : p ∈ s.profiles
  case neg =>
    rw [if_neg fun h => hp h.1] at ht
    refine iff_of_true (raceCounted_same hrace (fun _ => hcounts) ht (if_neg hp)) ?_
    simp [RaceOp.quitsInTime, hrace, hp]
  case pos =>
  cases hinfo : race.racers.lookup p with
  | none =>
    have hout : p ∉ race.racers := AList.lookup_eq_none.mp hinfo
    rw [if_neg fun h => hout h.2] at ht
    refine iff_of_true (raceCounted_same hrace (fun _ => hcounts) ht ?_) ?_
    · rw [RaceOp.racersAfter, if_pos hp, Map.erase_of_notMem hout]
    · simp [RaceOp.quitsInTime, hrace, hinfo]
  | some info =>
    have hin : p ∈ race.racers := Map.mem_iff_lookup.mpr ⟨info, hinfo⟩
    rw [if_pos ⟨hp, hin⟩] at ht
    have herase : race.unfinished = unfinishedAmong race.checkpoints.length (race.racers.erase p) +
        if info.currentcp < race.checkpoints.length then 1 else 0 := unfinishedAmong_erase hinfo
    have hintime : RaceOp.quitsInTime k s (.quit p) = true ↔
        info.currentcp < race.checkpoints.length ∧ 1 < race.unfinished := by
      simp [RaceOp.quitsInTime, hrace, hinfo, hstate, hp]
    rw [hintime]
    constructor
    · intro h
      have hlt := (Racing.counts_without hstate hcounts hinfo).mp (h.counts _ ht)
      have hends := h.ends race hrace hstate
      rw [ht, RaceOp.racersAfter, if_pos hp] at hends
      rw [if_pos hlt] at herase
      refine ⟨hlt, ?_⟩
      by_contra hlast
      exact absurd (hends.mpr ⟨by omega, by omega⟩) (by simp)
    · rintro ⟨hlt, hmore⟩
      refine ⟨fun r hr => ?_, fun r hr _ => ?_⟩
      · obtain rfl : race.without p = r := Option.some.inj (ht.symm.trans hr)
        exact (Racing.counts_without hstate hcounts hinfo).mpr hlt
      · obtain rfl : race = r := Option.some.inj (hrace.symm.trans hr)
        rw [ht, RaceOp.racersAfter, if_pos hp]
        rw [if_pos hlt] at herase
        exact iff_of_false (by simp) (by omega)

theorem raceCounted_reach (hrace : s.races.lookup k = some race)
    (hstate : race.racedata.state = .inProgress)
    (hcounts : race.racedata.waitingplayer = race.unfinished) (hi : i.1 = .playerReachCheckpoint p)
    (hinrange : i.1.inRange k s) (ht : t.races.lookup k = i.1.result s race) :
    RaceCounted k s i t := by
  obtain ⟨op, env⟩ := i
  obtain rfl : op = .playerReachCheckpoint p := hi
  simp only [RaceOp.result] at ht
  cases hinfo : race.racers.lookup p with
  | none =>
    rw [hinfo] at ht
    refine raceCounted_same hrace (fun _ => hcounts) ht ?_
    exact Map.adjust_eq_self fun info h => absurd (hinfo.symm.trans h) (by simp)
  | some info =>
    rw [hinfo] at ht
    have hlt : info.currentcp < race.checkpoints.length := hinrange race info hrace hstate hinfo
    have hends : (t.races.lookup k = none ↔ 0 < race.unfinished ∧ (race.movedOn p).unfinished = 0) →
        ∀ r, s.races.lookup k = some r → r.racedata.state = .inProgress →
        (t.races.lookup k = none ↔ 0 < r.unfinished ∧ unfinishedAmong r.checkpoints.length
          ((RaceOp.playerReachCheckpoint p).racersAfter s r) = 0) := by
      intro h r hr _
      obtain rfl : race = r := Option.some.inj (hrace.symm.trans hr)
      exact h
    by_cases hlast : info.currentcp + 1 = race.checkpoints.length
    case neg =>
      have hsame := Racing.unfinished_onward hinfo (by omega)
      simp only [if_pos hlast] at ht
      refine ⟨fun r hr _ => ?_, hends ?_⟩
      · obtain rfl : race.movedOn p = r := Option.some.inj (ht.symm.trans hr)
        rw [hsame]
        exact hcounts
      · rw [ht, hsame]
        exact iff_of_false (by simp) fun h => h.1.ne' h.2
    case pos =>
    have hless := Racing.unfinished_last hinfo hlast
    simp only [if_neg (not_not.mpr hlast)] at ht
    split at ht
    case isTrue hzero =>
      refine ⟨fun r hr => absurd (ht.symm.trans hr) (by simp), hends ?_⟩
      exact iff_of_true ht (by omega)
    case isFalse hmore =>
      refine ⟨fun r hr _ => ?_, hends ?_⟩
      · obtain rfl := Option.some.inj (ht.symm.trans hr)
        have hwaiting : ((race.movedOn p).finishedBy p s.env.time).racedata.waitingplayer =
            race.racedata.waitingplayer - 1 := rfl
        rw [Racing.unfinished_finishedBy, hwaiting]
        omega
      · rw [ht]
        exact iff_of_false (by simp) (by omega)

/-! ### The start -/

/-- A race that is run waits for all its racers. -/
def Server.WaitsForAll (k : ℤ) (s : Server) : Prop :=
  ∀ race, s.races.lookup k = some race → race.racedata.state = .inProgress →
    race.racedata.waitingplayer = race.racers.keys.length

theorem Server.waitsForAll_of_state (hrace : s.races.lookup k = some race)
    (hstate : race.racedata.state ≠ .inProgress) : s.WaitsForAll k := by
  intro r hr hrunning
  obtain rfl : race = r := Option.some.inj (hrace.symm.trans hr)
  exact absurd hrunning hstate

theorem wp_start_waits {c : Track} (hc : s.track k = some c) (hsound : c.Sound)
    (hready : c.state = .ready) :
    wp (Racing.start k) (fun _ => Server.WaitsForAll k) (fun _ _ => False) s := by
  obtain ⟨race, hrace, rfl⟩ := Server.track_eq_some.mp hc
  rw [wp_of_eq (start_ready hrace hready), wp_bind]
  have hbegun := Server.track_modifyData (fun d => { d with state := .inProgress }) hc
    fun _ _ => ⟨rfl, rfl⟩
  have hloop := wp_startRacers hbegun hsound hready (fun _ => Racing.isSome_progress.mp)
    race.racers.keys_nodup
  refine wp_mono hloop (fun _ t _ => ?_) (fun _ _ hf => hf)
  simp only [Racing.startClock, Racing.ref, Racing.modifyData, Racing.modifyRace, wp_bind, wp_gets,
    wp_orUndefined, wp_modify]
  intro r hr r' hr' _
  rw [Map.lookup_adjust_self hr] at hr'
  obtain rfl := Option.some.inj hr'
  rfl

theorem wp_countDown_waits {c : Track} (hc : s.track k = some c) (hsound : c.Sound)
    (hnot : c.state ≠ .inProgress) :
    wp (Racing.countDown k) (fun _ => Server.WaitsForAll k) (fun _ => Server.WaitsForAll k) s := by
  obtain ⟨race, hrace, rfl⟩ := Server.track_eq_some.mp hc
  simp only [Racing.countDown, Racing.ref, wp_bind, wp_gets, wp_orUndefined, wp_raiseIf, wp_ite]
  intro r hr
  obtain rfl : race = r := Option.some.inj (hrace.symm.trans hr)
  split
  case isTrue => exact Server.waitsForAll_of_state hrace hnot
  case isFalse hready =>
  split
  case isTrue =>
    have hstarted : ∀ t : Server, t.track k = s.track k → wp (do
        Racing.modifyData k fun d => { d with countdowntimerid := 0 }
        Racing.start k : Game Unit) (fun _ => Server.WaitsForAll k)
        (fun _ => Server.WaitsForAll k) t := by
      intro t ht
      have hstopped := Server.track_modifyData (fun d => { d with countdowntimerid := 0 })
        (ht.trans hc) fun _ hd => ⟨hd, rfl⟩
      rw [wp_bind, Racing.modifyData, Racing.modifyRace, wp_modify]
      exact wp_mono (wp_start_waits hstopped hsound (not_not.mp hready)) (fun _ _ hu => hu)
        (fun _ _ hf => hf.elim)
    rw [wp_when]
    split
    · simp only [destroyTimer, emit, wp_bind, wp_modify]
      exact hstarted _ rfl
    · exact hstarted s rfl
  case isFalse =>
    have hloop : wp (forEach (fun q => sendClientMessage q (.raceCountDown race.racedata.countdown))
        race.racers.keys : Game Unit) (fun _ t => t.races.lookup k = some race)
        (fun _ _ => False) s :=
      wp_forEach _ hrace fun q _ t ht => ht
    refine wp_mono hloop (fun _ t ht => ?_) (fun _ _ hf => hf.elim)
    exact Server.waitsForAll_of_state (Map.lookup_adjust_self ht _) hnot

/-- A race that starts counts all its racers, and none of them has finished. -/
theorem counts_of_starts {c c' : Track} (hsound : c.Sound) (hready : c.state = .ready)
    (hstarts : c.Starts c') (ht : t.track k = some c') (hwaits : t.WaitsForAll k)
    (hrace : t.races.lookup k = some race) : race.Counts := by
  intro hstate
  have htrack : race.track t.samp.raceCheckpoint = c' := by
    obtain ⟨r, hr, htrack⟩ := Server.track_eq_some.mp ht
    obtain rfl : race = r := Option.some.inj (hrace.symm.trans hr)
    exact htrack
  have hcps : race.checkpoints = c.checkpoints := by
    have hsame : c'.checkpoints = c.checkpoints := by rw [hstarts.same]
    rw [← hsame, ← htrack]
    rfl
  have hlong : 2 ≤ c.checkpoints.length := hsound.long (by simp [hready])
  rw [hwaits race hrace hstate, Racing.unfinished, unfinishedAmong_eq_length]
  intro p info hinfo
  have hi : c'.progress p = some info.currentcp := by simp [← htrack, Racing.track, hinfo]
  cases hp : c.progress p with
  | none =>
    rw [hstarts.absent p hp] at hi
    cases hi
  | some j =>
    rw [(hstarts.moved p (by simp [hp])).1] at hi
    have hone : 1 = info.currentcp := Option.some.inj hi
    rw [hcps]
    omega

/-! ### The invariant -/

theorem raceCounted_begin {env : Env} : RaceCounted k (s.begin env) i t ↔ RaceCounted k s i t := by
  have hracers : ∀ race, i.1.racersAfter (s.begin env) race = i.1.racersAfter s race := by
    intro race
    cases i.1 <;> rfl
  constructor
  · exact fun h => ⟨h.counts, fun race hrace hstate => by
      rw [← hracers]
      exact h.ends race hrace hstate⟩
  · exact fun h => ⟨h.counts, fun race hrace hstate => by
      rw [hracers]
      exact h.ends race hrace hstate⟩

/-- The race is sound and kept under its starter, and its counter is right, or it is gone. -/
structure CountedRace (k : ℤ) (s : Server) : Prop where
  sound : SoundRace k s
  starter : ∀ race, s.races.lookup k = some race → race.racedata.starter = k
  counts : ∀ race, s.races.lookup k = some race → race.Counts

/-- A call on a race that is run counts exactly if nobody quits too late. -/
theorem raceCounted_running (hs : CountedRace k s) (hrace : s.races.lookup k = some race)
    (hstate : race.racedata.state = .inProgress) (hstep : RaceOp.step k s i = some t) :
    RaceCounted k s i t ↔ i.1.quitsInTime k s = true := by
  obtain ⟨op, env⟩ := i
  have hcounts := hs.counts race hrace
  have ht := state_of_wp (P := fun t => t.races.lookup k = op.result (s.begin env) race)
    (wp_run_result (s := s.begin env) hrace hstate (hs.starter race hrace)) hstep
  rw [← raceCounted_begin]
  cases op with
  | quit p => exact raceCounted_quit (s := s.begin env) hrace hstate (hcounts hstate) rfl ht
  | playerReachCheckpoint p =>
    have hinrange := (isSome_step_iff hs.sound).mp (Option.isSome_of_eq_some hstep)
    exact iff_of_true (raceCounted_reach (s := s.begin env) hrace hstate (hcounts hstate) rfl
      hinrange ht) rfl
  | _ => exact iff_of_true (raceCounted_same (s := s.begin env) hrace hcounts ht rfl) rfl

/-- A race that is not run yet is run after its start only. -/
theorem Track.starts_of_moves {op : RaceOp} {c c' : Track} (h : op.Moves s k c c')
    (hnot : c.state ≠ .inProgress) (hruns : c'.state = .inProgress) :
    op = .countDown ∧ c.state = .ready ∧ c.Starts c' := by
  have hstays : c' ≠ c := by
    rintro rfl
    exact hnot hruns
  cases op with
  | appendCheckpoint pos =>
    obtain ⟨-, rfl⟩ := h.resolve_left hstays
    exact absurd hruns hnot
  | create =>
    obtain ⟨-, -, rfl⟩ := h.resolve_left hstays
    cases hruns
  | join p =>
    obtain ⟨-, -, shown, rfl, -⟩ := h.resolve_left hstays
    exact absurd hruns hnot
  | quit p =>
    obtain rfl := h.resolve_left hstays
    exact absurd hruns hnot
  | ready =>
    obtain ⟨-, rfl⟩ := h.resolve_left hstays
    cases hruns
  | countDown => exact ⟨rfl, h.resolve_left hstays⟩
  | playerReachCheckpoint p => exact absurd (h.resolve_left hstays).1 hnot

/-- Before the race is run, only its start concerns the counter. -/
theorem raceCounted_waiting (hs : CountedRace k s)
    (hwaiting : ∀ race, s.races.lookup k = some race → race.racedata.state ≠ .inProgress)
    (hstep : RaceOp.step k s i = some t) : RaceCounted k s i t := by
  refine ⟨fun race' hrace' hrunning => ?_,
    fun race hrace hstate => absurd hstate (hwaiting race hrace)⟩
  have ht : t.track k = some (race'.track t.samp.raceCheckpoint) :=
    Server.track_eq_some.mpr ⟨race', hrace', rfl⟩
  obtain ⟨c, hc, hmoves⟩ := moves_of_step hs.sound hstep ht
  obtain ⟨race, hrace, hrace_c⟩ := Server.track_eq_some.mp hc
  have hnot : c.state ≠ .inProgress := by
    rw [← hrace_c]
    exact hwaiting race hrace
  obtain ⟨op, env⟩ := i
  obtain ⟨rfl, hready, hstarts⟩ := Track.starts_of_moves hmoves hnot hrunning
  have hwaits : wp (RaceOp.countDown.run k) (fun _ => Server.WaitsForAll k)
      (fun _ => Server.WaitsForAll k) (s.begin env) := by
    rw [RaceOp.run.eq_def, wp_bind, racingMgr, wp_bind, wp_gets, show (s.begin env).races.lookup k =
      some race from hrace, getItem, orRaise_some, wp_pure]
    exact wp_countDown_waits (s := s.begin env) hc (hs.sound c hc) hnot
  have ht' := state_of_wp hwaits hstep
  exact counts_of_starts (hs.sound c hc) hready hstarts ht ht' hrace' hrunning

theorem raceCounted_iff (hs : CountedRace k s) (hstep : RaceOp.step k s i = some t) :
    RaceCounted k s i t ↔ i.1.quitsInTime k s = true := by
  by_cases hrunning : ∃ race, s.races.lookup k = some race ∧ race.racedata.state = .inProgress
  case pos =>
    obtain ⟨race, hrace, hstate⟩ := hrunning
    exact raceCounted_running hs hrace hstate hstep
  case neg =>
    have hwaiting : ∀ race, s.races.lookup k = some race → race.racedata.state ≠ .inProgress :=
      fun race hrace hstate => hrunning ⟨race, hrace, hstate⟩
    refine iff_of_true (raceCounted_waiting hs hwaiting hstep) ?_
    obtain ⟨op, env⟩ := i
    cases op with
    | quit p =>
      simp only [RaceOp.quitsInTime, Option.all_eq_true, decide_eq_true_eq]
      exact fun race hrace info _ hstate => absurd hstate (hwaiting race hrace)
    | _ => rfl

theorem CountedRace.step (hs : CountedRace k s) (hstep : RaceOp.step k s i = some t)
    (hop : i.1.quitsInTime k s = true) : CountedRace k t where
  sound := hs.sound.step hstep
  starter race' hrace' := by
    obtain ⟨c, hc, hmoves⟩ := moves_of_step hs.sound hstep
      (Server.track_eq_some.mpr ⟨race', hrace', rfl⟩)
    obtain ⟨race, hrace, rfl⟩ := Server.track_eq_some.mp hc
    exact (Track.starter_of_moves hmoves).trans (hs.starter race hrace)
  counts := ((raceCounted_iff hs hstep).mpr hop).counts

end Steps

/-! ## Runs -/

/-- In a run of calls on a race that is kept under its starter, the counter of waiting players is
the number of racers who have not finished, and the race ends when that comes to zero, exactly if
nobody quits a race that is run after finishing, or as the last who has not finished. -/
theorem races_count_iff {k : ℤ} {s : Server} (race : Racing) (ops : List (RaceOp × Env))
    (hrace : s.races.lookup k = some race) (hnew : race.New)
    (hlong : race.racedata.state ≠ .building → 2 ≤ race.checkpoints.length)
    (hstarter : race.racedata.starter = k) :
    AllSteps (RaceOp.step k) (RaceCounted k) s ops ↔
      Meets (RaceOp.step k) (fun s i => i.1.quitsInTime k s = true) s ops := by
  refine allSteps_iff_meets (I := CountedRace k) (fun _ _ _ hs hstep => raceCounted_iff hs hstep)
    (fun _ _ _ hs hstep hop => hs.step hstep hop) ?_
  have hfirst : ∀ r, s.races.lookup k = some r → r = race := fun r hr =>
    Option.some.inj (hr.symm.trans hrace)
  refine ⟨hnew.sound hrace hlong, fun r hr => ?_, fun r hr hstate => ?_⟩
  · rw [hfirst r hr]
    exact hstarter
  · rw [hfirst r hr] at hstate
    rcases hnew.state with hbuilding | hjoining
    · exact absurd (hbuilding.symm.trans hstate) (by simp)
    · exact absurd (hjoining.symm.trans hstate) (by simp)

theorem races_count_track :
    AllSteps (RaceOp.step 0) (RaceCounted 0) Demo.course
        (Demo.raceOps.map fun op => (op, Demo.env)) ↔
      Meets (RaceOp.step 0) (fun s i => i.1.quitsInTime 0 s = true) Demo.course
        (Demo.raceOps.map fun op => (op, Demo.env)) :=
  races_count_iff Demo.track _ rfl ⟨Or.inl rfl, rfl, rfl, rfl⟩ (fun h => absurd rfl h) rfl

namespace Demo

/-- Two racers, and one of them finishes. -/
def oneFinishes : List RaceOp :=
  [.appendCheckpoint ⟨0, 0, 0⟩, .appendCheckpoint ⟨1, 0, 0⟩, .create, .join 0, .join 1, .ready,
    .countDown, .countDown, .countDown, .countDown, .countDown, .countDown,
    .playerReachCheckpoint 1]

/-- A test for the counter of a race. -/
def counts (s : Server) : Bool :=
  (s.races.lookup 0).all fun race => decide (race.racedata.state = .inProgress →
    race.racedata.waitingplayer = race.unfinished)

theorem counts_of_raceCounted {s t : Server} {i : RaceOp × Env} (h : RaceCounted 0 s i t) :
    counts t = true := by
  simp only [counts, Option.all_eq_true, decide_eq_true_eq]
  exact h.counts

end Demo

/-- A racer who has finished quits, and nobody is waited for while one still races. -/
theorem finisher_quits : ¬∀ ops : List (RaceOp × Env),
    AllSteps (RaceOp.step 0) (RaceCounted 0) Demo.course ops := fun h =>
  not_allSteps (T := RaceCounted 0) (Demo.oneFinishes.map fun op => (op, Demo.env))
    (.quit 1, Demo.env) (fun _ t => Demo.counts t)
    (fun _ _ ht => Demo.counts_of_raceCounted ht) (by decide +kernel) (h _)

end FreshCity
