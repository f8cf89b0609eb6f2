import FreshCity.RaceCounting

/-!
# How the racers are ranked

Once a race is run, its racers come to its checkpoints in any order. A log of the
callbacks says who came and which rank they were told. The record of the race agrees
with the log, so the ranks are the order in which the racers finish, and the race
goes with the last of them.
-/
namespace FreshCity
open Imperative Prog Run

/-! ## Logs of a race -/

/-- The rank that an effect tells a player. -/
def Effect.rankTo (p : ℤ) : Effect → Option ℤ
  | .message q (.raceFinished _ rank) => if q = p then some rank else none
  | _ => none

/-- The rank that a player was told last. -/
def Server.rankTold (s : Server) (p : ℤ) : Option ℤ := s.trace.findSome? (Effect.rankTo p)

/-- Who came to a checkpoint, and the rank they were told then; the latest first. -/
abbrev RaceLog := List (ℤ × Option ℤ)

namespace RaceLog

def callbacks (p : ℤ) (log : RaceLog) : ℕ := log.countP fun e => e.1 = p

def finished (p : ℤ) (log : RaceLog) : Bool := log.any fun e => decide (e.1 = p) && e.2.isSome

/-- The ranks that were told, the latest first. -/
def ranks (log : RaceLog) : List ℤ := log.filterMap Prod.snd

/-- The callback of a player, and what it told them. -/
def note (_ : Server) (log : RaceLog) (i : ℤ × Env) (t : Server) : RaceLog :=
  (i.1, t.rankTold i.1) :: log

end RaceLog

/-- The numbers from `n` down to one. -/
def descending : ℕ → List ℤ
  | 0 => []
  | n + 1 => (n + 1) :: descending n

/-- A player comes to a race checkpoint. -/
def Server.enterCheckpoint (s : Server) (i : ℤ × Env) : Option Server :=
  s.step (.enterRaceCheckpoint i.1, i.2)

/-- What a callback may do to a race that was started with its racers. -/
structure RaceRanked (k : ℤ) (race : Racing) (w : Server × RaceLog) (i : ℤ × Env)
    (u : Server × RaceLog) : Prop where
  told : u.2 = (i.1, if w.2.callbacks i.1 + 1 = race.checkpoints.length - 1 then
    some (w.2.ranks.length + 1 : ℤ) else none) :: w.2
  recorded : ∀ r p rank info, u.1.races.lookup k = some r → (p, some rank) ∈ u.2 →
    r.racers.lookup p = some info → info.sessionrank = rank
  ranks : u.2.ranks = descending u.2.ranks.length
  gone : u.1.races.lookup k = none ↔ u.2.ranks.length = race.racers.keys.length
  free : u.1.races.lookup k = none → ∀ p ∈ race.racers, u.1.raceOf p = none

/-- A race that is counted down to its start, with its racers waiting. -/
structure Racing.AtStart (k : ℤ) (s : Server) (race : Racing) : Prop where
  registered : s.races.lookup k = some race
  state : race.racedata.state = .ready
  starter : race.racedata.starter = k
  long : 2 ≤ race.checkpoints.length
  manned : race.racers.keys ≠ []
  waiting : ∀ p info, race.racers.lookup p = some info → info.currentcp = 0
  joined : ∀ p ∈ race.racers, s.raceOf p = some k

/-- The callback of a racer who has not finished. -/
def Racing.stillRaces (race : Racing) (w : Server × RaceLog) (i : ℤ × Env) : Bool :=
  decide (i.1 ∈ race.racers) && !w.2.finished i.1

/-! ## The record agrees with the log -/

/-- The race is run, and its record agrees with the log. -/
structure Racing.Running (k : ℤ) (race : Racing) (w : Server × RaceLog) (r : Racing) : Prop where
  registered : w.1.races.lookup k = some r
  state : r.racedata.state = .inProgress
  starter : r.racedata.starter = k
  checkpoints : r.checkpoints = race.checkpoints
  keys : r.racers.keys = race.racers.keys
  index : ∀ p info, r.racers.lookup p = some info → info.currentcp = 1 + w.2.callbacks p
  finished : ∀ p info, r.racers.lookup p = some info →
    if w.2.finished p then info.currentcp = race.checkpoints.length
    else info.currentcp < race.checkpoints.length
  recorded : ∀ p rank info, (p, some rank) ∈ w.2 → r.racers.lookup p = some info →
    info.sessionrank = rank
  counts : r.racedata.waitingplayer = r.unfinished
  waiting : r.racedata.waitingplayer + w.2.ranks.length = race.racers.keys.length
  positive : 0 < r.racedata.waitingplayer
  joined : ∀ p ∈ race.racers, w.1.raceOf p = some k
  ranks : w.2.ranks = descending w.2.ranks.length

/-- The race is gone, after all its racers have finished. -/
structure Racing.Over (k : ℤ) (race : Racing) (w : Server × RaceLog) : Prop where
  gone : w.1.races.lookup k = none
  all : ∀ p ∈ race.racers, w.2.finished p = true
  length : w.2.ranks.length = race.racers.keys.length
  free : ∀ p ∈ race.racers, w.1.raceOf p = none
  ranks : w.2.ranks = descending w.2.ranks.length

namespace RaceLog
variable {p q rank : ℤ} {o : Option ℤ} {log : RaceLog}

@[simp] theorem callbacks_cons : callbacks q ((p, o) :: log) =
    callbacks q log + if p = q then 1 else 0 := by
  simp [callbacks, List.countP_cons]

@[simp] theorem finished_cons :
    finished q ((p, o) :: log) = (decide (p = q) && o.isSome || finished q log) := by
  simp [finished]

@[simp] theorem ranks_none : ranks ((p, none) :: log) = ranks log := by simp [ranks]

@[simp] theorem ranks_some : ranks ((p, some rank) :: log) = rank :: ranks log := by simp [ranks]

theorem finished_of_mem (h : (p, some rank) ∈ log) : finished p log = true :=
  List.any_eq_true.mpr ⟨_, h, by simp⟩

end RaceLog

/-! ## What a callback does -/

section Callbacks
set_option synthInstance.maxSize 1000
variable {s t : Server} {k p : ℤ} {race r : Racing} {info : RacerInfo}

/-- An effect that tells nobody a rank. -/
theorem Server.rankTold_cons {e : Effect} (he : e.rankTo p = none) (ht : t.trace = e :: s.trace) :
    t.rankTold p = s.rankTold p := by
  rw [Server.rankTold, ht, List.findSome?_cons_of_isNone (by simp [he]), Server.rankTold]

/-- The callback of a racer is passed on to the race. -/
theorem wp_enterRaceCheckpoint {P : Server → Prop} (hjoined : s.raceOf p = some k)
    (hrace : s.races.lookup k = some r)
    (h : wp (Racing.playerReachCheckpoint k p) (fun _ => P) (fun _ _ => False) s) :
    wp (Event.run (.enterRaceCheckpoint p)) (fun _ => P) (fun _ => P) s := by
  obtain ⟨pr, hpr, hk⟩ := Option.bind_eq_some_iff.mp hjoined
  simp only [Event.run, onPlayerEnterRaceCheckpoint, reported, profileMgr, racingMgr, getItem,
    Profile.getVar, Profile.ref, wp_discard, wp_bind, wp_handle, wp_gets, hpr, hrace, hk,
    orRaise_some, orUndefined_some, wp_pure, Option.isSome_some, when_true]
  exact wp_mono h (fun _ _ ht => ht) (fun _ _ hf => hf.elim)

theorem wp_showCheckpoint_told {i : ℕ} : wp (r.showCheckpoint p i)
    (fun _ t => t.rankTold p = s.rankTold p) (fun _ _ => True) s := by
  simp only [Racing.showCheckpoint, setPlayerRaceCheckpoint, emit, wp_bind, wp_orUndefined, wp_ite,
    wp_modify]
  intro pos _
  split
  · exact Server.rankTold_cons rfl rfl
  · exact fun _ _ => Server.rankTold_cons rfl rfl

/-- A racer who is not at the last checkpoint moves on and is told nothing. -/
theorem wp_reach_onward (hrace : s.races.lookup k = some r)
    (hstate : r.racedata.state = .inProgress) (hinfo : r.racers.lookup p = some info)
    (hinner : info.currentcp + 1 ≠ r.checkpoints.length) :
    wp (Racing.playerReachCheckpoint k p)
      (fun _ t => t.races.lookup k = some (r.movedOn p) ∧ t.profiles = s.profiles ∧
        t.rankTold p = s.rankTold p) (fun _ _ => False) s := by
  rw [wp_of_eq (playerReachCheckpoint_running hrace hstate hinfo), if_neg hinner]
  refine wp_mono (wp_and (wp_showCheckpoint _) wp_showCheckpoint_told) (fun _ t ht => ?_)
    (fun _ _ h => h.1)
  obtain ⟨⟨shown, trace, -, rfl⟩, htold⟩ := ht
  exact ⟨Map.lookup_adjust_self hrace _, rfl, htold⟩

/-- The destructor lets the racers go. -/
theorem wp_destruct_free (hthere : ∀ q ∈ r.racers.keys, q ∈ s.profiles) :
    wp r.destruct (fun _ t => t.races = s.races ∧ t.rankTold p = s.rankTold p ∧
      ∀ q ∈ r.racers.keys, t.raceOf q = none) (fun _ _ => False) s := by
  have hloop : ∀ t : Server, t.races = s.races → t.rankTold p = s.rankTold p →
      t.profiles = s.profiles → wp (forEach (fun q => do
        native (.togglePlayerControllable q true)
        disablePlayerRaceCheckpoint q
        let _ ← profileMgr q
        Profile.delRaceJoined q) r.racers.keys)
      (fun _ t => t.races = s.races ∧ t.rankTold p = s.rankTold p ∧
        ∀ q ∈ r.racers.keys, t.raceOf q = none) (fun _ _ => False) t := by
    intro t hraces htold hprofiles
    refine wp_mono (wp_forEach_visited (J := fun _ _ => False)
      (I := fun pre t => (t.races = s.races ∧ t.rankTold p = s.rankTold p) ∧
        (∀ q ∈ r.racers.keys, q ∈ t.profiles) ∧ ∀ q ∈ pre, t.raceOf q = none)
      ⟨⟨hraces, htold⟩, by rwa [hprofiles], fun q hq => absurd hq List.not_mem_nil⟩
      fun pre q post has u hu => ?_) (fun _ u hu => ⟨hu.1.1, hu.1.2, hu.2.2⟩) (fun _ _ hf => hf)
    obtain ⟨⟨hraces, htold⟩, hthere, hfree⟩ := hu
    obtain ⟨pr, hpr⟩ := Map.mem_iff_lookup.mp (hthere q (by simp [has]))
    simp only [native, disablePlayerRaceCheckpoint, emit, profileMgr, getItem,
      Profile.delRaceJoined, Profile.modifyRace, wp_bind, wp_modify, wp_gets, hpr, orRaise_some,
      wp_pure]
    refine ⟨⟨hraces, ?_⟩, fun q hq => by simpa using hthere q hq, fun q' hq' => ?_⟩
    · simpa [Server.rankTold, Effect.rankTo, List.findSome?_cons] using htold
    · change (u.clearRace q).raceOf q' = none
      rw [raceOf_clearRace]
      split
      · rfl
      case isFalse hne => exact hfree q' (by simpa [hne] using hq')
  rw [Racing.destruct, wp_bind, wp_when]
  split
  · simp only [destroyTimer, emit, wp_bind, wp_modify]
    exact hloop _ rfl (Server.rankTold_cons rfl rfl) rfl
  · exact hloop s rfl rfl rfl

/-- A race that ends is taken off the registry, and lets its racers go. -/
theorem wp_finish_free (hrace : s.races.lookup k = some r) (hstate : r.racedata.state = .inProgress)
    (hstarter : r.racedata.starter = k) (hthere : ∀ q ∈ r.racers.keys, q ∈ s.profiles) :
    wp (Racing.finish k) (fun _ t => t.races.lookup k = none ∧ t.rankTold p = s.rankTold p ∧
      ∀ q ∈ r.racers.keys, t.raceOf q = none) (fun _ _ => False) s := by
  simp only [Racing.finish, Racing.ref, wp_bind, wp_gets, hrace, orUndefined_some, wp_pure,
    hstarter, when_true hstate]
  have hloop : wp (forEach (fun q => sendClientMessage q .raceEnds) r.racers.keys : Game Unit)
      (fun _ t => t.races = s.races ∧ t.profiles = s.profiles ∧ t.rankTold p = s.rankTold p)
      (fun _ _ => False) s :=
    wp_forEach _ ⟨rfl, rfl, rfl⟩ fun q _ t ht =>
      ⟨ht.1, ht.2.1, (Server.rankTold_cons (s := t) rfl rfl).trans ht.2.2⟩
  refine wp_mono hloop (fun _ t ht => ?_) (fun _ _ hf => hf)
  obtain ⟨hraces, hprofiles, htold⟩ := ht
  simp only [Racing.mgrRemove, wp_bind, wp_gets, wp_modify, hraces, hrace, Option.toList, forEach]
  refine wp_mono (wp_destruct_free (p := p) ?_) (fun _ u hu => ?_) (fun _ _ hf => hf)
  · exact fun q hq => hprofiles ▸ hthere q hq
  · obtain ⟨hgone, hkept, hfree⟩ := hu
    refine ⟨?_, hkept.trans htold, hfree⟩
    rw [hgone]
    exact AList.lookup_erase k _

/-- A racer who finishes is told a rank. -/
theorem rankTold_finishServer : (Racing.finishServer k p r s).rankTold p =
    some (r.racers.keys.length - (r.racedata.waitingplayer - 1)) := by
  simp [Server.rankTold, Racing.finishServer, Effect.rankTo]

/-- A racer who finishes, and is not the last to do so. -/
theorem wp_reach_finish (hrace : s.races.lookup k = some r)
    (hstate : r.racedata.state = .inProgress) (hinfo : r.racers.lookup p = some info)
    (hlast : info.currentcp + 1 = r.checkpoints.length) (hmore : r.racedata.waitingplayer - 1 ≠ 0) :
    wp (Racing.playerReachCheckpoint k p)
      (fun _ t => t.races.lookup k = some ((r.movedOn p).finishedBy p s.env.time) ∧
        t.profiles = s.profiles ∧
        t.rankTold p = some (r.racers.keys.length - (r.racedata.waitingplayer - 1)))
      (fun _ _ => False) s := by
  rw [wp_of_eq (playerReachCheckpoint_running hrace hstate hinfo), if_pos hlast]
  have hmoved := Map.lookup_adjust_self hrace fun race => race.movedOn p
  have hracer : (r.movedOn p).racers.lookup p =
      some { info with currentcp := info.currentcp + 1 } := Map.lookup_adjust_self hinfo _
  refine (wp_of_eq (Racing.playerFinish_running (s := Racing.moveServer k p s) hmoved hstate
    hracer)).mpr ?_
  have hdata : (r.movedOn p).racedata = r.racedata := rfl
  have hkeys : (r.movedOn p).racers.keys = r.racers.keys := Map.keys_adjust ..
  rw [wp_when, hdata, if_neg hmore]
  refine ⟨Map.lookup_adjust_self hmoved _, rfl, ?_⟩
  rw [rankTold_finishServer, hdata, hkeys]

/-- The last racer who finishes ends the race. -/
theorem wp_reach_end (hrace : s.races.lookup k = some r)
    (hstate : r.racedata.state = .inProgress) (hstarter : r.racedata.starter = k)
    (hinfo : r.racers.lookup p = some info) (hlast : info.currentcp + 1 = r.checkpoints.length)
    (hend : r.racedata.waitingplayer - 1 = 0) (hthere : ∀ q ∈ r.racers.keys, q ∈ s.profiles) :
    wp (Racing.playerReachCheckpoint k p)
      (fun _ t => t.races.lookup k = none ∧ t.rankTold p = some (r.racers.keys.length : ℤ) ∧
        ∀ q ∈ r.racers.keys, t.raceOf q = none)
      (fun _ _ => False) s := by
  rw [wp_of_eq (playerReachCheckpoint_running hrace hstate hinfo), if_pos hlast]
  have hmoved := Map.lookup_adjust_self hrace fun race => race.movedOn p
  have hracer : (r.movedOn p).racers.lookup p =
      some { info with currentcp := info.currentcp + 1 } := Map.lookup_adjust_self hinfo _
  refine (wp_of_eq (Racing.playerFinish_running (s := Racing.moveServer k p s) hmoved hstate
    hracer)).mpr ?_
  have hdata : (r.movedOn p).racedata = r.racedata := rfl
  have hmovedkeys : (r.movedOn p).racers.keys = r.racers.keys := Map.keys_adjust ..
  have hkeys : ((r.movedOn p).finishedBy p s.env.time).racers.keys = r.racers.keys :=
    (Map.keys_adjust ..).trans hmovedkeys
  rw [wp_when, hdata, if_pos hend]
  have hfinished := Map.lookup_adjust_self hmoved fun _ => (r.movedOn p).finishedBy p s.env.time
  refine wp_mono (wp_finish_free (p := p) hfinished hstate hstarter ?_) (fun _ t ht => ?_)
    (fun _ _ hf => hf)
  · rw [hkeys]
    exact hthere
  · obtain ⟨hgone, htold, hfree⟩ := ht
    rw [hkeys] at hfree
    refine ⟨hgone, htold.trans ?_, hfree⟩
    rw [rankTold_finishServer, hmovedkeys, hdata, hend, sub_zero]

end Callbacks

/-! ## One step -/

namespace Racing.Running
variable {k p : ℤ} {race r : Racing} {w : Server × RaceLog} {t : Server} {info : RacerInfo}

theorem mem_racers (h : Running k race w r) {q : ℤ} : q ∈ r.racers ↔ q ∈ race.racers := by
  rw [AList.mem_keys, h.keys, AList.mem_keys]

/-- A racer of the race at its start is still one. -/
theorem racer (h : Running k race w r) (hp : p ∈ race.racers)
    (hunfinished : w.2.finished p = false) :
    ∃ info, r.racers.lookup p = some info ∧ info.currentcp < race.checkpoints.length := by
  obtain ⟨info, hinfo⟩ := Map.mem_iff_lookup.mp (h.mem_racers.mpr hp)
  have hindex := h.finished p info hinfo
  rw [hunfinished, if_neg Bool.false_ne_true] at hindex
  exact ⟨info, hinfo, hindex⟩

/-- A racer who came is in the log once more, and the others are as often as before. -/
theorem index_cons (h : Running k race w r) {o : Option ℤ} {q : ℤ} {g : RacerInfo → RacerInfo}
    (hg : ∀ info, (g info).currentcp = info.currentcp + 1) {info' : RacerInfo}
    (hinfo' : (r.racers.adjust p g).lookup q = some info') :
    info'.currentcp = 1 + RaceLog.callbacks q ((p, o) :: w.2) := by
  rw [Map.lookup_adjust] at hinfo'
  rw [RaceLog.callbacks_cons]
  split at hinfo'
  case isTrue heq =>
    obtain ⟨info, hinfo, rfl⟩ := Option.map_eq_some_iff.mp hinfo'
    rw [hg, h.index p info hinfo, if_pos heq.symm, heq]
    push_cast
    ring
  case isFalse hne =>
    rw [h.index q info' hinfo', if_neg (Ne.symm hne)]
    simp

/-- A racer moves on, and is told nothing. -/
theorem onward (h : Running k race w r) (hinfo : r.racers.lookup p = some info)
    (hunfinished : w.2.finished p = false) (hlt : info.currentcp + 1 < race.checkpoints.length)
    (hraces : t.races.lookup k = some (r.movedOn p)) (hprofiles : t.profiles = w.1.profiles) :
    Running k race (t, (p, none) :: w.2) (r.movedOn p) where
  registered := hraces
  state := h.state
  starter := h.starter
  checkpoints := h.checkpoints
  keys := (Map.keys_adjust ..).trans h.keys
  index q info' hinfo' := h.index_cons (fun _ => rfl) hinfo'
  finished q info' hinfo' := by
    rw [Racing.movedOn, Map.lookup_adjust] at hinfo'
    rw [RaceLog.finished_cons, Option.isSome_none, Bool.and_false, Bool.false_or]
    split at hinfo'
    case isTrue heq =>
      rw [hinfo] at hinfo'
      obtain rfl := Option.some.inj hinfo'
      rw [heq, hunfinished, if_neg Bool.false_ne_true]
      exact hlt
    case isFalse => exact h.finished q info' hinfo'
  recorded q rank info' hmem hinfo' := by
    have hold : (q, some rank) ∈ w.2 := by simpa using hmem
    rw [Racing.movedOn, Map.lookup_adjust] at hinfo'
    split at hinfo'
    case isTrue heq =>
      rw [heq] at hold
      exact absurd (RaceLog.finished_of_mem hold) (by simp [hunfinished])
    case isFalse => exact h.recorded q rank info' hold hinfo'
  counts := by
    rw [Racing.unfinished_onward hinfo (by rwa [h.checkpoints])]
    exact h.counts
  waiting := by
    rw [RaceLog.ranks_none]
    exact h.waiting
  positive := h.positive
  joined q hq := by
    rw [Server.raceOf, hprofiles]
    exact h.joined q hq
  ranks := by simpa using h.ranks

/-- A racer finishes, but not as the last one. -/
theorem finish (h : Running k race w r) (hinfo : r.racers.lookup p = some info)
    (hunfinished : w.2.finished p = false) (hlast : info.currentcp + 1 = race.checkpoints.length)
    (hmore : r.racedata.waitingplayer - 1 ≠ 0) {now : ℤ}
    (hraces : t.races.lookup k = some ((r.movedOn p).finishedBy p now))
    (hprofiles : t.profiles = w.1.profiles) :
    Running k race (t, (p, some (w.2.ranks.length + 1 : ℤ)) :: w.2)
      ((r.movedOn p).finishedBy p now) := by
  have hwaiting : ((r.movedOn p).finishedBy p now).racedata.waitingplayer =
      r.racedata.waitingplayer - 1 := rfl
  have hkeys : (r.movedOn p).racers.keys = r.racers.keys := Map.keys_adjust ..
  have hrank : (r.racers.keys.length : ℤ) - (r.racedata.waitingplayer - 1) =
      w.2.ranks.length + 1 := by
    have hsum := h.waiting
    rw [← h.keys] at hsum
    omega
  have hracers : ((r.movedOn p).finishedBy p now).racers = r.racers.adjust p fun info => {
      currentcp := info.currentcp + 1
      usedtime := now - r.racedata.start
      sessionrank := w.2.ranks.length + 1 } := by
    refine (Map.adjust_adjust ..).trans (Map.adjust_congr fun info _ => ?_)
    rw [← hrank, ← hkeys]
    rfl
  refine ⟨hraces, h.state, h.starter, h.checkpoints, ?_, fun q info' hinfo' => ?_,
    fun q info' hinfo' => ?_, fun q rank info' hmem hinfo' => ?_, ?_, ?_, ?_, fun q hq => ?_, ?_⟩
  · rw [hracers, Map.keys_adjust]
    exact h.keys
  · rw [hracers] at hinfo'
    exact h.index_cons (fun _ => rfl) hinfo'
  · rw [hracers, Map.lookup_adjust] at hinfo'
    rw [RaceLog.finished_cons, Option.isSome_some, Bool.and_true]
    split at hinfo'
    case isTrue heq =>
      rw [hinfo] at hinfo'
      obtain rfl := Option.some.inj hinfo'
      rw [heq, decide_eq_true rfl, Bool.true_or, if_pos rfl]
      exact hlast
    case isFalse hne =>
      rw [decide_eq_false (Ne.symm hne), Bool.false_or]
      exact h.finished q info' hinfo'
  · rw [hracers, Map.lookup_adjust] at hinfo'
    rw [List.mem_cons, Prod.mk.injEq, Option.some.injEq] at hmem
    split at hinfo'
    case isTrue heq =>
      obtain ⟨old, -, rfl⟩ := Option.map_eq_some_iff.mp hinfo'
      rcases hmem with ⟨-, rfl⟩ | hold
      · rfl
      · rw [heq] at hold
        exact absurd (RaceLog.finished_of_mem hold) (by simp [hunfinished])
    case isFalse hne =>
      exact h.recorded q rank info' (hmem.resolve_left fun hp => hne hp.1) hinfo'
  · have hless := Racing.unfinished_last hinfo (by rwa [h.checkpoints])
    rw [Racing.unfinished_finishedBy, hwaiting, h.counts, hless]
    push_cast
    ring
  · have hsum := h.waiting
    rw [hwaiting, RaceLog.ranks_some, List.length_cons]
    push_cast
    omega
  · have hpositive := h.positive
    rw [hwaiting]
    omega
  · rw [Server.raceOf, hprofiles]
    exact h.joined q hq
  · rw [RaceLog.ranks_some, List.length_cons, descending, ← h.ranks]

/-- The last racer finishes. -/
theorem ends (h : Running k race w r) (hinfo : r.racers.lookup p = some info)
    (hlast : info.currentcp + 1 = race.checkpoints.length) (hend : r.racedata.waitingplayer - 1 = 0)
    (hraces : t.races.lookup k = none) (hfree : ∀ q ∈ race.racers, t.raceOf q = none) :
    Over k race (t, (p, some (w.2.ranks.length + 1 : ℤ)) :: w.2) := by
  have hless := Racing.unfinished_last hinfo (by rwa [h.checkpoints])
  have hcounts := h.counts
  have hzero : (r.movedOn p).unfinished = 0 := by omega
  refine ⟨hraces, fun q hq => ?_, ?_, hfree, ?_⟩
  · rw [RaceLog.finished_cons, Option.isSome_some, Bool.and_true, Bool.or_eq_true,
      decide_eq_true_eq]
    by_cases hqp : p = q
    · exact Or.inl hqp
    right
    obtain ⟨info', hinfo'⟩ := Map.mem_iff_lookup.mp (h.mem_racers.mpr hq)
    have hpassed := unfinishedAmong_eq_zero.mp hzero q info' (by
      rw [Racing.movedOn, Map.lookup_adjust, if_neg (Ne.symm hqp), hinfo'])
    have hindex := h.finished q info' hinfo'
    by_contra hnot
    rw [if_neg hnot, ← h.checkpoints] at hindex
    exact absurd hpassed (not_le.mpr hindex)
  · have hsum := h.waiting
    rw [RaceLog.ranks_some, List.length_cons]
    omega
  · rw [RaceLog.ranks_some, List.length_cons, descending, ← h.ranks]

end Racing.Running

section Steps
variable {k p : ℤ} {race r : Racing} {w u : Server × RaceLog} {i : ℤ × Env} {s t : Server}

/-- The race is run or over, as the log tells. -/
def Racing.Logged (k : ℤ) (race : Racing) (w : Server × RaceLog) : Prop :=
  (∃ r, race.Running k w r) ∨ race.Over k w

/-- While the race is run somebody has still to finish. -/
theorem Racing.Running.ranked (h : race.Running k u r)
    (htold : u.2 = (i.1, if w.2.callbacks i.1 + 1 = race.checkpoints.length - 1 then
      some (w.2.ranks.length + 1 : ℤ) else none) :: w.2) : RaceRanked k race w i u where
  told := htold
  recorded r' q rank info hr' hmem hinfo := by
    obtain rfl : r = r' := Option.some.inj (h.registered.symm.trans hr')
    exact h.recorded q rank info hmem hinfo
  ranks := h.ranks
  gone := by
    have hsum := h.waiting
    have hpositive := h.positive
    rw [h.registered]
    exact iff_of_false (by simp) (by omega)
  free hnone := absurd (hnone.symm.trans h.registered) (by simp)

theorem Racing.Over.ranked (h : race.Over k u)
    (htold : u.2 = (i.1, if w.2.callbacks i.1 + 1 = race.checkpoints.length - 1 then
      some (w.2.ranks.length + 1 : ℤ) else none) :: w.2) : RaceRanked k race w i u where
  told := htold
  recorded r' q rank info hr' := absurd (h.gone.symm.trans hr') (by simp)
  ranks := h.ranks
  gone := iff_of_true h.gone h.length
  free _ := h.free

/-- What the callback of a racer who has not finished does. -/
theorem raceRanked_running (h : race.Running k w r) (hmem : i.1 ∈ race.racers)
    (hunfinished : w.2.finished i.1 = false)
    (hstep : watch Server.enterCheckpoint RaceLog.note w i = some u) :
    RaceRanked k race w i u ∧ race.Logged k u := by
  obtain ⟨p, env⟩ := i
  obtain ⟨t, log⟩ := u
  obtain ⟨hrun, hnote⟩ := watch_eq_some.mp hstep
  obtain ⟨info, hinfo, hlt⟩ := h.racer hmem hunfinished
  have hindex := h.index p info hinfo
  have hbegin : ((w.1.begin env).rankTold p : Option ℤ) = none := rfl
  have hlast : w.2.callbacks p + 1 = race.checkpoints.length - 1 ↔
      info.currentcp + 1 = race.checkpoints.length := by omega
  have hrank : (r.racers.keys.length : ℤ) - (r.racedata.waitingplayer - 1) =
      w.2.ranks.length + 1 := by
    have hsum := h.waiting
    rw [← h.keys] at hsum
    omega
  have hpass : ∀ P : Server → Prop, wp (Racing.playerReachCheckpoint k p) (fun _ => P)
      (fun _ _ => False) (w.1.begin env) → P t := fun P hP =>
    Server.of_step hrun (wp_enterRaceCheckpoint (h.joined p hmem) h.registered hP)
  have hlog : log = (p, t.rankTold p) :: w.2 := hnote.symm
  by_cases hinner : info.currentcp + 1 = race.checkpoints.length
  case neg =>
    obtain ⟨hraces, hprofiles, htold⟩ := hpass _ (wp_reach_onward (s := w.1.begin env) h.registered
      h.state hinfo (by rwa [h.checkpoints]))
    rw [htold, hbegin] at hlog
    subst hlog
    have hrunning := h.onward hinfo hunfinished (by omega) hraces hprofiles
    exact ⟨hrunning.ranked (by rw [if_neg (mt hlast.mp hinner)]), Or.inl ⟨_, hrunning⟩⟩
  case pos =>
  have htwo : r.checkpoints.length = race.checkpoints.length := by rw [h.checkpoints]
  by_cases hend : r.racedata.waitingplayer - 1 = 0
  case neg =>
    obtain ⟨hraces, hprofiles, htold⟩ := hpass _ (wp_reach_finish (s := w.1.begin env) h.registered
      h.state hinfo (by rwa [htwo]) hend)
    rw [htold, hrank] at hlog
    subst hlog
    have hrunning := h.finish hinfo hunfinished hinner hend hraces hprofiles
    exact ⟨hrunning.ranked (by rw [if_pos (hlast.mpr hinner)]), Or.inl ⟨_, hrunning⟩⟩
  case pos =>
    have hthere : ∀ q ∈ r.racers.keys, q ∈ w.1.profiles := by
      intro q hq
      obtain ⟨pr, hpr, -⟩ := Option.bind_eq_some_iff.mp (h.joined q (h.mem_racers.mp
        (AList.mem_keys.mpr hq)))
      exact Map.mem_iff_lookup.mpr ⟨pr, hpr⟩
    obtain ⟨hraces, htold, hfree⟩ := hpass _ (wp_reach_end (s := w.1.begin env) h.registered h.state
      h.starter hinfo (by rwa [htwo]) hend hthere)
    have hall : (r.racers.keys.length : ℤ) = w.2.ranks.length + 1 := by
      rw [← hrank, hend, sub_zero]
    rw [htold, hall] at hlog
    subst hlog
    have hover := h.ends hinfo hinner hend hraces fun q hq => hfree q
      (AList.mem_keys.mp (h.mem_racers.mpr hq))
    exact ⟨hover.ranked (by rw [if_pos (hlast.mpr hinner)]), Or.inr hover⟩

/-- The callback of a racer ends where that of the race does. -/
theorem defined_enterRaceCheckpoint (hjoined : s.raceOf p = some k)
    (hrace : s.races.lookup k = some r) (h : Defined (Racing.playerReachCheckpoint k p) s) :
    Defined (Event.run (.enterRaceCheckpoint p)) s := by
  obtain ⟨pr, hpr, hk⟩ := Option.bind_eq_some_iff.mp hjoined
  have hreach : Defined (do
      let player ← profileMgr p
      when player.pvars.raceJoined.isSome do
        let k ← Profile.getVar p (·.raceJoined)
        let _ ← racingMgr k
        Racing.playerReachCheckpoint k p) s := by
    rw [defined_profileMgr]
    intro pr' hpr'
    obtain rfl := Option.some.inj (hpr.symm.trans hpr')
    simp only [when_true (hk ▸ rfl : pr.pvars.raceJoined.isSome = true), Profile.getVar, Profile.ref,
      racingMgr, getItem, defined_bind, defined_gets, defined_orUndefined, defined_orRaise, wp_bind,
      wp_gets, wp_orUndefined, wp_orRaise, hpr, hk, hrace, Option.some.injEq, exists_eq',
      forall_eq', implies_true, and_true, true_and]
    exact h
  have hreport : Defined (onPlayerEnterRaceCheckpoint p) s := by
    rw [onPlayerEnterRaceCheckpoint, defined_bind, reported, defined_handle]
    refine ⟨⟨hreach, wp_mono (wp_true _) (fun _ _ _ => trivial) fun _ _ _ => Total.defined _⟩, ?_⟩
    exact wp_mono (wp_true _) (fun _ _ _ => defined_pure _) fun _ _ _ => trivial
  exact (defined_bind _ _).mpr ⟨hreport, wp_mono (wp_true _) (fun _ _ _ => defined_pure _)
    fun _ _ _ => trivial⟩

/-- The callback of a racer who has not finished has a result. -/
theorem isSome_enterCheckpoint (h : race.Running k w r) (hmem : i.1 ∈ race.racers)
    (hunfinished : w.2.finished i.1 = false) :
    (watch Server.enterCheckpoint RaceLog.note w i).isSome = true := by
  obtain ⟨p, env⟩ := i
  obtain ⟨info, hinfo, hlt⟩ := h.racer hmem hunfinished
  have hindex := h.index p info hinfo
  have hlength : r.checkpoints.length = race.checkpoints.length := by rw [h.checkpoints]
  have htrack : (w.1.begin env).track k = some (r.track w.1.samp.raceCheckpoint) :=
    Server.track_eq_some.mpr ⟨r, h.registered, rfl⟩
  have hprogress : ∀ j, (r.track w.1.samp.raceCheckpoint).progress p = some j →
      j = info.currentcp := by
    intro j hj
    simp only [Racing.track, hinfo, Option.map_some, Option.some.injEq] at hj
    exact hj.symm
  have hreach : Defined (Racing.playerReachCheckpoint k p) (w.1.begin env) := by
    refine (defined_playerReachCheckpoint htrack fun j hj => ?_).mpr fun _ j hj => ?_
    · rw [hprogress j hj]
      change 0 ≤ info.currentcp ∧ info.currentcp ≤ r.checkpoints.length
      omega
    · rw [hprogress j hj]
      change info.currentcp < r.checkpoints.length
      omega
  rw [watch, Option.isSome_map]
  exact defined_enterRaceCheckpoint (s := w.1.begin env) (h.joined p hmem) h.registered hreach

/-- After the race nobody is left who has not finished. -/
theorem raceRanked_step (h : race.Logged k w) (hi : race.stillRaces w i = true)
    (hstep : watch Server.enterCheckpoint RaceLog.note w i = some u) :
    RaceRanked k race w i u ∧ race.Logged k u := by
  simp only [Racing.stillRaces, Bool.and_eq_true, decide_eq_true_eq, Bool.not_eq_true'] at hi
  obtain ⟨hmem, hunfinished⟩ := hi
  rcases h with ⟨r, hrunning⟩ | hover
  · exact raceRanked_running hrunning hmem hunfinished hstep
  · exact absurd (hover.all i.1 hmem) (by simp [hunfinished])

theorem isSome_of_stillRaces (h : race.Logged k w) (hi : race.stillRaces w i = true) :
    (watch Server.enterCheckpoint RaceLog.note w i).isSome = true := by
  simp only [Racing.stillRaces, Bool.and_eq_true, decide_eq_true_eq, Bool.not_eq_true'] at hi
  obtain ⟨hmem, hunfinished⟩ := hi
  rcases h with ⟨r, hrunning⟩ | hover
  · exact isSome_enterCheckpoint hrunning hmem hunfinished
  · exact absurd (hover.all i.1 hmem) (by simp [hunfinished])

end Steps

/-! ## The start -/

section Start
set_option synthInstance.maxSize 1000
variable {s t : Server} {k p : ℤ} {race : Racing}

/-- The race has begun, and the racers in the list have been moved on to the second checkpoint. -/
structure Racing.Begun (k : ℤ) (s : Server) (race : Racing) (pre : List ℤ) (t : Server)
    (r : Racing) : Prop where
  registered : t.races.lookup k = some r
  data : r.racedata = { race.racedata with state := .inProgress }
  checkpoints : r.checkpoints = race.checkpoints
  keys : r.racers.keys = race.racers.keys
  index : ∀ q info, r.racers.lookup q = some info → info.currentcp = if q ∈ pre then 1 else 0
  profiles : t.profiles = s.profiles

theorem Racing.Begun.movedOn {r : Racing} {pre : List ℤ} {u : Server}
    (h : Begun k s race pre t r) (hnew : p ∉ pre)
    (hraces : u.races.lookup k = some (r.movedOn p)) (hprofiles : u.profiles = t.profiles) :
    Begun k s race (pre ++ [p]) u (r.movedOn p) where
  registered := hraces
  data := h.data
  checkpoints := h.checkpoints
  keys := (Map.keys_adjust ..).trans h.keys
  index q info' hinfo' := by
    rw [Racing.movedOn, Map.lookup_adjust] at hinfo'
    split at hinfo'
    case isTrue heq =>
      obtain ⟨info, hinfo, rfl⟩ := Option.map_eq_some_iff.mp hinfo'
      simp [heq, h.index p info hinfo, hnew]
    case isFalse hne => simp [h.index q info' hinfo', hne]
  profiles := hprofiles.trans h.profiles

/-- One pass of the start. -/
theorem wp_startRacer_begun {r : Racing} {pre post : List ℤ} (hlong : 2 ≤ race.checkpoints.length)
    (h : race.Begun k s pre t r) (has : race.racers.keys = pre ++ p :: post) :
    wp (Racing.startRacer k p) (fun _ u => ∃ r, race.Begun k s (pre ++ [p]) u r)
      (fun _ _ => False) t := by
  have hnew : p ∉ pre := fun hmem =>
    (List.nodup_append.mp (has ▸ race.racers.keys_nodup)).2.2 p hmem p (by simp) rfl
  have hp : p ∈ r.racers := AList.mem_keys.mpr (by simp [h.keys, has])
  obtain ⟨info, hinfo⟩ := Map.mem_iff_lookup.mp hp
  have hzero : info.currentcp = 0 := by rw [h.index p info hinfo, if_neg hnew]
  have hstate : r.racedata.state = .inProgress := by rw [h.data]
  have hinner : info.currentcp + 1 ≠ r.checkpoints.length := by
    rw [hzero, h.checkpoints]
    omega
  simp only [Racing.startRacer, sendClientMessage, native, emit, wp_bind, wp_modify]
  refine wp_mono (wp_reach_onward (s := { t with trace := .message p .raceStarts :: t.trace })
    h.registered hstate hinfo hinner) (fun _ u hu => ?_) (fun _ _ hf => hf)
  exact ⟨_, h.movedOn hnew hu.1 hu.2.1⟩

/-- A racer who waits is moved on to a checkpoint that is there. -/
theorem defined_startRacer {r : Racing} {pre post : List ℤ} (hlong : 2 ≤ race.checkpoints.length)
    (h : race.Begun k s pre t r) (has : race.racers.keys = pre ++ p :: post) :
    Defined (Racing.startRacer k p) t := by
  have hnew : p ∉ pre := fun hmem =>
    (List.nodup_append.mp (has ▸ race.racers.keys_nodup)).2.2 p hmem p (by simp) rfl
  have htrack : ({ t with trace := .message p .raceStarts :: t.trace } : Server).track k =
      some (r.track t.samp.raceCheckpoint) := Server.track_eq_some.mpr ⟨r, h.registered, rfl⟩
  have hwaits : ∀ j, (r.track t.samp.raceCheckpoint).progress p = some j → j = 0 := by
    intro j hj
    obtain ⟨info, hinfo, rfl⟩ := Option.map_eq_some_iff.mp hj
    rw [h.index p info hinfo, if_neg hnew]
  have hlength : (r.track t.samp.raceCheckpoint).checkpoints.length = race.checkpoints.length :=
    congrArg List.length h.checkpoints
  have hreach : Defined (Racing.playerReachCheckpoint k p)
      { t with trace := .message p .raceStarts :: t.trace } := by
    refine (defined_playerReachCheckpoint htrack fun j hj => ?_).mpr fun _ j hj => ?_
    · rw [hwaits j hj]
      omega
    · rw [hwaits j hj]
      omega
  simp only [Racing.startRacer, sendClientMessage, native, emit, defined_bind, defined_modify,
    wp_modify, wp_true, and_true, true_and]
  exact hreach

/-- The race when `Start` comes to its loop. -/
theorem Racing.AtStart.begun (h : race.AtStart k s) :
    race.Begun k s [] { s with races := s.races.adjust k fun race =>
      { race with racedata := { race.racedata with state := .inProgress } } }
      { race with racedata := { race.racedata with state := .inProgress } } :=
  ⟨Map.lookup_adjust_self h.registered _, rfl, rfl, rfl,
    fun q info hinfo => h.waiting q info hinfo, rfl⟩

/-- The start leaves the race running with all its racers at the second checkpoint. -/
theorem Racing.AtStart.running (h : race.AtStart k s) :
    ∃ t, (Racing.start k s).state? = some t ∧ race.Logged k (t, []) := by
  have hloop := wp_forEach_visited (J := fun _ _ => False) (f := Racing.startRacer k)
    (I := fun pre t => ∃ r, race.Begun k s pre t r) ⟨_, h.begun⟩
    fun pre q post has t ⟨_, ht⟩ => wp_startRacer_begun h.long ht has
  have hdefined : Defined (Racing.start k) s := by
    rw [defined_of_eq (start_ready h.registered h.state), defined_bind]
    refine ⟨defined_forEach (I := fun pre t => ∃ r, race.Begun k s pre t r) ⟨_, h.begun⟩
      fun pre q post has t ⟨_, ht⟩ => ⟨defined_startRacer h.long ht has, ?_⟩, ?_⟩
    · exact wp_mono (wp_startRacer_begun h.long ht has) (fun _ _ hu => hu) (fun _ _ hf => hf.elim)
    · refine wp_mono hloop (fun _ u hu => ?_) (fun _ _ _ => trivial)
      obtain ⟨r, hu⟩ := hu
      rw [Racing.startClock, defined_ref hu.registered]
      exact Total.defined u
  have hwp : wp (Racing.start k) (fun _ t => race.Logged k (t, []))
      (fun _ t => race.Logged k (t, [])) s := by
    rw [wp_of_eq (start_ready h.registered h.state), wp_bind]
    refine wp_mono hloop (fun _ u hu => ?_) (fun _ _ hf => hf.elim)
    obtain ⟨r, hu⟩ := hu
    simp only [Racing.startClock, Racing.ref, Racing.modifyData, Racing.modifyRace, wp_bind,
      wp_gets, hu.registered, orUndefined_some, wp_pure, wp_modify]
    have hone : ∀ q info, r.racers.lookup q = some info → info.currentcp = 1 := by
      intro q info hinfo
      have hq : q ∈ race.racers.keys := by
        rw [← hu.keys]
        exact AList.mem_keys.mp (Map.mem_iff_lookup.mpr ⟨info, hinfo⟩)
      rw [hu.index q info hinfo, if_pos hq]
    have hlong := h.long
    have hall : unfinishedAmong race.checkpoints.length r.racers = r.racers.keys.length :=
      unfinishedAmong_eq_length fun q info hinfo => by
        rw [hone q info hinfo]
        omega
    refine Or.inl ⟨{ r with racedata := { r.racedata with
      start := u.env.time, waitingplayer := r.racers.keys.length } }, ?_⟩
    constructor
    · exact Map.lookup_adjust_self hu.registered _
    · rw [hu.data]
    · rw [hu.data]
      exact h.starter
    · exact hu.checkpoints
    · exact hu.keys
    · exact fun q info hinfo => by simp [hone q info hinfo, RaceLog.callbacks]
    · intro q info hinfo
      rw [hone q info hinfo]
      simp only [RaceLog.finished, List.any_nil, Bool.false_eq_true, if_false]
      omega
    · exact fun q rank info hmem => absurd hmem List.not_mem_nil
    · rw [Racing.unfinished, hu.checkpoints, hall]
    · simp [RaceLog.ranks, hu.keys]
    · have hpos := List.length_pos_of_ne_nil h.manned
      change (0 : ℤ) < r.racers.keys.length
      rw [hu.keys]
      omega
    · intro q hq
      rw [Server.raceOf]
      simp only [hu.profiles]
      exact h.joined q hq
    · rfl
  obtain ⟨t, ht⟩ := Option.isSome_iff_exists.mp hdefined
  exact ⟨t, ht, state_of_wp (P := fun t => race.Logged k (t, [])) hwp ht⟩

end Start

/-! ## Runs -/

/-- A race can be started. After that, in every order in which its racers come to the checkpoints
until they have finished, they are ranked in the order in which they finish. Each finishes with the
callback that is one less than the checkpoints, and the race goes with the last one. All these
callbacks have a result. -/
theorem racers_are_ranked {k : ℤ} {s : Server} {race : Racing} (is : List (ℤ × Env))
    (hready : race.AtStart k s) : ∃ t, (Racing.start k s).state? = some t ∧
      (Meets (watch Server.enterCheckpoint RaceLog.note)
          (fun w i => race.stillRaces w i = true) (t, []) is →
        AllSteps (watch Server.enterCheckpoint RaceLog.note) (RaceRanked k race) (t, []) is) ∧
      (Guarded (watch Server.enterCheckpoint RaceLog.note)
          (fun w i => race.stillRaces w i = true) (t, []) is →
        (final (watch Server.enterCheckpoint RaceLog.note) (t, []) is).isSome = true) := by
  obtain ⟨t, hstart, hlogged⟩ := hready.running
  refine ⟨t, hstart, fun his => ?_, fun his => ?_⟩
  · exact AllSteps.of_invariant (I := race.Logged k)
      (fun _ _ _ hw hstep hi => raceRanked_step hw hi hstep) hlogged his
  · exact isSome_final_of_guarded (I := race.Logged k) (fun _ _ hw hi => isSome_of_stillRaces hw hi)
      (fun _ _ _ hw hstep hi => (raceRanked_step hw hi hstep).2) hlogged his

namespace Demo

/-- Two racers, before the start. -/
def readyRace : Racing :=
  { racedata := { state := .ready, starter := 0 }
    checkpoints := [⟨0, 0, 0⟩, ⟨1, 0, 0⟩, ⟨2, 0, 0⟩]
    racers := ((∅ : Map ℤ RacerInfo).insert 0 {}).insert 1 {} }

/-- A player of the race that the player 0 started. -/
def racer (t : OID) : Profile := { member t with pvars := { raceJoined := some 0 } }

def readyToStart : Server :=
  { initial with
    profiles := ((∅ : Map ℤ Profile).insert 0 (racer team)).insert 1 (racer rivals)
    races := (∅ : Map ℤ Racing).insert 0 readyRace }

end Demo

theorem Demo.readyToStart_atStart : Demo.readyRace.AtStart 0 Demo.readyToStart where
  registered := rfl
  state := rfl
  starter := rfl
  long := by decide
  manned := by decide
  waiting p info hinfo := by
    simp only [Demo.readyRace, Map.lookup_insert_ite] at hinfo
    split at hinfo
    · obtain rfl := Option.some.inj hinfo
      rfl
    · split at hinfo
      · obtain rfl := Option.some.inj hinfo
        rfl
      · cases hinfo
  joined := by decide

/-- The racers in the order in which they come to the last two checkpoints. -/
def Demo.laps : List (ℤ × Env) := [(1, env), (0, env), (1, env), (0, env)]

/-- Both come to the end. -/
theorem racers_are_ranked_two : ∃ t, (Racing.start 0 Demo.readyToStart).state? = some t ∧
    AllSteps (watch Server.enterCheckpoint RaceLog.note) (RaceRanked 0 Demo.readyRace) (t, [])
      Demo.laps ∧
    (final (watch Server.enterCheckpoint RaceLog.note) (t, []) Demo.laps).isSome = true := by
  obtain ⟨t, hstart, hranked, hfinal⟩ := racers_are_ranked Demo.laps Demo.readyToStart_atStart
  have hcheck : ((Racing.start 0 Demo.readyToStart).state?.all fun t =>
      checkSteps (watch Server.enterCheckpoint RaceLog.note) Demo.readyRace.stillRaces (t, [])
        Demo.laps) = true := by decide +kernel
  rw [hstart, Option.all_some] at hcheck
  exact ⟨t, hstart, hranked (meets_of_check (fun _ _ h => h) hcheck),
    hfinal (guarded_of_check (fun _ _ h => h) hcheck)⟩

end FreshCity
