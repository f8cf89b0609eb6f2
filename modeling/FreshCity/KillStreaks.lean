import FreshCity.KillUpdates

/-!
# Kills in a row

A profile keeps a counter and the time of the last kill only. After any kills the counter is the
length of the longest run of kills that ends at the last one, and the switch of a death chooses the
pickup by that length.
-/
namespace FreshCity
open Imperative Prog Run

/-! ## Runs of kills -/

/-- Times of kills, the last one first, each at most the interval after the one before it. -/
def IsStreak (interval : ℤ) (times : List ℤ) : Prop :=
  times.IsChain fun later earlier => later - earlier ≤ interval

/-- The length of the longest run of kills that ends at the last one. -/
structure LongestStreak (interval : ℤ) (times : List ℤ) (n : ℕ) : Prop where
  reached : ∃ run, run <+: times ∧ IsStreak interval run ∧ run.length = n
  bound : ∀ run, run <+: times → IsStreak interval run → run.length ≤ n

namespace LongestStreak
variable {interval now last : ℤ} {times : List ℤ} {n : ℕ}

theorem nil : LongestStreak interval [] 0 where
  reached := ⟨[], List.prefix_rfl, List.isChain_nil, rfl⟩
  bound run hrun _ := by rw [List.prefix_nil.mp hrun, List.length_nil]

/-- A kill alone is a run. -/
theorem pos (h : LongestStreak interval (last :: times) n) : 1 ≤ n :=
  h.bound [last] ⟨times, rfl⟩ (List.isChain_singleton last)

/-- A run that ends at a kill is that kill alone, or continues a run that ends at the one before. -/
theorem bound_cons (h : LongestStreak interval times n) {run : List ℤ} (hrun : run <+: now :: times)
    (hstreak : IsStreak interval run) : run.length ≤ n + 1 := by
  rcases List.prefix_cons_iff.mp hrun with rfl | ⟨rest, rfl, hrest⟩
  · exact Nat.zero_le _
  · have htail : IsStreak interval rest := List.IsChain.of_cons hstreak
    have hlength := h.bound rest hrest htail
    rw [List.length_cons]
    omega

/-- A kill within the interval continues the longest run. -/
theorem next (h : LongestStreak interval (last :: times) n) (hnow : now - last ≤ interval) :
    LongestStreak interval (now :: last :: times) (n + 1) where
  reached := by
    obtain ⟨run, hrun, hstreak, hlength⟩ := h.reached
    rcases List.prefix_cons_iff.mp hrun with rfl | ⟨rest, rfl, hrest⟩
    · have hpos := h.pos
      simp at hlength
      omega
    · refine ⟨now :: last :: rest, ?_, ?_, by simpa using hlength⟩
      · simpa using hrest
      · exact List.isChain_cons_cons.mpr ⟨hnow, hstreak⟩
  bound _ hrun hstreak := h.bound_cons hrun hstreak

/-- A kill after the interval is a run of its own. -/
theorem reset (hnow : ¬now - last ≤ interval) : LongestStreak interval (now :: last :: times) 1 where
  reached := ⟨[now], ⟨last :: times, rfl⟩, List.isChain_singleton now, rfl⟩
  bound run hrun hstreak := by
    rcases List.prefix_cons_iff.mp hrun with rfl | ⟨rest, rfl, hrest⟩
    · exact Nat.zero_le _
    rcases List.prefix_cons_iff.mp hrest with rfl | ⟨rest, rfl, -⟩
    · exact le_rfl
    · exact absurd (List.isChain_cons_cons.mp hstreak).1 hnow

theorem first : LongestStreak interval [now] 1 where
  reached := ⟨[now], List.prefix_rfl, List.isChain_singleton now, rfl⟩
  bound run hrun _ := by simpa using hrun.length_le

end LongestStreak

/-! ## The counter -/

namespace KillCounter
variable {interval now : ℤ} {times : List ℤ} {k : KillCounter}

/-- The counter is the length of the longest run, and the last kill is known. -/
structure Counts (interval : ℤ) (times : List ℤ) (k : KillCounter) : Prop where
  longest : ∃ n : ℕ, k.counter = n ∧ LongestStreak interval times n
  last : ∀ last ∈ times.head?, k.lastkill = last

theorem Counts.new : Counts interval [] {} where
  longest := ⟨0, rfl, .nil⟩
  last _ h := nomatch h

/-- One more kill. -/
theorem Counts.next (h : Counts interval times k) :
    Counts interval (now :: times) { lastkill := now, counter := k.next interval now } where
  longest := by
    obtain ⟨n, hn, hlongest⟩ := h.longest
    cases times with
    | nil =>
      obtain ⟨run, hrun, -, hlength⟩ := hlongest.reached
      have hzero : n = 0 := by
        rw [List.prefix_nil.mp hrun] at hlength
        exact hlength.symm
      refine ⟨1, ?_, .first⟩
      simp [KillCounter.next, hn, hzero]
    | cons last times =>
      have hlast : k.lastkill = last := h.last last rfl
      have hpos := hlongest.pos
      have hne : k.counter ≠ 0 := by omega
      by_cases hnow : now - last ≤ interval
      · refine ⟨n + 1, ?_, hlongest.next hnow⟩
        rw [KillCounter.next, if_neg (by omega), hn]
        rfl
      · refine ⟨1, ?_, .reset hnow⟩
        rw [KillCounter.next, if_pos ⟨hne, by omega⟩]
        rfl
  last last hlast := Option.some.inj hlast

end KillCounter

/-! ## The kills of one player -/

/-- A kill at some time, or anything else. -/
inductive KillOp where
  | kill (now : ℤ)
  | meanwhile (t : Server)

namespace Server

/-- The server at another time. -/
def atTime (s : Server) (now : ℤ) : Server := { s with env := { s.env with time := now } }

end Server

/-- A call of `Profile::KillCounter`, which is logged with its time, or a step that leaves the
counter of the player and the interval alone. -/
def KillOp.step (p : ℤ) (w : Server × List ℤ) : KillOp → Option (Server × List ℤ)
  | kill now => match Profile.killCounter p (w.1.atTime now) with
    | .ok _ t => some (t, now :: w.2)
    | _ => none
  | meanwhile t =>
    if t.killsOf p = w.1.killsOf p ∧ t.config.int .killinterval = w.1.config.int .killinterval then
      some (t, w.2)
    else none

section Counter
variable {p interval now : ℤ} {s t : Server} {k : KillCounter} {w u : Server × List ℤ}

/-- `Profile::KillCounter` returns the next value of the counter. -/
theorem killCounter_returns (hkills : s.killsOf p = some k)
    (hinterval : s.config.int .killinterval = some interval) : ∃ t,
      Profile.killCounter p s = .ok (k.next interval s.env.time) t ∧
      t.killsOf p = some { lastkill := s.env.time, counter := k.next interval s.env.time } ∧
      t.config = s.config := by
  obtain ⟨pr, hpr, rfl⟩ := Option.map_eq_some_iff.mp hkills
  refine ⟨{ s with profiles := s.profiles.adjust p fun pr => { pr with killcounter :=
    { lastkill := s.env.time, counter := pr.killcounter.next interval s.env.time } } }, ?_, ?_, rfl⟩
  · simp only [Profile.killCounter, configInt, Profile.modifyKills, Profile.ref, bind_apply,
      gets_apply, modify_apply, hinterval, orRaise, orUndefined, pure_apply, Map.lookup_adjust,
      if_true, hpr, Option.map_some]
    rfl
  · rw [Server.killsOf, Map.lookup_adjust, if_pos rfl, hpr]
    rfl

/-- The counter of the player counts the kills that were logged. -/
structure KillsLogged (p interval : ℤ) (w : Server × List ℤ) : Prop where
  interval_eq : w.1.config.int .killinterval = some interval
  counts : ∃ k, w.1.killsOf p = some k ∧ k.Counts interval w.2

theorem KillsLogged.step {op : KillOp} (h : KillsLogged p interval w) (hstep : op.step p w = some u) :
    KillsLogged p interval u := by
  obtain ⟨k, hk, hcounts⟩ := h.counts
  cases op with
  | kill now =>
    have hk' : (w.1.atTime now).killsOf p = some k := hk
    obtain ⟨t, hrun, hkills, hconfig⟩ := killCounter_returns hk' h.interval_eq
    rw [KillOp.step, hrun] at hstep
    obtain rfl := Option.some.inj hstep
    exact ⟨(congrArg (·.int .killinterval) hconfig).trans h.interval_eq, _, hkills, hcounts.next⟩
  | meanwhile t =>
    simp only [KillOp.step, Option.ite_none_right_eq_some, Option.some.injEq] at hstep
    obtain ⟨⟨hkills, hinterval⟩, rfl⟩ := hstep
    exact ⟨hinterval.trans h.interval_eq, k, hkills.trans hk, hcounts⟩

end Counter

/-! ## The switch of a death -/

/-- `OnPlayerDeath` to the end of the switch: the number of kills, and the pickup for it. -/
def chooseReward (p killerid : ℤ) : Game (ℤ × Option EffectiveItem) := do
  let _ ← profileMgr p
  let role ← Profile.getRole p
  role.onDeath p
  let env ← gets (·.env)
  let _ ← configFloat .weapondropradius
  forEach dropWeapon (Profile.weapons env p)
  let _ ← profileMgr killerid
  Profile.giveScore killerid 1
  Profile.giveMoney killerid 1000
  let distance ← configFloat .distance
  let _ ← generateDirectionalPoint killerid distance
  let kills ← Profile.killCounter killerid
  let reward ← streakReward kills
  pure (kills, reward)

section Choice
variable {s u : Server} {p q interval : ℤ} {killer : Profile}

/-- What a death goes on with. -/
theorem playerDeath_eq (hkill : q ≠ invalidPlayerId) : playerDeath p q = (do
    let choice ← chooseReward p q
    ensure (reportKill p q choice.1) (forEach PickupManager.destruct choice.2.toList)) := by
  simp only [playerDeath, rewardKiller, chooseReward, when_true hkill, bind_assoc]
  rfl

/-- The pickup is chosen by the number of kills and the configuration. -/
theorem wp_streakReward_cls {kills : ℤ} : wp (streakReward kills)
    (fun reward _ => reward.map (·.cls) = rewardClass u.config kills) (fun _ _ => True) u := by
  simp only [streakReward, configFloat, configInt, PickupManager.create, createDynamicPickup,
    wp_ite, wp_pure, wp_bind, wp_map, wp_gets, wp_orRaise, wp_modify, rewardClass, implies_true,
    and_true]
  split
  case isTrue => rfl
  split
  case isTrue => simp +contextual
  split
  case isTrue => rfl
  split
  case isTrue => simp +contextual
  case isFalse => rfl

/-- A death counts one kill, and chooses by the count. -/
theorem wp_chooseReward (h : s.Duel q killer.standing u) : wp (chooseReward p q)
    (fun choice _ => choice.1 = s.streak killer ∧
      choice.2.map (·.cls) = rewardClass s.config (s.streak killer)) (fun _ _ => True) u := by
  have hobject : ∀ role : Role, Keeps (s.Duel q killer.standing) (role.onDeath p) :=
    fun _ => inferInstance
  have hdrop : ∀ w, Keeps (s.Duel q killer.standing) (dropWeapon w) := fun _ => inferInstance
  rw [chooseReward]
  refine wp_bind_keeps inferInstance h fun _ u hu => ?_
  refine wp_bind_keeps inferInstance hu fun role u hu => ?_
  refine wp_bind_keeps inferInstance hu fun _ u hu => ?_
  refine wp_bind_keeps inferInstance hu fun env u hu => ?_
  refine wp_bind_keeps inferInstance hu fun _ u hu => ?_
  refine wp_bind_keeps inferInstance hu fun _ u hu => ?_
  refine wp_bind_keeps inferInstance hu fun _ u hu => ?_
  rw [wp_bind]
  refine wp_mono (wp_giveScore hu) (fun _ u hu => ?_) (fun _ _ _ => trivial)
  rw [wp_bind]
  refine wp_mono (wp_giveMoney_duel hu) (fun _ u hu => ?_) (fun _ _ _ => trivial)
  have hrewarded : s.Duel q (killer.standing.rewarded s.platform) u := hu
  refine wp_bind_keeps inferInstance hrewarded fun _ u hu => ?_
  refine wp_bind_keeps inferInstance hu fun _ u hu => ?_
  rw [wp_bind]
  refine wp_mono (wp_killCounter_duel hu) (fun kills u hu => ?_) (fun _ _ _ => trivial)
  obtain ⟨-, rfl, hcounted⟩ := hu
  have hstreak : (killer.standing.rewarded s.platform).kills.next s.killInterval s.env.time =
      s.streak killer := rfl
  rw [wp_bind, hstreak]
  refine wp_mono wp_streakReward_cls (fun reward v hreward => ?_) (fun _ _ _ => trivial)
  rw [hcounted.config] at hreward
  exact ⟨rfl, hreward⟩

end Choice

/-- After any kills of a player, the next call of `Profile::KillCounter` returns the length of the
longest run of kills that ends at it, and a death that the player causes chooses the pickup by that
length. -/
theorem kill_streaks_counted (p interval : ℤ) (s : Server) (ops : List KillOp)
    (w : Server × List ℤ) (hnew : s.killsOf p = some {})
    (hinterval : s.config.int .killinterval = some interval)
    (hrun : final (KillOp.step p) (s, []) ops = some w) :
    (∀ now, ∃ (n : ℕ) (t : Server), Profile.killCounter p (w.1.atTime now) = .ok (n : ℤ) t ∧
      LongestStreak interval (now :: w.2) n) ∧
    ∀ (q now : ℤ) (kills : ℤ) (reward : Option EffectiveItem) (t : Server),
      chooseReward q p (w.1.atTime now) = .ok (kills, reward) t →
      ∃ n : ℕ, kills = n ∧ LongestStreak interval (now :: w.2) n ∧
        reward.map (·.cls) = rewardClass w.1.config n := by
  have hlogged : KillsLogged p interval w := by
    refine invariant_final (I := KillsLogged p interval) (fun _ _ _ h hstep => h.step hstep)
      ⟨hinterval, {}, hnew, .new⟩ hrun
  obtain ⟨k, hk, hcounts⟩ := hlogged.counts
  have hnext : ∀ now, ∃ n : ℕ, k.next interval now = n ∧ LongestStreak interval (now :: w.2) n := by
    intro now
    have hcounts' : KillCounter.Counts interval (now :: w.2)
        { lastkill := now, counter := k.next interval now } := hcounts.next
    exact hcounts'.longest
  refine ⟨fun now => ?_, fun q now kills reward t hchoice => ?_⟩
  · obtain ⟨n, hn, hlongest⟩ := hnext now
    have hk' : (w.1.atTime now).killsOf p = some k := hk
    obtain ⟨t, hcount, -, -⟩ := killCounter_returns hk' hlogged.interval_eq
    exact ⟨n, t, hn ▸ hcount, hlongest⟩
  · obtain ⟨n, hn, hlongest⟩ := hnext now
    obtain ⟨killer, hkiller, rfl⟩ := Option.map_eq_some_iff.mp hk
    have hduel : (w.1.atTime now).Duel p killer.standing (w.1.atTime now) :=
      ⟨.refl _, rfl, rfl, by rw [Server.standingOf]; exact congrArg (Option.map _) hkiller⟩
    have hchosen := (wp_of_ok hchoice).mp (wp_chooseReward hduel)
    have hstreak : (w.1.atTime now).streak killer = n := by
      rw [Server.streak, Server.killInterval]
      change killer.killcounter.next ((w.1.config.int .killinterval).getD 0) now = n
      rw [hlogged.interval_eq, Option.getD_some, hn]
    rw [hstreak] at hchosen
    exact ⟨n, hchosen.1, hlongest, hchosen.2⟩

/-- Two kills are counted, and a third call follows. -/
theorem three_kills_counted : ∃ w, final (KillOp.step 1) (Demo.shooting 0, []) [.kill 100, .kill 104] =
    some w ∧ ∃ (n : ℕ) (t : Server), Profile.killCounter 1 (w.1.atTime 109) = .ok (n : ℤ) t ∧
      LongestStreak 5 (109 :: w.2) n := by
  obtain ⟨w, hw⟩ : ∃ w, final (KillOp.step 1) (Demo.shooting 0, []) [.kill 100, .kill 104] = some w :=
    Option.isSome_iff_exists.mp (by decide +kernel)
  exact ⟨w, hw, (kill_streaks_counted 1 5 _ _ w rfl (by decide +kernel) hw).1 109⟩

end FreshCity
