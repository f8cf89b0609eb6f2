import Mathlib.Tactic

/-!
# Uses that wait for each other

Each use of a thing keeps its key from the next one for a while. A log of the uses is spaced
when none came too early. What a program remembers, the time from which each key is ready,
covers the log as long as no use that is still running is forgotten.
-/
namespace Imperative

/-- A use of a thing by the one with the key, and how long the next one has to wait. -/
structure Use (K : Type) where
  key : K
  time : ℤ
  limit : ℤ
  deriving DecidableEq

namespace Use
variable {K : Type}

/-- The time from which the next use may come. -/
def due (u : Use K) : ℤ := u.time + u.limit

/-- In a log with the latest use first, each use is over when the key is used again. -/
def Spaced (log : List (Use K)) : Prop :=
  log.Pairwise fun later earlier => later.key = earlier.key → earlier.due ≤ later.time

instance [DecidableEq K] (log : List (Use K)) : Decidable (Spaced log) :=
  inferInstanceAs (Decidable (List.Pairwise _ log))

/-- Each use is over, or its key is not ready before it is. -/
def Covered (ready : K → Option ℤ) (now : ℤ) (log : List (Use K)) : Prop :=
  ∀ u ∈ log, u.due ≤ now ∨ ∃ r, ready u.key = some r ∧ u.due ≤ r

namespace Covered
variable {ready ready' : K → Option ℤ} {now now' limit : ℤ} {log : List (Use K)} {k : K}

theorem nil : Covered ready now ([] : List (Use K)) := fun _ h => absurd h List.not_mem_nil

/-- Time passes. -/
theorem later (h : Covered ready now log) (hnow : now ≤ now') : Covered ready now' log :=
  fun u hu => (h u hu).imp (fun hdue => hdue.trans hnow) id

/-- Keys that were ready at some time still are, at the same time. -/
theorem mono (h : Covered ready now log) (hready : ∀ k r, ready k = some r → ready' k = some r) :
    Covered ready' now log := by
  intro u hu
  refine (h u hu).imp id ?_
  rintro ⟨r, hr, hdue⟩
  exact ⟨r, hready _ r hr, hdue⟩

/-- The uses of a key that is ready are over. -/
theorem due_le (h : Covered ready now log) (hready : ∀ r, ready k = some r → r ≤ now) {u : Use K}
    (hu : u ∈ log) (hkey : u.key = k) : u.due ≤ now := by
  rcases h u hu with hdue | ⟨r, hr, hdue⟩
  · exact hdue
  · exact hdue.trans (hready r (hkey ▸ hr))

/-- What is remembered of one key may be forgotten when it is ready. -/
theorem reset (h : Covered ready now log) (hready : ∀ r, ready k = some r → r ≤ now)
    (hother : ∀ j, j ≠ k → ready' j = ready j) : Covered ready' now log := by
  intro u hu
  by_cases hkey : u.key = k
  · exact .inl (h.due_le hready hu hkey)
  · rw [hother u.key hkey]
    exact h u hu

/-- A key that is ready is used, and the use is remembered. -/
theorem use (h : Covered ready now log) (hlog : Spaced log)
    (hready : ∀ r, ready k = some r → r ≤ now) (hother : ∀ j, j ≠ k → ready' j = ready j)
    (hnew : ready' k = some (now + limit)) :
    Spaced (⟨k, now, limit⟩ :: log) ∧ Covered ready' now (⟨k, now, limit⟩ :: log) := by
  constructor
  · exact List.pairwise_cons.mpr ⟨fun u hu hkey => h.due_le hready hu hkey.symm, hlog⟩
  · intro u hu
    rcases List.mem_cons.mp hu with rfl | hold
    · exact .inr ⟨now + limit, hnew, le_rfl⟩
    · exact h.reset hready hother u hold

end Covered
end Use
end Imperative
