import FreshCity.Imperative.Map

/-!
# Journals

A store whose writes are recorded when they are asked for. A write that met an error is
recorded too, so the store is a replay of some of the entries, in their order.
-/
namespace Imperative

variable {S E : Type} {apply : E → S → S} {s t u : S} {es : List E}

/-- The store is what some of the entries make of `s`. The newest entry comes first. -/
inductive Replays (apply : E → S → S) (s : S) : List E → S → Prop where
  | start : Replays apply s [] s
  | applied (e : E) {es : List E} {t : S} (h : Replays apply s es t) :
      Replays apply s (e :: es) (apply e t)
  | skipped (e : E) {es : List E} {t : S} (h : Replays apply s es t) :
      Replays apply s (e :: es) t

namespace Replays

/-- What every entry keeps, the replay keeps. -/
theorem preserves {I : S → Prop} (h : Replays apply s es t)
    (hI : ∀ e ∈ es, ∀ u, I u → I (apply e u)) (hs : I s) : I t := by
  induction h with
  | start => exact hs
  | applied e _ ih =>
    exact hI e (List.mem_cons_self ..) _ (ih fun e he => hI e (List.mem_cons_of_mem _ he))
  | skipped e _ ih => exact ih fun e he => hI e (List.mem_cons_of_mem _ he)

end Replays
end Imperative
