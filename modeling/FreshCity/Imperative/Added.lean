import FreshCity.Imperative.Map

/-!
# Items that are added to a map

Items are added one after the other, each under an id that was free. The map grows by one
item each time, so that a count tells whether one is missing.
-/
namespace Imperative

variable {I A C : Type} [DecidableEq I]

/-- A map within another one has no more items. -/
theorem Map.length_values_le {V : Type} {m t : Map I V}
    (h : ∀ i v, m.lookup i = some v → t.lookup i = some v) : m.values.length ≤ t.values.length := by
  have hsub : m.entries ⊆ t.entries := fun e he =>
    AList.mem_lookup_iff.mp (h e.1 e.2 (AList.mem_lookup_iff.mpr he))
  have hle := (m.nodupKeys.nodup.subperm hsub).length_le
  simpa [Map.values] using hle

/-- A map after items of these classes were added, each under its own id. -/
inductive Added (idOf : A → I) (classOf : A → C) (m : Map I A) : List C → Map I A → Prop
  | refl : Added idOf classOf m [] m
  | snoc {cs : List C} {m' : Map I A} {a : A} (h : Added idOf classOf m cs m')
      (hnew : m'.lookup (idOf a) = none) :
      Added idOf classOf m (cs ++ [classOf a]) (m'.insert (idOf a) a)

namespace Added
variable {idOf : A → I} {classOf : A → C} {m m' t t' : Map I A} {cs cs' : List C}

theorem length_values (h : Added idOf classOf m cs m') :
    m'.values.length = m.values.length + cs.length := by
  induction h with
  | refl => simp
  | snoc h hnew ih =>
    rw [Map.values_insert _ (AList.lookup_eq_none.mp hnew), List.length_cons, List.length_append, ih,
      List.length_singleton]
    omega

/-- A map that grew by some items does not hold more than those. -/
theorem length_le (h : Added idOf classOf m cs t) (h' : Added idOf classOf m cs' t')
    (hwithin : ∀ i a, t'.lookup i = some a → t.lookup i = some a) : cs'.length ≤ cs.length := by
  have hle := Map.length_values_le hwithin
  rw [h.length_values, h'.length_values] at hle
  omega

end Added
end Imperative
