import FreshCity.Imperative.Map

/-!
# Caches that write through

A cache holds objects under keys of its own; the store holds their documents under
identities. The cache is coherent if every object with an identity agrees with the
document that is stored for it. One object an identity is enough for a write to one
document to leave the others coherent.
-/
namespace Imperative.Cache

variable {K V ι D : Type} [DecidableEq K]

/-- Every object that has an identity has a document in the store, and agrees with it. -/
def Coherent (identity : V → Option ι) (reads : D → V → Prop) (store : ι → Option D)
    (m : Map K V) : Prop :=
  ∀ k v i, m.lookup k = some v → identity v = some i → ∃ d, store i = some d ∧ reads d v

/-- No two objects of the cache have the same identity. -/
def Apart (identity : V → Option ι) (m : Map K V) : Prop :=
  ∀ j k v w i, m.lookup j = some v → m.lookup k = some w → identity v = some i →
    identity w = some i → j = k

variable {identity : V → Option ι} {reads reads' : D → V → Prop} {store store' : ι → Option D}
  {m : Map K V} {k : K} {f : V → V}

theorem Coherent.mono (h : Coherent identity reads store m) (hstore : ∀ i, store' i = store i)
    (hreads : ∀ k v d, m.lookup k = some v → reads d v → reads' d v) :
    Coherent identity reads' store' m := by
  intro k v i hv hi
  obtain ⟨d, hd, hread⟩ := h k v i hv hi
  exact ⟨d, (hstore i).trans hd, hreads k v d hv hread⟩

/-- A change of an object that no document tells of. -/
theorem Coherent.adjust (h : Coherent identity reads store m)
    (hf : ∀ v, identity (f v) = identity v) (hreads : ∀ d v, reads d v → reads d (f v)) :
    Coherent identity reads store (m.adjust k f) := by
  intro j w i hw hi
  rw [Map.lookup_adjust] at hw
  split at hw
  case isFalse => exact h j w i hw hi
  case isTrue hj =>
    obtain ⟨v, hv, rfl⟩ := Option.map_eq_some_iff.mp hw
    obtain ⟨d, hd, hread⟩ := h k v i hv ((hf v).symm.trans hi)
    exact ⟨d, hd, hreads d v hread⟩

/-- A write of one object's document, and of the object. -/
theorem Coherent.write {v : V} {i : ι} {d : D} (h : Coherent identity reads store m)
    (ha : Apart identity m) (hv : m.lookup k = some v) (hi : identity v = some i)
    (hf : identity (f v) = identity v) (hself : store' i = some d)
    (hother : ∀ j, j ≠ i → store' j = store j) (hread : reads d (f v)) :
    Coherent identity reads store' (m.adjust k f) := by
  intro j w i' hw hi'
  rw [Map.lookup_adjust] at hw
  split at hw
  case isTrue hj =>
    rw [hv, Option.map_some, Option.some.injEq] at hw
    subst hw
    obtain rfl : i = i' := Option.some.inj (hi.symm.trans (hf.symm.trans hi'))
    exact ⟨d, hself, hread⟩
  case isFalse hj =>
    have hne : i' ≠ i := fun heq => hj (ha j k w v i hw hv (heq ▸ hi') hi)
    obtain ⟨d', hd', hread'⟩ := h j w i' hw hi'
    exact ⟨d', (hother i' hne).trans hd', hread'⟩

theorem Apart.adjust (h : Apart identity m)
    (hf : ∀ v, m.lookup k = some v → identity (f v) = identity v) :
    Apart identity (m.adjust k f) := by
  have hlookup : ∀ j w i, (m.adjust k f).lookup j = some w → identity w = some i →
      ∃ v, m.lookup j = some v ∧ identity v = some i := by
    intro j w i hw hi
    rw [Map.lookup_adjust] at hw
    split at hw
    case isFalse => exact ⟨w, hw, hi⟩
    case isTrue hj =>
      subst hj
      obtain ⟨v, hv, rfl⟩ := Option.map_eq_some_iff.mp hw
      exact ⟨v, hv, (hf v hv).symm.trans hi⟩
  intro j k v w i hv hw hi hi'
  obtain ⟨v', hv', hvi⟩ := hlookup j v i hv hi
  obtain ⟨w', hw', hwi⟩ := hlookup k w i hw hi'
  exact h j k v' w' i hv' hw' hvi hwi

end Imperative.Cache
