import FreshCity.Imperative.Map

/-!
# References into a registry

There are references to the objects of a registry outside it, and each object minds some of
them. As long as every reference is minded by a registered object, none of them outlives what
it points at: an object can go once it has called off the references it minds.
-/
namespace Imperative

variable {K V R : Type} [DecidableEq K]

/-- Every reference is minded by an object of the registry. -/
def Minded (minds : K → V → R → Prop) (m : Map K V) (refs : List R) : Prop :=
  ∀ r ∈ refs, ∃ k v, m.lookup k = some v ∧ minds k v r

namespace Minded
variable {minds : K → V → R → Prop} {m : Map K V} {refs : List R} {k : K} {v : V} {r : R}

theorem nil : Minded minds m [] := fun _ hr => absurd hr List.not_mem_nil

theorem mono {minds' : K → V → R → Prop} (h : Minded minds m refs)
    (hmono : ∀ k v r, m.lookup k = some v → r ∈ refs → minds k v r → minds' k v r) :
    Minded minds' m refs := by
  intro r hr
  obtain ⟨k, v, hv, hminds⟩ := h r hr
  exact ⟨k, v, hv, hmono k v r hv hr hminds⟩

/-- References that are no other than there were, to whoever minds them. -/
theorem of_refs {refs' : List R} (h : Minded minds m refs)
    (hrefs : ∀ r' ∈ refs', ∃ r ∈ refs, ∀ k v, minds k v r → minds k v r') :
    Minded minds m refs' := by
  intro r' hr'
  obtain ⟨r, hr, hsame⟩ := hrefs r' hr'
  obtain ⟨k, v, hv, hminds⟩ := h r hr
  exact ⟨k, v, hv, hsame k v hminds⟩

theorem cons (h : Minded minds m refs) (hv : m.lookup k = some v) (hr : minds k v r) :
    Minded minds m (r :: refs) := by
  intro r' hr'
  rcases List.mem_cons.mp hr' with rfl | hmem
  · exact ⟨k, v, hv, hr⟩
  · exact h r' hmem

/-- An object comes in under a key of its own. -/
theorem insert (h : Minded minds m refs) (hnew : k ∉ m) : Minded minds (m.insert k v) refs := by
  intro r hr
  obtain ⟨j, w, hw, hminds⟩ := h r hr
  have hne : j ≠ k := by
    rintro rfl
    exact hnew (Map.mem_iff_lookup.mpr ⟨w, hw⟩)
  exact ⟨j, w, by rw [AList.lookup_insert_ne hne, hw], hminds⟩

/-- An object is written, and minds what it minded. -/
theorem adjust {f : V → V} (h : Minded minds m refs)
    (hf : ∀ v r, m.lookup k = some v → r ∈ refs → minds k v r → minds k (f v) r) :
    Minded minds (m.adjust k f) refs := by
  intro r hr
  obtain ⟨j, w, hw, hminds⟩ := h r hr
  by_cases hj : j = k
  · subst hj
    exact ⟨j, f w, Map.lookup_adjust_self hw f, hf w r hw hr hminds⟩
  · exact ⟨j, w, by rw [Map.lookup_adjust, if_neg hj, hw], hminds⟩

/-- An object that minds nothing goes. -/
theorem erase (h : Minded minds m refs)
    (hfree : ∀ v, m.lookup k = some v → ∀ r ∈ refs, ¬minds k v r) :
    Minded minds (m.erase k) refs := by
  intro r hr
  obtain ⟨j, w, hw, hminds⟩ := h r hr
  have hne : j ≠ k := by
    rintro rfl
    exact hfree w hw r hr hminds
  exact ⟨j, w, by rw [AList.lookup_erase_ne hne, hw], hminds⟩

/-- The references an object minds are called off. -/
theorem filter {q : R → Bool} (h : Minded minds m refs)
    (hq : ∀ v r, m.lookup k = some v → r ∈ refs → minds k v r → q r = false) :
    Minded (fun j v r => j ≠ k ∧ minds j v r) m (refs.filter q) := by
  intro r hr
  obtain ⟨hmem, hleft⟩ := List.mem_filter.mp hr
  obtain ⟨j, w, hw, hminds⟩ := h r hmem
  refine ⟨j, w, hw, ?_, hminds⟩
  rintro rfl
  have hgone := hq w r hw hmem hminds
  rw [hleft] at hgone
  cases hgone

end Minded
end Imperative
