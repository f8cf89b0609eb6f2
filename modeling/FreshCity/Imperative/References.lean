import FreshCity.Imperative.Footprint
import FreshCity.Imperative.Map

/-!
# References and what they refer to

A state holds references, many of them in the objects of its maps, and knows what they may refer
to. A reference that is about to be stored is in hand until it is.
-/
namespace Imperative

variable {σ R K V : Type} {refs knows : σ → Set R} {held held' : Set R} {s t : σ}

/-- What the state refers to is known, and so is what is in hand. -/
structure Resolves (refs knows : σ → Set R) (held : Set R) (s : σ) : Prop where
  stored : refs s ⊆ knows s
  inHand : held ⊆ knows s

namespace Resolves

/-- What is known may be taken into the hand. -/
theorem take (h : Resolves refs knows held s) (hknown : held' ⊆ knows s) :
    Resolves refs knows (held ∪ held') s := ⟨h.stored, Set.union_subset h.inHand hknown⟩

/-- A stored reference is known, and so may be taken into the hand. -/
theorem takeStored (h : Resolves refs knows held s) (hstored : held' ⊆ refs s) :
    Resolves refs knows (held ∪ held') s := h.take (hstored.trans h.stored)

theorem drop (h : Resolves refs knows held s) (hsub : held' ⊆ held) :
    Resolves refs knows held' s := ⟨h.stored, hsub.trans h.inHand⟩

/-- Nothing known is forgotten, and what is stored was stored, in hand or is known now. -/
theorem step (h : Resolves refs knows held s) (hknows : knows s ⊆ knows t)
    (hrefs : refs t ⊆ refs s ∪ (held ∪ knows t)) : Resolves refs knows held t := by
  refine ⟨fun r hr => ?_, h.inHand.trans hknows⟩
  rcases hrefs hr with hold | hheld | hknown
  · exact hknows (h.stored hold)
  · exact hknows (h.inHand hheld)
  · exact hknown

end Resolves

/-! ## References in a map -/

namespace Map
variable [DecidableEq K] {f : V → Set R} {g : V → V} {m : Map K V} {k : K} {v : V}

/-- What the objects of a map refer to. -/
def mentions (f : V → Set R) (m : Map K V) : Set R := {r | ∃ k v, m.lookup k = some v ∧ r ∈ f v}

@[simp] theorem mentions_empty : mentions f (∅ : Map K V) = ∅ := by
  ext r
  simp [mentions]

theorem mentions_insert : mentions f (AList.insert k v m) ⊆ mentions f m ∪ f v := by
  rintro r ⟨j, w, hlookup, hr⟩
  rw [lookup_insert_ite] at hlookup
  split at hlookup
  · obtain rfl := Option.some.inj hlookup
    exact .inr hr
  · exact .inl ⟨j, w, hlookup, hr⟩

theorem mentions_erase : mentions f (AList.erase k m) ⊆ mentions f m := by
  rintro r ⟨j, w, hlookup, hr⟩
  exact ⟨j, w, lookup_of_lookup_erase hlookup, hr⟩

/-- A write to one object stores what the object refers to afterwards. -/
theorem mentions_adjust (h : ∀ v, m.lookup k = some v → f (g v) ⊆ f v ∪ held) :
    mentions f (m.adjust k g) ⊆ mentions f m ∪ held := by
  rintro r ⟨j, w, hlookup, hr⟩
  rw [lookup_adjust] at hlookup
  split at hlookup
  · obtain ⟨v, hv, rfl⟩ := Option.map_eq_some_iff.mp hlookup
    exact (h v hv hr).imp_left fun hold => ⟨k, v, hv, hold⟩
  · exact .inl ⟨j, w, hlookup, hr⟩

/-- A write that leaves the references of every object alone. -/
theorem mentions_adjust_same (h : ∀ v, f (g v) = f v) : mentions f (m.adjust k g) ⊆ mentions f m := by
  have hsub : mentions f (m.adjust k g) ⊆ mentions f m ∪ ∅ := mentions_adjust fun v _ => by simp [h v]
  rwa [Set.union_empty] at hsub

end Map

/-! ## Results that go into the hand -/

namespace Prog
variable {ε α β τ : Type} {P : Set R → σ → Prop} {f : α → Set R} {x : Prog σ ε α}

/-- What is in hand may be dropped. -/
def Droppable (P : Set R → σ → Prop) : Prop := ∀ held held' s, held' ⊆ held → P held s → P held' s

/-- A program that keeps `P`, and what its result refers to is in hand afterwards. -/
class Yields (P : Set R → σ → Prop) (held : Set R) (f : α → Set R) (x : Prog σ ε α) : Prop where
  wp_yields : ∀ s, P held s → wp x (fun a => P (held ∪ f a)) (fun _ => P held) s

theorem Yields.keeps (hx : Yields P held f x) (hP : Droppable P) : Keeps (P held) x :=
  keeps_of_wp fun s hs => wp_mono (hx.wp_yields s hs)
    (fun _ t ht => hP _ _ t Set.subset_union_left ht) (fun _ _ h => h)

/-- The result of what follows is in hand instead. -/
theorem Yields.bind {g : β → Set R} {k : α → Prog σ ε β} (hx : Yields P held f x) (hP : Droppable P)
    (hk : ∀ a, Yields P (held ∪ f a) g (k a)) : Yields P held g (x >>= k) := ⟨fun s hs => by
  rw [wp_bind]
  refine wp_mono (hx.wp_yields s hs) (fun a t ht => ?_) (fun _ _ h => h)
  refine wp_mono ((hk a).wp_yields t ht) (fun b u hu => ?_)
    (fun _ u hu => hP _ _ u Set.subset_union_left hu)
  exact hP _ _ u (Set.union_subset_union_left _ Set.subset_union_left) hu⟩

/-- What follows has the references of the result in hand. -/
theorem Yields.keeps_bind {k : α → Prog σ ε β} (hx : Yields P held f x) (hP : Droppable P)
    (hk : ∀ a, Keeps (P (held ∪ f a)) (k a)) : Keeps (P held) (x >>= k) := keeps_of_wp fun s hs => by
  rw [wp_bind]
  refine wp_mono (hx.wp_yields s hs) (fun a t ht => ?_) (fun _ _ h => h)
  exact wp_mono ((hk a).wp_of_keeps ht) (fun _ u hu => hP _ _ u Set.subset_union_left hu)
    (fun _ u hu => hP _ _ u Set.subset_union_left hu)

/-- What comes first may put nothing into the hand. -/
theorem Yields.after {g : β → Set R} {k : α → Prog σ ε β} (hx : Keeps (P held) x)
    (hk : ∀ a, Yields P held g (k a)) : Yields P held g (x >>= k) := ⟨fun s hs => by
  rw [wp_bind]
  exact wp_mono (hx.wp_of_keeps hs) (fun a t ht => (hk a).wp_yields t ht) (fun _ _ h => h)⟩

end Prog
end Imperative
