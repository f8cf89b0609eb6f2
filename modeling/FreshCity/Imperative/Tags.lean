import FreshCity.Imperative.Map

/-!
# Items that stand for objects

Objects are kept in one map and items in another. Some of the items stand for an
object, which the item's tag names; an object knows the place of its item. Tagged
maps agree: every object has its item, and no item stands for an object that is gone.
-/
namespace Imperative

variable {I O A B : Type} [DecidableEq I] [DecidableEq O]

/-! ## Items and live ids -/

/-- Every item is known by its id, which is one of the live ones. -/
def Live (idOf : A → I) (items : Map I A) (ids : List I) : Prop :=
  ∀ i a, items.lookup i = some a → idOf a = i ∧ i ∈ ids

namespace Live
variable {idOf : A → I} {items : Map I A} {ids : List I} {i : I} {a : A}

theorem empty : Live idOf ∅ ids := fun _ _ ha => by cases ha

theorem cons (h : Live idOf items ids) (i : I) : Live idOf items (i :: ids) := by
  intro j a ha
  obtain ⟨hid, hlive⟩ := h j a ha
  exact ⟨hid, List.mem_cons_of_mem _ hlive⟩

/-- An id that is not live is free. -/
theorem lookup_eq_none (h : Live idOf items ids) (hi : i ∉ ids) : items.lookup i = none := by
  by_contra hne
  obtain ⟨a, ha⟩ := Option.ne_none_iff_exists'.mp hne
  exact hi (h i a ha).2

theorem insert (h : Live idOf items ids) (ha : idOf a ∈ ids) :
    Live idOf (items.insert (idOf a) a) ids := by
  intro j b hb
  rw [Map.lookup_insert_ite] at hb
  split at hb
  case isTrue hj =>
    obtain rfl := Option.some.inj hb
    exact ⟨hj.symm, hj ▸ ha⟩
  case isFalse => exact h j b hb

/-- An item goes, and its id is live no more. -/
theorem erase (h : Live idOf items ids) (i : I) : Live idOf (items.erase i) (ids.erase i) := by
  intro j a ha
  rw [Map.lookup_erase_ite] at ha
  split at ha
  case isTrue => cases ha
  case isFalse hj =>
    obtain ⟨hid, hlive⟩ := h j a ha
    exact ⟨hid, (List.mem_erase_of_ne hj).mpr hlive⟩

/-- An item is written that keeps its id. -/
theorem adjust {f : A → A} (h : Live idOf items ids) (hf : ∀ a, idOf (f a) = idOf a) (i : I) :
    Live idOf (items.adjust i f) ids := by
  intro j a ha
  rw [Map.lookup_adjust] at ha
  split at ha
  case isFalse => exact h j a ha
  case isTrue hj =>
    subst hj
    obtain ⟨b, hb, rfl⟩ := Option.map_eq_some_iff.mp ha
    obtain ⟨hid, hlive⟩ := h j b hb
    exact ⟨(hf b).trans hid, hlive⟩

end Live

/-! ## Items and objects -/

/-- Exactly the items that stand where the objects place them have tags, and an item
fits the object it stands for. -/
structure Tagged (tag : A → Option O) (place : B → I) (fits : O → B → A → Prop) (items : Map I A)
    (objects : Map O B) : Prop where
  tags : ∀ i o, (items.lookup i).bind tag = some o ↔ ∃ b, objects.lookup o = some b ∧ place b = i
  fit : ∀ o b a, objects.lookup o = some b → items.lookup (place b) = some a → fits o b a

namespace Tagged
variable {tag : A → Option O} {place : B → I} {fits fits' : O → B → A → Prop} {items : Map I A}
  {objects : Map O B} {i : I} {o o' : O} {a : A} {b b' : B}

theorem mono (h : Tagged tag place fits items objects)
    (hfits : ∀ o b a, objects.lookup o = some b → fits o b a → fits' o b a) :
    Tagged tag place fits' items objects :=
  ⟨h.tags, fun o b a hb ha => hfits o b a hb (h.fit o b a hb ha)⟩

/-- The item of an object. -/
theorem exists_item (h : Tagged tag place fits items objects) (hb : objects.lookup o = some b) :
    ∃ a, items.lookup (place b) = some a ∧ tag a = some o ∧ fits o b a := by
  obtain ⟨a, ha, htag⟩ := Option.bind_eq_some_iff.mp ((h.tags (place b) o).mpr ⟨b, hb, rfl⟩)
  exact ⟨a, ha, htag, h.fit o b a hb ha⟩

/-- Two objects have two items. -/
theorem eq_of_place (h : Tagged tag place fits items objects) (hb : objects.lookup o = some b)
    (hb' : objects.lookup o' = some b') (hplace : place b = place b') : o = o' := by
  have ho := (h.tags (place b) o).mpr ⟨b, hb, rfl⟩
  have ho' := (h.tags (place b) o').mpr ⟨b', hb', hplace.symm⟩
  rw [ho] at ho'
  exact Option.some.inj ho'

/-- Where there is no item there is none of an object. -/
theorem place_ne (h : Tagged tag place fits items objects) (hi : items.lookup i = none)
    (hb : objects.lookup o = some b) : place b ≠ i := by
  obtain ⟨a, ha, -⟩ := h.exists_item hb
  intro heq
  rw [heq, hi] at ha
  cases ha

/-- No objects, and no items that stand for one. -/
theorem of_none (h : ∀ i, (items.lookup i).bind tag = none) : Tagged tag place fits items ∅ := by
  refine ⟨fun i o => ?_, fun o b a hb => by cases hb⟩
  rw [h i]
  constructor
  · intro hsome
    cases hsome
  · rintro ⟨b, hb, -⟩
    cases hb

/-! ## Items without a tag -/

/-- An item that stands for nothing is put where there was none. -/
theorem insert_untagged (h : Tagged tag place fits items objects) (hi : items.lookup i = none)
    (ha : tag a = none) : Tagged tag place fits (items.insert i a) objects := by
  refine ⟨fun j o => ?_, fun o b a' hb ha' => ?_⟩
  · rw [Map.lookup_insert_ite]
    split
    case isFalse => exact h.tags j o
    case isTrue hj =>
      subst hj
      rw [Option.bind_some, ha]
      refine ⟨fun hsome => (by cases hsome), ?_⟩
      rintro ⟨b, hb, hplace⟩
      exact absurd hplace (h.place_ne hi hb)
  · rw [Map.lookup_insert_ite, if_neg (h.place_ne hi hb)] at ha'
    exact h.fit o b a' hb ha'

/-- An item that stands for nothing is taken away. -/
theorem erase_untagged (h : Tagged tag place fits items objects)
    (hi : (items.lookup i).bind tag = none) : Tagged tag place fits (items.erase i) objects := by
  refine ⟨fun j o => ?_, fun o b a hb ha => ?_⟩
  · rw [Map.lookup_erase_ite]
    split
    case isFalse => exact h.tags j o
    case isTrue hj =>
      subst hj
      rw [← h.tags j o, hi]
      simp
  · rw [Map.lookup_erase_ite] at ha
    split at ha
    case isTrue => cases ha
    case isFalse => exact h.fit o b a hb ha

/-! ## Objects and their items -/

/-- A new object, with its item. -/
theorem add (h : Tagged tag place fits items objects) (ho : o ∉ objects)
    (hi : items.lookup (place b) = none) (ha : tag a = some o) (hfits : fits o b a) :
    Tagged tag place fits (items.insert (place b) a) (objects.insert o b) := by
  have ho' : objects.lookup o = none := AList.lookup_eq_none.mpr ho
  refine ⟨fun j k => ?_, fun k c a' hc ha' => ?_⟩
  · rw [Map.lookup_insert_ite]
    split
    case isTrue hj =>
      rw [Option.bind_some, ha, hj, Option.some.injEq]
      constructor
      · rintro rfl
        exact ⟨b, by rw [Map.lookup_insert_ite, if_pos rfl], rfl⟩
      · rintro ⟨c, hc, hplace⟩
        rw [Map.lookup_insert_ite] at hc
        split at hc
        case isTrue hk => exact hk.symm
        case isFalse => exact absurd hplace (h.place_ne hi hc)
    case isFalse hj =>
      rw [h.tags j k]
      constructor
      · rintro ⟨c, hc, hplace⟩
        have hk : k ≠ o := fun hk => by
          rw [hk, ho'] at hc
          cases hc
        exact ⟨c, by rw [Map.lookup_insert_ite, if_neg hk, hc], hplace⟩
      · rintro ⟨c, hc, hplace⟩
        rw [Map.lookup_insert_ite] at hc
        split at hc
        case isTrue =>
          obtain rfl := Option.some.inj hc
          exact absurd hplace.symm hj
        case isFalse => exact ⟨c, hc, hplace⟩
  · rw [Map.lookup_insert_ite] at hc
    split at hc
    case isTrue hk =>
      obtain rfl := Option.some.inj hc
      rw [Map.lookup_insert_ite, if_pos rfl, Option.some.injEq] at ha'
      exact hk ▸ ha' ▸ hfits
    case isFalse =>
      rw [Map.lookup_insert_ite, if_neg (h.place_ne hi hc)] at ha'
      exact h.fit k c a' hc ha'

/-- An object goes, and its item with it. -/
theorem remove (h : Tagged tag place fits items objects) (hb : objects.lookup o = some b) :
    Tagged tag place fits (items.erase (place b)) (objects.erase o) := by
  have hgone : ∀ {k c}, (objects.erase o).lookup k = some c →
      objects.lookup k = some c ∧ place c ≠ place b := by
    intro k c hc
    rw [Map.lookup_erase_ite] at hc
    split at hc
    case isTrue => cases hc
    case isFalse hk => exact ⟨hc, fun hplace => hk (h.eq_of_place hc hb hplace)⟩
  refine ⟨fun j k => ?_, fun k c a hc ha => ?_⟩
  · rw [Map.lookup_erase_ite]
    split
    case isTrue hj =>
      refine ⟨fun hsome => (by cases hsome), ?_⟩
      rintro ⟨c, hc, hplace⟩
      exact absurd (hplace.trans hj) (hgone hc).2
    case isFalse hj =>
      rw [h.tags j k]
      constructor
      · rintro ⟨c, hc, hplace⟩
        have hk : k ≠ o := fun hk => by
          rw [hk, hb, Option.some.injEq] at hc
          exact hj (hc ▸ hplace.symm)
        exact ⟨c, by rw [Map.lookup_erase_ite, if_neg hk, hc], hplace⟩
      · rintro ⟨c, hc, hplace⟩
        exact ⟨c, (hgone hc).1, hplace⟩
  · obtain ⟨hc, hne⟩ := hgone hc
    rw [Map.lookup_erase_ite, if_neg hne] at ha
    exact h.fit k c a hc ha

/-- Where the items of all objects are taken away, none is left that stands for one. -/
theorem sweep (h : Tagged tag place fits items objects) (i : I) :
    ((objects.values.foldl (fun m b => m.erase (place b)) items).lookup i).bind tag = none := by
  have hfold : ∀ (bs : List B) (m : Map I A), (bs.foldl (fun m b => m.erase (place b)) m).lookup i =
      if ∃ b ∈ bs, place b = i then none else m.lookup i := by
    intro bs
    induction bs with
    | nil => simp
    | cons b bs ih =>
      intro m
      rw [List.foldl_cons, ih, Map.lookup_erase_ite]
      by_cases hb : place b = i
      · simp [hb]
      · simp [hb, Ne.symm hb]
  rw [hfold]
  split
  case isTrue => rfl
  case isFalse hnone =>
    by_contra hne
    obtain ⟨o, ho⟩ := Option.ne_none_iff_exists'.mp hne
    obtain ⟨b, hb, hplace⟩ := (h.tags i o).mp ho
    exact hnone ⟨b, Map.mem_values_of_lookup hb, hplace⟩

/-- An object is written that keeps its place. -/
theorem adjust {f : B → B} (h : Tagged tag place fits items objects)
    (hplace : ∀ b, objects.lookup o = some b → place (f b) = place b)
    (hfits : ∀ b a, objects.lookup o = some b → fits o b a → fits' o (f b) a)
    (hother : ∀ k b a, k ≠ o → fits k b a → fits' k b a) :
    Tagged tag place fits' items (objects.adjust o f) := by
  refine ⟨fun j k => ?_, fun k c a hc ha => ?_⟩
  · rw [h.tags j k, Map.lookup_adjust]
    split
    case isFalse => rfl
    case isTrue hk =>
      subst hk
      cases hb : objects.lookup k with
      | none => simp
      | some b => simp [hplace b hb]
  · rw [Map.lookup_adjust] at hc
    split at hc
    case isFalse hk => exact hother k c a hk (h.fit k c a hc ha)
    case isTrue hk =>
      subst hk
      obtain ⟨b, hb, rfl⟩ := Option.map_eq_some_iff.mp hc
      rw [hplace b hb] at ha
      exact hfits b a hb (h.fit k b a hb ha)

/-- An object is given another item, in another place. -/
theorem move (h : Tagged tag place fits items objects) (b' : B) (hb : objects.lookup o = some b)
    (hi : (items.erase (place b)).lookup (place b') = none) (ha : tag a = some o)
    (hfits : fits' o b' a) (hother : ∀ k b a, k ≠ o → fits k b a → fits' k b a) :
    Tagged tag place fits' ((items.erase (place b)).insert (place b') a)
      (objects.adjust o fun _ => b') := by
  have hremoved : Tagged tag place fits' (items.erase (place b)) (objects.erase o) := by
    refine (h.remove hb).mono fun k c a hc => hother k c a fun hk => ?_
    rw [Map.lookup_erase_ite, if_pos hk] at hc
    cases hc
  have hnew := hremoved.add (AList.mem_erase.not.mpr fun hmem => hmem.1 rfl) hi ha hfits
  have hsame : ∀ k, (objects.adjust o fun _ => b').lookup k =
      ((objects.erase o).insert o b').lookup k := by
    intro k
    rw [Map.lookup_adjust, Map.lookup_insert_ite, Map.lookup_erase_ite, hb, Option.map_some]
    by_cases hk : k = o
    · rw [if_pos hk, if_pos hk]
    · rw [if_neg hk, if_neg hk, if_neg hk]
  refine ⟨fun j k => ?_, fun k c a' hc => ?_⟩
  · rw [hsame k]
    exact hnew.tags j k
  · rw [hsame k] at hc
    exact hnew.fit k c a' hc

end Tagged
end Imperative
