import FreshCity.Imperative.Document

/-!
# Paths of a document

What was written at the end of a path is read there. A write leaves alone what lies at the end of
another path, unless one of the two leads on from the other.
-/
namespace Imperative.Doc

variable {κ : Type} [DecidableEq κ] {d d' : Doc κ} {p q : List κ} {k : κ} {v : Bson κ}

/-! ## One path after another -/

theorem descend_append (b : Bson κ) :
    Bson.descend (p ++ q) b = (Bson.descend p b).bind (Bson.descend q) := by
  induction p generalizing b with
  | nil => rw [List.nil_append, descend_nil, Option.bind_some]
  | cons i p ih =>
    cases b with
    | object d => simp only [List.cons_append, descend_object, at?_cons, ih, Option.bind_assoc]
    | _ => rfl

theorem at?_singleton : at? d [k] = field? d k := by
  rw [at?_cons, funext descend_nil]
  exact Option.bind_fun_some _

theorem at?_append : at? d (p ++ q) = (at? d p).bind (Bson.descend q) := descend_append _

/-- A field that is no index of an array is read of documents only. -/
theorem at?_asObject {index : ℕ → κ} (hk : ∀ i, index i ≠ k) (b : Bson κ) :
    (b.asObject index).bind (fun e => at? e (k :: q)) = Bson.descend (k :: q) b := by
  cases b with
  | object e => rfl
  | array es =>
    have hnone : field? (es.mapIdx fun i e => (index i, e)) k = none := by
      rw [field?, Option.map_eq_none_iff, List.find?_eq_none]
      intro e he
      obtain ⟨i, -, rfl⟩ := List.mem_mapIdx.mp he
      simpa using hk i
    rw [Bson.asObject, Option.bind_some, at?_cons, hnone]
    rfl
  | _ => rfl

/-- To read a document below a path is to read on from its end. -/
theorem at?_asObject_append {index : ℕ → κ} (hk : ∀ i, index i ≠ k) :
    ((at? d p).bind (Bson.asObject index)).bind (fun e => at? e (k :: q)) =
      at? d (p ++ k :: q) := by
  rw [at?_append, Option.bind_assoc]
  exact Option.bind_congr fun b _ => at?_asObject hk b

/-! ## Writes -/

/-- Two paths go different ways at some field. -/
def parts : List κ → List κ → Bool
  | i :: p, j :: q => if i = j then parts p q else true
  | _, _ => false

theorem at?_nil : at? ([] : Doc κ) (k :: p) = none := rfl

theorem ne_nil_of_parts (h : parts p q = true) : p ≠ [] ∧ q ≠ [] := by
  cases p <;> cases q <;> simp [parts] at h ⊢

theorem at?_setAt_of_parts (h : setAt q v d = some d') (hparts : parts p q = true) :
    at? d' p = at? d p := by
  induction q generalizing p d d' with
  | nil => exact absurd rfl (ne_nil_of_parts hparts).2
  | cons j q ih =>
    cases p with
    | nil => cases hparts
    | cons i p =>
      rw [parts] at hparts
      split at hparts
      case isFalse hij => rw [at?_cons, at?_cons, field?_setAt_of_ne h hij]
      case isTrue hij =>
        subst hij
        obtain ⟨hp, hq⟩ := ne_nil_of_parts hparts
        obtain ⟨a, p, rfl⟩ := List.exists_cons_of_ne_nil hp
        obtain ⟨b, q, rfl⟩ := List.exists_cons_of_ne_nil hq
        rw [setAt_cons_cons] at h
        split at h
        case h_1 hnone =>
          obtain ⟨inner, hinner, rfl⟩ := Option.map_eq_some_iff.mp h
          rw [at?_cons, at?_cons, field?_setField, if_pos rfl, hnone, Option.bind_some,
            descend_object, ih hinner hparts, at?_nil, Option.bind_none]
        case h_2 inner hsome =>
          obtain ⟨inner', hinner, rfl⟩ := Option.map_eq_some_iff.mp h
          rw [at?_cons, at?_cons, field?_setField, if_pos rfl, hsome, Option.bind_some,
            Option.bind_some, descend_object, descend_object, ih hinner hparts]
        case h_3 => cases h

/-- What was written is read. -/
theorem at?_setAt_self (h : setAt q v d = some d') : at? d' q = some v := by
  induction q generalizing d d' with
  | nil => cases h
  | cons j q ih =>
    cases q with
    | nil =>
      rw [setAt_singleton, Option.some.injEq] at h
      rw [← h, at?_cons, field?_setField, if_pos rfl, Option.bind_some, descend_nil]
    | cons i q =>
      rw [setAt_cons_cons] at h
      split at h
      case h_3 => cases h
      all_goals
        obtain ⟨inner, hinner, rfl⟩ := Option.map_eq_some_iff.mp h
        rw [at?_cons, field?_setField, if_pos rfl, Option.bind_some, descend_object, ih hinner]

/-- Writes at the ends of other paths. -/
theorem at?_setAll_of_parts {writes : List (List κ × Bson κ)} (h : setAll d writes = some d')
    (hparts : ∀ w ∈ writes, parts p w.1 = true) : at? d' p = at? d p := by
  induction writes generalizing d with
  | nil =>
    obtain rfl : d = d' := Option.some.inj h
    rfl
  | cons w writes ih =>
    rw [setAll, List.foldlM_cons] at h
    obtain ⟨e, he, hrest⟩ := Option.bind_eq_some_iff.mp h
    rw [List.forall_mem_cons] at hparts
    rw [ih hrest hparts.2, at?_setAt_of_parts he hparts.1]

/-- What one of several writes wrote is read, if the others are at the ends of other paths. -/
theorem at?_setAll_of_mem {writes : List (List κ × Bson κ)} {w : List κ × Bson κ}
    (h : setAll d writes = some d') (hw : w ∈ writes)
    (hparts : writes.Pairwise fun a b => parts a.1 b.1 = true) : at? d' w.1 = some w.2 := by
  induction writes generalizing d with
  | nil => cases hw
  | cons v writes ih =>
    rw [setAll, List.foldlM_cons] at h
    obtain ⟨e, he, hrest⟩ := Option.bind_eq_some_iff.mp h
    rw [List.pairwise_cons] at hparts
    rcases List.mem_cons.mp hw with rfl | hw
    · rw [at?_setAll_of_parts hrest hparts.1, at?_setAt_self he]
    · exact ih hrest hw hparts.2

end Imperative.Doc
