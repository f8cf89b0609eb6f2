import Mathlib.Data.Rat.Defs
import Mathlib.Tactic

/-!
# Documents of a document database

A document is an ordered list of named fields whose values may again be
documents or arrays. Reading asks for a field by its path and for a type; a
missing field and a field of another type are both a failure. Writing follows
the database's `$set`: missing parents are created, and a parent that is there
but is not a document is an error.
-/
namespace Imperative

/-- Field values over field names `κ`. A text is a string of bytes. -/
inductive Bson (κ : Type) where
  | number (q : ℚ)
  | string (text : List UInt8)
  | bool (b : Bool)
  | oid (data : BitVec 96)
  | date (t : ℤ)
  | object (fields : List (κ × Bson κ))
  | array (elems : List (Bson κ))

/-- Documents over field names `κ`. -/
abbrev Doc (κ : Type) : Type := List (κ × Bson κ)

namespace Bson
variable {κ : Type}

def int (n : ℤ) : Bson κ := number n

def asNumber : Bson κ → Option ℚ
  | number q => some q
  | _ => none

def asString : Bson κ → Option (List UInt8)
  | string t => some t
  | _ => none

def asBool : Bson κ → Option Bool
  | bool b => some b
  | _ => none

def asOid : Bson κ → Option (BitVec 96)
  | oid o => some o
  | _ => none

/-- An array can be read as a document whose fields are named by the indices. -/
def asObject (index : ℕ → κ) : Bson κ → Option (Doc κ)
  | object d => some d
  | array es => some (es.mapIdx fun i e => (index i, e))
  | _ => none

def asArray : Bson κ → Option (List (Bson κ))
  | array es => some es
  | _ => none

variable [DecidableEq κ]

/-- The value reached by following field names downwards. -/
def descend : List κ → Bson κ → Option (Bson κ)
  | [], b => some b
  | k :: ks, object d => ((d.find? fun e => e.1 = k).map Prod.snd).bind (descend ks)
  | _ :: _, _ => none

end Bson

namespace Doc
variable {κ : Type} [DecidableEq κ]

/-- The value of one field. -/
def field? (d : Doc κ) (k : κ) : Option (Bson κ) := (d.find? fun e => e.1 = k).map Prod.snd

/-- The value at the end of a path of fields. -/
def at? (d : Doc κ) (path : List κ) : Option (Bson κ) := Bson.descend path (.object d)

/-- Write one field in place, or append it. -/
def setField (d : Doc κ) (k : κ) (v : Bson κ) : Doc κ :=
  match d with
  | [] => [(k, v)]
  | e :: d => if e.1 = k then (k, v) :: d else e :: setField d k v

/-- Write the value at the end of a path. Fails on a parent that is no document. -/
def setAt : List κ → Bson κ → Doc κ → Option (Doc κ)
  | [], _, _ => none
  | [k], v, d => some (setField d k v)
  | k :: ks, v, d =>
    match field? d k with
    | none => (setAt ks v []).map fun inner => setField d k (.object inner)
    | some (.object inner) => (setAt ks v inner).map fun inner' => setField d k (.object inner')
    | some _ => none

/-- `$set`: all writes, or an error and none of them. -/
def setAll (d : Doc κ) (writes : List (List κ × Bson κ)) : Option (Doc κ) :=
  writes.foldlM (fun d w => setAt w.1 w.2 d) d

/-! ## Reading what was written -/

@[simp] theorem field?_nil (k : κ) : field? ([] : Doc κ) k = none := rfl

theorem field?_cons (e : κ × Bson κ) (d : Doc κ) (k : κ) :
    field? (e :: d) k = if e.1 = k then some e.2 else field? d k := by
  by_cases h : e.1 = k <;> simp [field?, h]

@[simp] theorem field?_setField (d : Doc κ) (k j : κ) (v : Bson κ) :
    field? (setField d k v) j = if j = k then some v else field? d j := by
  induction d with
  | nil => simp [setField, field?_cons, eq_comm]
  | cons e d ih =>
    rw [setField]
    split
    case isTrue hk =>
      subst hk
      rw [field?_cons, field?_cons]
      by_cases hj : j = e.1
      · simp [hj]
      · simp [hj, Ne.symm hj]
    case isFalse hk =>
      rw [field?_cons, field?_cons, ih]
      by_cases hj : e.1 = j
      · subst hj
        simp [hk]
      · simp [hj]

theorem at?_cons (d : Doc κ) (k : κ) (ks : List κ) :
    at? d (k :: ks) = (field? d k).bind (Bson.descend ks) := rfl

@[simp] theorem descend_nil (b : Bson κ) : Bson.descend [] b = some b := by
  cases b <;> rfl

@[simp] theorem descend_object (d : Doc κ) (path : List κ) :
    Bson.descend path (.object d) = at? d path := rfl

@[simp] theorem setAt_singleton (d : Doc κ) (k : κ) (v : Bson κ) :
    setAt [k] v d = some (setField d k v) := rfl

@[simp] theorem setAll_singleton (d : Doc κ) (path : List κ) (v : Bson κ) :
    setAll d [(path, v)] = setAt path v d := by
  simp [setAll]

/-- A write below a field rewrites the document that is there, or a new one. -/
theorem setAt_cons_cons (d : Doc κ) (k j : κ) (ks : List κ) (v : Bson κ) :
    setAt (k :: j :: ks) v d = match field? d k with
      | none => (setAt (j :: ks) v []).map fun inner => setField d k (.object inner)
      | some (.object inner) =>
        (setAt (j :: ks) v inner).map fun inner' => setField d k (.object inner')
      | some _ => none := by
  rw [setAt]
  exact List.cons_ne_nil j ks

/-- A write below a field leaves the other fields alone. -/
theorem field?_setAt_of_ne {d d' : Doc κ} {k j : κ} {ks : List κ} {v : Bson κ}
    (h : setAt (k :: ks) v d = some d') (hj : j ≠ k) : field? d' j = field? d j := by
  cases ks with
  | nil =>
    rw [setAt_singleton, Option.some.injEq] at h
    rw [← h, field?_setField, if_neg hj]
  | cons i ks =>
    rw [setAt_cons_cons] at h
    split at h
    · obtain ⟨inner, -, rfl⟩ := Option.map_eq_some_iff.mp h
      rw [field?_setField, if_neg hj]
    · obtain ⟨inner, -, rfl⟩ := Option.map_eq_some_iff.mp h
      rw [field?_setField, if_neg hj]
    · cases h

/-- Writes below other fields leave a field alone. -/
theorem field?_setAll_of_ne {d d' : Doc κ} {j : κ} {writes : List (List κ × Bson κ)}
    (h : setAll d writes = some d') (hne : ∀ w ∈ writes, ∃ k ks, w.1 = k :: ks ∧ j ≠ k) :
    field? d' j = field? d j := by
  induction writes generalizing d with
  | nil =>
    obtain rfl : d = d' := Option.some.inj h
    rfl
  | cons w writes ih =>
    rw [setAll, List.foldlM_cons] at h
    obtain ⟨e, he, hrest⟩ := Option.bind_eq_some_iff.mp h
    obtain ⟨k, ks, hpath, hj⟩ := hne w (List.mem_cons_self ..)
    rw [hpath] at he
    rw [ih hrest fun v hv => hne v (List.mem_cons_of_mem _ hv), field?_setAt_of_ne he hj]

/-- A write below a document that is there is a write to it. -/
theorem field?_setAt_of_object {d d' inner : Doc κ} {k j : κ} {ks : List κ} {v : Bson κ}
    (h : setAt (k :: j :: ks) v d = some d') (hinner : field? d k = some (.object inner)) :
    ∃ inner', setAt (j :: ks) v inner = some inner' ∧ field? d' k = some (.object inner') := by
  rw [setAt_cons_cons, hinner] at h
  obtain ⟨inner', hinner', rfl⟩ := Option.map_eq_some_iff.mp h
  exact ⟨inner', hinner', by rw [field?_setField, if_pos rfl]⟩

theorem setField_eq_self {d : Doc κ} {k : κ} {v : Bson κ} (h : field? d k = some v) :
    setField d k v = d := by
  induction d with
  | nil => cases h
  | cons e d ih =>
    rw [field?_cons] at h
    rw [setField]
    split at h
    case isTrue hk =>
      rw [if_pos hk, ← Option.some.inj h, ← hk]
    case isFalse hk => rw [if_neg hk, ih h]

/-- A write of the value that is there changes nothing. -/
theorem setAt_eq_self {d : Doc κ} {k : κ} {path : List κ} {v : Bson κ}
    (h : at? d (k :: path) = some v) : setAt (k :: path) v d = some d := by
  induction path generalizing d k with
  | nil =>
    rw [at?_cons] at h
    obtain ⟨b, hb, hv⟩ := Option.bind_eq_some_iff.mp h
    rw [descend_nil, Option.some.injEq] at hv
    rw [setAt_singleton, setField_eq_self (hb.trans (congrArg some hv))]
  | cons j path ih =>
    rw [at?_cons] at h
    obtain ⟨b, hb, hv⟩ := Option.bind_eq_some_iff.mp h
    cases b with
    | object inner =>
      rw [descend_object] at hv
      simp only [setAt_cons_cons, hb]
      rw [ih hv, Option.map_some, setField_eq_self hb]
    | _ => cases hv

end Doc
end Imperative
