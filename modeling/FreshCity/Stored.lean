import FreshCity.Saving

/-!
# Stored documents

What an update does to the document it names, and that it leaves the others alone.
Fields other than `_id` are written, so documents keep their ids.
-/
namespace FreshCity
open Imperative Prog

namespace Fault

/-- A failure that is noticed, and not a document that is deleted from elsewhere. -/
def isSound : Fault → Bool
  | error e => !e.isEmpty
  | vanished => false
  | _ => true

end Fault

namespace Database

/-- The document an object is loaded from. -/
def stored (db : Database) (c : Collection) (id : OID) : Option Document :=
  (db.docs c).find? (byId id)

variable {db : Database} {c c' : Collection} {id j : OID} {k : Field} {path : List Field}
  {v : Bson Field} {d d' : Document}

theorem stored_congr {db' : Database} (h : db'.docs = db.docs) : db'.stored c id = db.stored c id := by
  rw [stored, stored, h]

/-- A document keeps its id. -/
theorem documentId_setAt (hk : k ≠ ._id) (h : Doc.setAt (k :: path) v d = some d') :
    documentId d' = documentId d := by
  rw [documentId, documentId, Doc.field?_setAt_of_ne h hk.symm]

theorem find?_updateFirst_self {q : Document → Bool} {l : List Document}
    (h : l.find? q = some d) (hd : q d' = true) : (updateFirst q d' l).find? q = some d' := by
  induction l with
  | nil => cases h
  | cons x l ih =>
    rw [updateFirst]
    split
    case isTrue => rw [List.find?_cons_of_pos hd]
    case isFalse hx =>
      rw [List.find?_cons_of_neg hx] at h ⊢
      exact ih h

theorem find?_updateFirst_other {q q' : Document → Bool} {l : List Document}
    (h : l.find? q = some d) (hd : q' d = false) (hd' : q' d' = false) :
    (updateFirst q d' l).find? q' = l.find? q' := by
  induction l with
  | nil => cases h
  | cons x l ih =>
    rw [updateFirst]
    split
    case isTrue hx =>
      rw [List.find?_cons_of_pos hx, Option.some.injEq] at h
      subst h
      rw [List.find?_cons_of_neg (by simp [hd']), List.find?_cons_of_neg (by simp [hd])]
    case isFalse hx =>
      rw [List.find?_cons_of_neg hx] at h
      rw [List.find?_cons, List.find?_cons, ih h]

theorem byId_iff : byId id d = true ↔ documentId d = some id := decide_eq_true_iff

theorem documentId_of_stored (h : db.stored c id = some d) : documentId d = some id :=
  byId_iff.mp (List.find?_some h)

/-- What a write does to the documents, if it is carried out. -/
theorem update_docs (db : Database) (c : Collection) (id : OID) (m : Modifier) :
    (db.update c id m).docs = match (db.stored c id).bind fun d => d.setAll m with
      | some d' => Function.update db.docs c (updateFirst (byId id) d' (db.docs c))
      | none => db.docs := by
  rw [update, stored]
  cases hd : (db.docs c).find? (byId id) with
  | none => rfl
  | some d =>
    simp only [Option.bind_some]
    cases d.setAll m <;> rfl

/-- A write leaves the other documents alone. -/
theorem stored_update_other (hk : k ≠ ._id) (h : ¬(c' = c ∧ j = id)) :
    (db.update c id [(k :: path, v)]).stored c' j = db.stored c' j := by
  rw [stored, stored, update_docs]
  cases hd' : (db.stored c id).bind fun d => d.setAll [(k :: path, v)] with
  | none => rfl
  | some d' =>
    obtain ⟨d, hd, hset⟩ := Option.bind_eq_some_iff.mp hd'
    rw [Doc.setAll_singleton] at hset
    by_cases hc : c' = c
    · subst hc
      have hj : j ≠ id := fun hj => h ⟨rfl, hj⟩
      have hid := documentId_of_stored hd
      have hid' : documentId d' = some id := (documentId_setAt hk hset).trans hid
      simp only [Function.update_self]
      exact find?_updateFirst_other hd (by simp [byId, hid, hj.symm]) (by simp [byId, hid', hj.symm])
    · simp only [Function.update_of_ne hc]

/-- What the document is that an update names, if the update is carried out. -/
theorem stored_update_self (hk : k ≠ ._id) (hd : db.stored c id = some d) :
    (db.update c id [(k :: path, v)]).stored c id = some ((d.setAt (k :: path) v).getD d) := by
  rw [stored, update_docs, hd, Option.bind_some, Doc.setAll_singleton]
  cases hset : d.setAt (k :: path) v with
  | none => exact hd
  | some d' =>
    have hid : documentId d' = some id := (documentId_setAt hk hset).trans (documentId_of_stored hd)
    simp only [Function.update_self]
    exact find?_updateFirst_self hd (byId_iff.mpr hid)

theorem stored_update_none (h : db.stored c id = none) :
    (db.update c id [(k :: path, v)]).stored c id = none := by
  rw [stored, update_docs, h]
  exact h

theorem lasterror_update (hd : db.stored c id = some d) :
    (db.update c id [(k :: path, v)]).lasterror =
      if (d.setAt (k :: path) v).isSome then none else some conflictingModifier := by
  have hd' : (db.docs c).find? (byId id) = some d := hd
  rw [update, hd']
  simp only [Doc.setAll_singleton]
  cases d.setAt (k :: path) v <;> rfl

/-! ## Updates and their faults -/

theorem stored_vanish_self : (db.vanish c (byId id)).stored c id = none := by
  rw [stored, List.find?_eq_none]
  intro d hd hid
  have hmem : d ∈ (db.docs c).filter fun d => !byId id d := by
    simpa [vanish, setDocs] using hd
  have hnot : (!byId id d) = true := (List.mem_filter.mp hmem).2
  simp [hid] at hnot

theorem stored_vanish_other (h : ¬(c' = c ∧ j = id)) :
    (db.vanish c (byId id)).stored c' j = db.stored c' j := by
  by_cases hc : c' = c
  · subst hc
    have hj : j ≠ id := fun hj => h ⟨rfl, hj⟩
    simp only [stored, vanish, setDocs, Function.update_self, List.find?_filter]
    congr 1
    funext d
    by_cases hd : byId j d = true
    · have hne : byId id d = false := by
        rw [byId_iff] at hd
        simp [byId, hd, hj]
      simp [hd, hne]
    · simp [hd]
  · simp only [stored, vanish, setDocs, Function.update_of_ne hc]

/-- An update leaves the other documents alone, whatever fault it meets. -/
theorem stored_afterUpdate_other (hk : k ≠ ._id) (h : ¬(c' = c ∧ j = id)) :
    (db.afterUpdate c id [(k :: path, v)]).stored c' j = db.stored c' j := by
  rw [afterUpdate]
  cases db.fault with
  | error e => rfl
  | vanished => exact stored_vanish_other h
  | none => exact stored_update_other hk h
  | throws exn => exact stored_update_other hk h

/-- An update writes its document or does not. -/
theorem stored_afterUpdate_or (hk : k ≠ ._id)
    (h : (db.afterUpdate c id [(k :: path, v)]).stored c id = some d') :
    db.stored c id = some d' ∨
      ∃ d, db.stored c id = some d ∧ d.setAt (k :: path) v = some d' := by
  have hwrite : (db.next.update c id [(k :: path, v)]).stored c id = some d' →
      db.stored c id = some d' ∨
        ∃ d, db.stored c id = some d ∧ d.setAt (k :: path) v = some d' := by
    intro h
    cases hd : db.stored c id with
    | none =>
      have hnone : (db.next.update c id [(k :: path, v)]).stored c id = none := stored_update_none hd
      rw [hnone] at h
      cases h
    | some d =>
      have hself : (db.next.update c id [(k :: path, v)]).stored c id =
          some ((d.setAt (k :: path) v).getD d) := stored_update_self hk hd
      rw [hself, Option.some.injEq] at h
      cases hset : d.setAt (k :: path) v with
      | none =>
        rw [hset, Option.getD_none] at h
        exact .inl (congrArg some h)
      | some d'' =>
        rw [hset, Option.getD_some] at h
        exact .inr ⟨d, rfl, hset.trans (congrArg some h)⟩
  rw [afterUpdate] at h
  cases hf : db.fault with
  | error e => rw [hf] at h; exact .inl h
  | vanished =>
    rw [hf] at h
    have hnone : (db.next.vanish c (byId id)).stored c id = none := stored_vanish_self
    exact absurd (h.symm.trans hnone) (by simp)
  | none => rw [hf] at h; exact hwrite h
  | throws exn => rw [hf] at h; exact hwrite h

theorem refusesUpdate_eq_false {m : Modifier} (h : db.refusesUpdate c id m = false) :
    db.fault.isThrow = false ∧ (db.afterUpdate c id m).fault.isThrow = false ∧
      (db.afterUpdate c id m).lasterror.getD [] = [] := by
  simpa [refusesUpdate, and_assoc] using h

theorem conflictingModifier_ne_nil : conflictingModifier ≠ [] := by decide

/-- An update without a fault that is not refused is carried out. -/
theorem setAt_of_accepted (hf : db.fault = .none) (hd : db.stored c id = some d)
    (h : db.refusesUpdate c id [(k :: path, v)] = false) :
    ∃ d', d.setAt (k :: path) v = some d' := by
  have herror := (refusesUpdate_eq_false h).2.2
  rw [afterUpdate, hf] at herror
  have hlast : (db.next.update c id [(k :: path, v)]).lasterror =
      if (d.setAt (k :: path) v).isSome then none else some conflictingModifier := lasterror_update hd
  cases hset : d.setAt (k :: path) v with
  | some d' => exact ⟨d', rfl⟩
  | none =>
    rw [hset] at hlast
    exact absurd (by simpa [updated, written, hlast] using herror) conflictingModifier_ne_nil

/-- An update that is not refused has written the document, if it is still there. -/
theorem stored_of_accepted (hk : k ≠ ._id) (hf : db.fault ≠ .error [])
    (h : db.refusesUpdate c id [(k :: path, v)] = false)
    (hd' : (db.afterUpdate c id [(k :: path, v)]).stored c id = some d') :
    ∃ d, db.stored c id = some d ∧ d.setAt (k :: path) v = some d' := by
  obtain ⟨hthrow, -, herror⟩ := refusesUpdate_eq_false h
  cases hfault : db.fault with
  | throws exn => simp [hfault, Fault.isThrow] at hthrow
  | error e =>
    rw [afterUpdate, hfault] at herror
    have hempty : e = [] := herror
    exact absurd (hempty ▸ hfault) hf
  | vanished =>
    rw [afterUpdate, hfault] at hd'
    have hnone : (db.next.vanish c (byId id)).stored c id = none := stored_vanish_self
    exact absurd (hd'.symm.trans hnone) (by simp)
  | none =>
    cases hd : db.stored c id with
    | none =>
      rw [afterUpdate, hfault] at hd'
      have hnone : (db.next.update c id [(k :: path, v)]).stored c id = none := stored_update_none hd
      exact absurd (hd'.symm.trans hnone) (by simp)
    | some d =>
      obtain ⟨d'', hset⟩ := setAt_of_accepted hfault hd h
      rw [afterUpdate, hfault] at hd'
      have hself : (db.next.update c id [(k :: path, v)]).stored c id =
          some ((d.setAt (k :: path) v).getD d) := stored_update_self hk hd
      rw [hset, Option.getD_some] at hself
      obtain rfl : d'' = d' := Option.some.inj (hself.symm.trans hd')
      exact ⟨d, rfl, hset⟩

/-- With faults that are noticed, an update that is not refused has written the document. -/
theorem stored_of_sound (hk : k ≠ ._id) (hf : db.fault.isSound = true)
    (h : db.refusesUpdate c id [(k :: path, v)] = false) (hd : db.stored c id = some d) :
    ∃ d', d.setAt (k :: path) v = some d' ∧
      (db.afterUpdate c id [(k :: path, v)]).stored c id = some d' := by
  obtain ⟨hthrow, -, herror⟩ := refusesUpdate_eq_false h
  cases hfault : db.fault with
  | throws exn => simp [hfault, Fault.isThrow] at hthrow
  | error e =>
    rw [afterUpdate, hfault] at herror
    have hempty : e = [] := herror
    simp [hfault, Fault.isSound, hempty] at hf
  | vanished => simp [hfault, Fault.isSound] at hf
  | none =>
    obtain ⟨d', hset⟩ := setAt_of_accepted hfault hd h
    refine ⟨d', hset, ?_⟩
    rw [afterUpdate, hfault]
    have hself : (db.next.update c id [(k :: path, v)]).stored c id =
        some ((d.setAt (k :: path) v).getD d) := stored_update_self hk hd
    rwa [hset, Option.getD_some] at hself

theorem faults_update (db : Database) (c : Collection) (id : OID) (m : Modifier) :
    (db.update c id m).faults = db.faults := by
  rw [update]
  split
  · rfl
  · split <;> rfl

/-- An update meets one fault, and its report the next one. -/
theorem faults_afterUpdate (db : Database) (c : Collection) (id : OID) (m : Modifier) :
    (db.afterUpdate c id m).faults = db.faults.tail := by
  rw [afterUpdate]
  cases db.fault with
  | error e => rfl
  | vanished => rfl
  | none => exact faults_update db.next c id m
  | throws exn => exact faults_update db.next c id m

/-- An update that is refused by a fault of its own leaves the documents as they are. -/
theorem docsAfter_of_refused {item : SaveableItem} {m : Modifier} (hf : db.fault.isSound = true)
    (hnext : db.next.fault.isThrow = false)
    (h : (item.uniqueid.isSet && !db.refusesUpdate c item.uniqueid m) = false) :
    item.docsAfter c m db = db.docs := by
  rw [SaveableItem.docsAfter]
  split
  case isFalse => rfl
  case isTrue hissued =>
  have hissued' : item.uniqueid.isSet = true ∧ db.fault.isThrow = false := by simpa using hissued
  obtain ⟨hid, hthrow⟩ := hissued'
  have hreport : (db.afterUpdate c item.uniqueid m).fault.isThrow = false := by
    rw [fault, faults_afterUpdate]
    exact hnext
  have herror : (db.afterUpdate c item.uniqueid m).lasterror.getD [] ≠ [] := by
    simpa [hid, refusesUpdate, hthrow, hreport] using h
  cases hfault : db.fault with
  | throws exn => simp [hfault, Fault.isThrow] at hthrow
  | vanished => simp [hfault, Fault.isSound] at hf
  | error e => rw [afterUpdate, hfault]; rfl
  | none =>
    rw [afterUpdate, hfault] at herror ⊢
    simp only [updated, written] at herror ⊢
    rw [update_docs]
    cases hset : (db.next.stored c item.uniqueid).bind fun d => d.setAll m with
    | none => rfl
    | some d' =>
      obtain ⟨d, hd, hd'⟩ := Option.bind_eq_some_iff.mp hset
      have hfound : (db.next.docs c).find? (byId item.uniqueid) = some d := hd
      simp [update, hfound, hd', setError] at herror

end Database
end FreshCity
