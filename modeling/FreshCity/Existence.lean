import FreshCity.Imperative.Run
import FreshCity.Registration

/-!
# Whether an object exists

`SaveableItem` holds a document and an id. `Create` and `InitData` ask the document whether
the object exists, the other operations ask the id. The two are written one after the other,
and what stands between the writes can fail.
-/
namespace FreshCity
open Imperative Prog Run

/-! ## What the database does to an item -/

namespace Database
variable (db : Database) (c : Collection) (id : OID) (data : Document)

/-- An insertion throws, its report throws, or what it reports is an error. -/
def refusesInsert : Bool :=
  db.fault.isThrow || (db.afterInsert c data).fault.isThrow ||
    !((db.afterInsert c data).lasterror.getD []).isEmpty

/-- An insertion adds the document, whatever is reported about it. -/
def inserts : Bool :=
  !db.fault.isThrow && decide ((db.docs c).length < ((db.afterInsert c data).docs c).length)

/-- The database after a removal that did not throw. -/
def afterRemove : Database := db.next.written (fun db => db.remove c id) db.fault

/-- A removal throws, its report throws, or what it reports is an error. -/
def refusesRemove : Bool :=
  db.fault.isThrow || (db.afterRemove c id).fault.isThrow ||
    !((db.afterRemove c id).lasterror.getD []).isEmpty

/-- A search for an id returns, and has found nothing. -/
def loses : Bool := !db.fault.isThrow && (db.found c (byId id)).isEmpty

end Database

namespace SaveableItem

/-- An item after `Refetch`, which may have thrown. -/
def refetched (item : SaveableItem) (c : Collection) (db : Database) : SaveableItem :=
  if item.uniqueid.isSet && !db.fault.isThrow then
    { item with rawdata := db.found c (byId item.uniqueid) }
  else item

/-- `Refetch` returns. -/
def refetches (item : SaveableItem) (c : Collection) (db : Database) : Bool :=
  item.uniqueid.isSet && !(db.found c (byId item.uniqueid)).isEmpty

end SaveableItem

/-- The operations on an item. -/
inductive ItemOp where
  | initData (data : Document)
  | create (data : Document) (fetch : Bool)
  | update (m : Modifier) (refresh : Bool)
  | refetch
  | destroy

namespace ItemOp

def run (c : Collection) : ItemOp → Method SaveableItem Unit
  | initData data => SaveableItem.initData data
  | create data fetch => SaveableItem.create c data fetch
  | update m refresh => SaveableItem.update c m refresh
  | refetch => SaveableItem.refetch c
  | destroy => SaveableItem.destroy c

/-- The write of an operation goes through, and is reported to. -/
def accepted (c : Collection) (item : SaveableItem) (db : Database) : ItemOp → Bool
  | initData _ => item.isEmpty
  | create data _ => item.isEmpty && !db.refusesInsert c data
  | update m _ => item.uniqueid.isSet && !db.refusesUpdate c item.uniqueid m
  | refetch => true
  | destroy => item.uniqueid.isSet && !db.refusesRemove c item.uniqueid

/-- An operation returns. -/
def returns (c : Collection) (item : SaveableItem) (db : Database) (op : ItemOp) : Bool :=
  op.accepted c item db && match op with
  | initData data => (documentId data).isSome
  | create data fetch => (documentId data).any fun id =>
    !fetch || { item with uniqueid := id : SaveableItem }.refetches c (db.afterInsert c data).next
  | update m refresh => !refresh || item.refetches c (db.afterUpdate c item.uniqueid m).next
  | refetch => item.refetches c db
  | destroy => true

/-- An item after an operation, which may have thrown. -/
def after (c : Collection) (item : SaveableItem) (db : Database) (op : ItemOp) : SaveableItem :=
  if op.accepted c item db then match op with
    | initData data => { rawdata := data, uniqueid := (documentId data).getD item.uniqueid }
    | create data fetch => (documentId data).elim item fun id =>
      if fetch then
        { item with uniqueid := id : SaveableItem }.refetched c (db.afterInsert c data).next
      else { item with uniqueid := id }
    | update m refresh =>
      if refresh then item.refetched c (db.afterUpdate c item.uniqueid m).next else item
    | refetch => item.refetched c db
    | destroy => {}
  else item

end ItemOp

section Specs
variable {s : Server} {c : Collection} {item : SaveableItem} {data : Document} {id : OID}
  {m : Modifier} {E : Exn → Server → Prop}

theorem wp_removeDocument {Q : Unit → Server → Prop} : wp (remove c id) Q E s ↔
    (∀ exn, s.database.fault = .throws exn → E exn (s.issued (.remove c id))) ∧
    (s.database.fault.isThrow = false →
      Q () ((s.issued (.remove c id)).setDatabase (s.database.afterRemove c id))) := by
  simp only [remove, wp_bind, wp_issue]
  rfl

theorem isThrow_of_eq {f : Fault} {exn : Exn} (h : f = .throws exn) : f.isThrow = true := by
  rw [h]
  rfl

/-- The item after a program, and whether the program returned. -/
def Leaves (x : Method SaveableItem Unit) (returns : Bool) (after : SaveableItem)
    (q : SaveableItem × Server) : Prop :=
  wp x (fun _ q' => returns = true ∧ q'.1 = after) (fun _ q' => returns = false ∧ q'.1 = after) q

theorem refetch_leaves :
    Leaves (SaveableItem.refetch c) (item.refetches c s.database) (item.refetched c s.database)
      (item, s) := by
  rw [Leaves, SaveableItem.refetch, SaveableItem.refetches, SaveableItem.refetched, wp_bind, wp_self,
    wp_bind, wp_raiseIf]
  cases hid : item.uniqueid.isSet with
  | false => simp
  | true =>
    simp only [Bool.not_true, Bool.false_eq_true, if_false, Bool.true_and]
    rw [wp_bind, wp_shared, wp_findOne]
    refine ⟨fun exn hexn => ?_, fun hthrow => ?_⟩
    · have hthrow := isThrow_of_eq hexn
      simp [Database.found, hthrow]
    · rw [hthrow, wp_bind, wp_assign, wp_when]
      split
      case isFalse hfound => simpa using hfound
      case isTrue hfound =>
        rw [wp_bind, wp_shared]
        refine wp_mono (wp_true _) (fun _ t _ => ?_) (fun _ t _ => ?_)
        · simp [hfound]
        · simp [hfound]

/-- A write is reported to, before the item changes. -/
theorem leaves_write {write : Game Unit} {e : Effect} {db : Database} {failed : Text → Exn}
    {x : Method SaveableItem Unit} {returns : Bool} {after : SaveableItem}
    (hwrite : ∀ (Q : Unit → Server → Prop) (E : Exn → Server → Prop), wp write Q E s ↔
      (∀ exn, s.database.fault = .throws exn → E exn (s.issued e)) ∧
      (s.database.fault.isThrow = false → Q () ((s.issued e).setDatabase db)))
    (hrefused : (s.database.fault.isThrow || db.fault.isThrow || !(db.lasterror.getD []).isEmpty) =
      true → returns = false ∧ item = after)
    (haccepted : (s.database.fault.isThrow || db.fault.isThrow || !(db.lasterror.getD []).isEmpty) =
      false → Leaves x returns after (item, (s.issued e).setDatabase db.next)) :
    Leaves (do
      shared write
      let msg ← shared getLastError
      raiseIf (!msg.isEmpty) (failed msg)
      x) returns after (item, s) := by
  rw [Leaves, wp_bind, wp_shared, hwrite]
  refine ⟨fun exn hexn => hrefused (by simp [isThrow_of_eq hexn]), fun hthrow => ?_⟩
  rw [wp_bind, wp_shared, wp_getLastError]
  refine ⟨fun exn hexn => ?_, fun hreport => ?_⟩
  · have hreport : db.fault.isThrow = true := isThrow_of_eq hexn
    exact hrefused (by simp [hreport])
  have hreport' : db.fault.isThrow = false := hreport
  rw [wp_bind, wp_raiseIf]
  split
  case isTrue herror =>
    have herror' : (db.lasterror.getD []).isEmpty = false := by simpa using herror
    exact hrefused (by simp [herror'])
  case isFalse herror =>
    have herror' : (db.lasterror.getD []).isEmpty = true := by simpa using herror
    exact haccepted (by simp [hthrow, hreport', herror'])

theorem initData_leaves :
    Leaves (SaveableItem.initData data) ((ItemOp.initData data).returns c item s.database)
      ((ItemOp.initData data).after c item s.database) (item, s) := by
  rw [SaveableItem.initData, Leaves, wp_bind, wp_self, wp_bind, wp_raiseIf]
  by_cases hempty : item.isEmpty = true
  · rw [if_neg (by simp [hempty]), wp_bind, wp_assign, wp_bind, wp_orRaise]
    cases hid : documentId data <;> simp [ItemOp.returns, ItemOp.after, ItemOp.accepted, hempty, hid]
  · rw [if_pos (by simp [hempty])]
    simp [ItemOp.returns, ItemOp.after, ItemOp.accepted, hempty]

theorem create_leaves {fetch : Bool} :
    Leaves (SaveableItem.create c data fetch) ((ItemOp.create data fetch).returns c item s.database)
      ((ItemOp.create data fetch).after c item s.database) (item, s) := by
  rw [SaveableItem.create, Leaves, wp_bind, wp_self, wp_bind, wp_raiseIf]
  cases hempty : item.isEmpty with
  | false => simp [ItemOp.returns, ItemOp.after, ItemOp.accepted, hempty]
  | true =>
    rw [if_neg (by simp)]
    refine leaves_write (fun _ _ => wp_insert) (fun hrefused => ?_) (fun haccepted => ?_)
    · have hrefuses : s.database.refusesInsert c data = true := hrefused
      simp [ItemOp.returns, ItemOp.after, ItemOp.accepted, hrefuses]
    · have haccepts : s.database.refusesInsert c data = false := haccepted
      simp only [ItemOp.returns, ItemOp.after, ItemOp.accepted, hempty, haccepts, Bool.not_false,
        Bool.and_self, Bool.true_and, if_true]
      rw [Leaves, wp_bind, wp_orRaise]
      cases hid : documentId data with
      | none => simp
      | some id =>
        refine ⟨fun id' hid' => ?_, fun hnone => absurd hnone (Option.some_ne_none id)⟩
        obtain rfl := Option.some.inj hid'
        rw [wp_bind, wp_assign, wp_when]
        cases fetch with
        | false => simp
        | true => exact refetch_leaves

theorem update_leaves {refresh : Bool} :
    Leaves (SaveableItem.update c m refresh) ((ItemOp.update m refresh).returns c item s.database)
      ((ItemOp.update m refresh).after c item s.database) (item, s) := by
  rw [SaveableItem.update, Leaves, wp_bind, wp_self, wp_bind, wp_raiseIf]
  cases hset : item.uniqueid.isSet with
  | false => simp [ItemOp.returns, ItemOp.after, ItemOp.accepted, hset]
  | true =>
    rw [if_neg (by simp)]
    refine leaves_write (fun _ _ => wp_update) (fun hrefused => ?_) (fun haccepted => ?_)
    · have hrefuses : s.database.refusesUpdate c item.uniqueid m = true := hrefused
      simp [ItemOp.returns, ItemOp.after, ItemOp.accepted, hrefuses]
    · have haccepts : s.database.refusesUpdate c item.uniqueid m = false := haccepted
      simp only [ItemOp.returns, ItemOp.after, ItemOp.accepted, hset, haccepts, Bool.not_false,
        Bool.and_self, Bool.true_and, if_true]
      rw [Leaves, wp_when]
      cases refresh with
      | false => simp
      | true => exact refetch_leaves

theorem destroy_leaves :
    Leaves (SaveableItem.destroy c) (ItemOp.destroy.returns c item s.database)
      (ItemOp.destroy.after c item s.database) (item, s) := by
  rw [SaveableItem.destroy, Leaves, wp_bind, wp_self, wp_bind, wp_raiseIf]
  cases hset : item.uniqueid.isSet with
  | false => simp [ItemOp.returns, ItemOp.after, ItemOp.accepted, hset]
  | true =>
    rw [if_neg (by simp)]
    refine leaves_write (fun _ _ => wp_removeDocument) (fun hrefused => ?_) (fun haccepted => ?_)
    · have hrefuses : s.database.refusesRemove c item.uniqueid = true := hrefused
      simp [ItemOp.returns, ItemOp.after, ItemOp.accepted, hrefuses]
    · have haccepts : s.database.refusesRemove c item.uniqueid = false := haccepted
      simp [ItemOp.returns, ItemOp.after, ItemOp.accepted, hset, haccepts, Leaves]

/-- What an operation does to an item is a function of the item and of the database. -/
theorem ItemOp.leaves (op : ItemOp) : Leaves (op.run c) (op.returns c item s.database)
    (op.after c item s.database) (item, s) := by
  cases op with
  | initData data => exact initData_leaves
  | create data fetch => exact create_leaves
  | update m refresh => exact update_leaves
  | refetch =>
    simp only [ItemOp.run, ItemOp.returns, ItemOp.after, ItemOp.accepted, Bool.true_and, if_true]
    exact refetch_leaves
  | destroy => exact destroy_leaves

instance {op : ItemOp} : Total (op.run c) := by
  cases op <;> (rw [ItemOp.run]; infer_instance)

/-- An operation ends, and throws exactly if it does not return. -/
theorem ItemOp.run_cases (op : ItemOp) (c : Collection) (item : SaveableItem) (s : Server) :
    ∃ q : SaveableItem × Server, q.1 = op.after c item s.database ∧
      (op.returns c item s.database = true ∧ op.run c (item, s) = .ok () q ∨
        op.returns c item s.database = false ∧ ∃ e, op.run c (item, s) = .error e q) := by
  have htotal : Total (op.run c) := inferInstance
  have hdefined := htotal.defined (item, s)
  cases hrun : op.run c (item, s) with
  | ok a q =>
    obtain ⟨hreturns, hafter⟩ := (wp_of_ok hrun).mp op.leaves
    exact ⟨q, hafter, .inl ⟨hreturns, rfl⟩⟩
  | error e q =>
    obtain ⟨hreturns, hafter⟩ := (wp_of_error hrun).mp op.leaves
    exact ⟨q, hafter, .inr ⟨hreturns, e, rfl⟩⟩
  | undefined => simp [Defined, hrun] at hdefined

end Specs

/-! ## Operations that throw -/

namespace ItemOp

/-- What an operation reads back is there, or the item does not show that it is not. -/
def readsBack (c : Collection) (item : SaveableItem) (db : Database) (op : ItemOp) : Bool :=
  !op.accepted c item db || match op with
  | initData data => data.isEmpty || (documentId data).isSome
  | create data fetch => (documentId data).all fun id => !fetch || decide (id = item.uniqueid) ||
    { item with uniqueid := id : SaveableItem }.refetches c (db.afterInsert c data).next
  | update m refresh =>
    !refresh || item.isEmpty || !(db.afterUpdate c item.uniqueid m).next.loses c item.uniqueid
  | refetch => !item.uniqueid.isSet || item.isEmpty || !db.loses c item.uniqueid
  | destroy => true

end ItemOp

section Throws
variable {s : Server} {c : Collection} {item : SaveableItem} {db : Database}

/-- A search that does not return a document leaves the item alone if it throws, or if there was
no document before. -/
theorem refetched_eq_iff (h : item.refetches c db = false) : item.refetched c db = item ↔
    (!item.uniqueid.isSet || item.isEmpty || !db.loses c item.uniqueid) = true := by
  obtain ⟨raw, id⟩ := item
  rw [SaveableItem.refetches] at h
  rw [SaveableItem.refetched, Database.loses, SaveableItem.isEmpty]
  cases hset : id.isSet with
  | false => simp
  | true =>
    simp only [hset, Bool.true_and, Bool.not_eq_false', List.isEmpty_iff] at h
    cases hthrow : db.fault.isThrow with
    | true => simp
    | false => cases raw <;> simp [h]

/-- A search that finds the document has not lost it. -/
theorem loses_of_refetches (h : item.refetches c db = true) : db.loses c item.uniqueid = false := by
  rw [SaveableItem.refetches, Bool.and_eq_true] at h
  simpa [Database.loses] using fun _ => h.2

/-- An operation that does not return leaves the item as it was exactly if what it reads back
is there. -/
theorem ItemOp.after_eq_iff {op : ItemOp} (h : op.returns c item db = false) :
    op.after c item db = item ↔ op.readsBack c item db = true := by
  unfold ItemOp.returns at h
  unfold ItemOp.after ItemOp.readsBack
  cases haccepted : op.accepted c item db with
  | false => simp
  | true =>
  simp only [haccepted, Bool.true_and] at h
  simp only [if_true, Bool.not_true, Bool.false_or]
  obtain ⟨raw, id⟩ := item
  cases op with
  | initData data =>
    simp only [Option.isSome_eq_false_iff, Option.isNone_iff_eq_none] at h
    simp only [ItemOp.accepted, SaveableItem.isEmpty, List.isEmpty_iff] at haccepted
    subst haccepted
    simp [h]
  | create data fetch =>
    simp only [ItemOp.accepted, SaveableItem.isEmpty, Bool.and_eq_true, List.isEmpty_iff] at haccepted
    obtain ⟨rfl, -⟩ := haccepted
    cases hid : documentId data with
    | none => simp [hid]
    | some id' =>
      simp only [hid, Option.any_some, Bool.or_eq_false_iff, Bool.not_eq_false'] at h
      obtain ⟨rfl, hlost⟩ := h
      have hkept : ({ uniqueid := id' } : SaveableItem).refetched c (db.afterInsert c data).next =
          { uniqueid := id' } := (refetched_eq_iff hlost).mpr (by simp [SaveableItem.isEmpty])
      simp [hid, hkept, hlost]
  | update m refresh =>
    simp only [Bool.or_eq_false_iff, Bool.not_eq_false'] at h
    obtain ⟨rfl, hlost⟩ := h
    simp only [ItemOp.accepted, Bool.and_eq_true] at haccepted
    simp only [if_true, refetched_eq_iff hlost, haccepted.1, Bool.not_true, Bool.false_or]
  | refetch => exact refetched_eq_iff h
  | destroy => simp at h

/-- What an operation that returns reads back is there. -/
theorem ItemOp.readsBack_of_returns {op : ItemOp} (h : op.returns c item db = true) :
    op.readsBack c item db = true := by
  unfold ItemOp.returns at h
  unfold ItemOp.readsBack
  rw [Bool.and_eq_true] at h
  obtain ⟨haccepted, h⟩ := h
  simp only [haccepted, Bool.not_true, Bool.false_or]
  cases op with
  | initData data => simp only [h, Bool.or_true]
  | create data fetch =>
    cases hid : documentId data with
    | none => simp [hid]
    | some id =>
      have hfound : (!fetch || { item with uniqueid := id : SaveableItem }.refetches c
          (db.afterInsert c data).next) = true := by simpa [hid] using h
      rw [Bool.or_eq_true] at hfound
      rcases hfound with hfetch | hfound
      · simp [hid, hfetch]
      · simp [hid, hfound]
  | update m refresh =>
    cases refresh with
    | false => rfl
    | true =>
      have hfound : item.refetches c (db.afterUpdate c item.uniqueid m).next = true := h
      simp [loses_of_refetches hfound]
  | refetch => simp [loses_of_refetches h]
  | destroy => rfl

/-- An operation that throws leaves the item as it was exactly if what it reads back is there. -/
theorem throw_keeps_item_iff (c : Collection) (item : SaveableItem) (s : Server) (op : ItemOp) :
    (∀ e q, op.run c (item, s) = .error e q →
      q.1.rawdata = item.rawdata ∧ q.1.uniqueid = item.uniqueid) ↔
      op.readsBack c item s.database = true := by
  obtain ⟨q, hafter, ⟨hreturns, hrun⟩ | ⟨hthrows, e, hrun⟩⟩ := op.run_cases c item s
  · simp [hrun, ItemOp.readsBack_of_returns hreturns]
  · rw [← ItemOp.after_eq_iff hthrows, ← hafter]
    constructor
    · intro h
      obtain ⟨hraw, hid⟩ := h e q hrun
      exact congrArg₂ SaveableItem.mk hraw hid
    · rintro h e' q' hrun'
      rw [hrun] at hrun'
      cases hrun'
      rw [h]
      exact ⟨rfl, rfl⟩

end Throws

namespace Demo

/-- An item with its document in the database. -/
def kept : SaveableItem := { rawdata := [(._id, .oid 7)], uniqueid := team }

/-- The database deletes the document between an update and the search after it. -/
def vanishing : Server :=
  { initial with database := { docs := fun _ => [[(._id, .oid 7)]], faults := [.none, .none, .vanished] } }

end Demo

/-- An update that throws because the document is gone has emptied the item. -/
theorem vanished_document_empties_item :
    ¬∀ (c : Collection) (item : SaveableItem) (s : Server) (op : ItemOp) e q,
      op.run c (item, s) = .error e q →
      q.1.rawdata = item.rawdata ∧ q.1.uniqueid = item.uniqueid := by
  intro hall
  have hthrows : (ItemOp.update [] true).returns .team Demo.kept Demo.vanishing.database = false := by
    decide +kernel
  obtain ⟨q, hafter, ⟨hreturns, -⟩ | ⟨-, e, hrun⟩⟩ :=
    (ItemOp.update [] true).run_cases .team Demo.kept Demo.vanishing
  · rw [hthrows] at hreturns
    cases hreturns
  · have hempty : q.1.rawdata.isEmpty = true := by
      rw [hafter]
      decide +kernel
    rw [(hall _ _ _ _ e q hrun).1] at hempty
    exact absurd hempty (by decide)

/-! ## Items over many operations -/

namespace ItemOp

/-- One operation, which may throw. Between two of them the server may change in any way. -/
def step (c : Collection) (item : SaveableItem) (i : ItemOp × Server) : Option SaveableItem :=
  ((i.1.run c) (item, i.2)).state?.map Prod.fst

/-- The insertions of an item since `Destroy` was called. -/
def see (c : Collection) (item : SaveableItem) (inserted : ℕ) (i : ItemOp × Server)
    (_ : SaveableItem) : ℕ :=
  match i.1 with
  | create data _ => if item.isEmpty && i.2.database.inserts c data then inserted + 1 else inserted
  | destroy => 0
  | _ => inserted

/-- An operation that gives the item a document or an id gives it both, and what is inserted is
read back. -/
def keepsTrack (c : Collection) (item : SaveableItem) (db : Database) (op : ItemOp) : Bool :=
  match op with
  | initData data => !item.isEmpty || data.isEmpty || (documentId data).any OID.isSet
  | create data fetch => !item.isEmpty ||
    ((documentId data).filter fun id => !db.refusesInsert c data && id.isSet).elim
      (!db.inserts c data) fun id =>
      fetch && { item with uniqueid := id : SaveableItem }.refetches c (db.afterInsert c data).next
  | op => op.readsBack c item db

end ItemOp

namespace SaveableItem

/-- An item that a constructor returned. -/
def Constructed (c : Collection) (item : SaveableItem) : Prop :=
  (∃ s t, unsaved c s = .ok item t) ∨ ∃ q s t, fetch c q s = .ok item t

/-- `IsEmpty` tells whether the object exists: whether its id is set, and whether a document was
inserted that nobody destroyed. There is one such document at most. -/
structure Tells (w : SaveableItem × ℕ) : Prop where
  id : w.1.isEmpty = false ↔ w.1.uniqueid.isSet = true
  inserted : w.2 ≠ 0 → w.1.isEmpty = false
  once : w.2 ≤ 1

end SaveableItem

section Runs
open SaveableItem
variable {s : Server} {c : Collection} {item : SaveableItem} {n : ℕ}

theorem ItemOp.step_eq (i : ItemOp × Server) :
    ItemOp.step c item i = some (i.1.after c item i.2.database) := by
  obtain ⟨q, hafter, ⟨-, hrun⟩ | ⟨-, e, hrun⟩⟩ := i.1.run_cases c item i.2
  · rw [ItemOp.step, hrun, ← hafter]
    rfl
  · rw [ItemOp.step, hrun, ← hafter]
    rfl

/-- The item of a constructor has the id of its document, or is empty. -/
theorem SaveableItem.Constructed.cases (h : Constructed c item) :
    item = {} ∨ documentId item.rawdata = some item.uniqueid := by
  rcases h with ⟨s, t, hrun⟩ | ⟨q, s, t, hrun⟩
  · refine .inl ((wp_of_ok (Q := fun it _ => it = {}) (E := fun _ _ => True) hrun).mp ?_)
    simp [unsaved, configCollection]
  · refine (wp_of_ok (Q := fun it _ => it = {} ∨ documentId it.rawdata = some it.uniqueid)
      (E := fun _ _ => True) hrun).mp ?_
    rw [fetch, wp_bind]
    refine wp_mono (wp_true _) (fun _ u _ => ?_) (fun _ _ _ => trivial)
    rw [wp_bind]
    refine wp_mono (wp_true _) (fun raw v _ => ?_) (fun _ _ _ => trivial)
    rw [wp_ite]
    split
    · exact .inl rfl
    · rw [wp_bind, wp_orRaise]
      exact ⟨fun id hid => .inr hid, fun _ => trivial⟩

theorem SaveableItem.tells_empty : Tells ({}, 0) := ⟨by decide, by simp, by simp⟩

theorem SaveableItem.Tells.of_empty (h : Tells (item, n)) (hempty : item.isEmpty = true) :
    item.uniqueid.isSet = false ∧ n = 0 := by
  constructor
  · by_contra hset
    have hfull := h.id.mpr (by simpa using hset)
    simp [hempty] at hfull
  · by_contra hn
    have hfull := h.inserted hn
    simp [hempty] at hfull

/-- After a search the item still tells, unless the search returned nothing. -/
theorem refetched_tells_iff (c : Collection) (db : Database) (h : Tells (item, n)) :
    Tells (item.refetched c db, n) ↔
      (!item.uniqueid.isSet || item.isEmpty || !db.loses c item.uniqueid) = true := by
  rw [SaveableItem.refetched]
  cases hset : item.uniqueid.isSet with
  | false => simpa using h
  | true =>
    have hfull : item.isEmpty = false := h.id.mpr hset
    cases hthrow : db.fault.isThrow with
    | true => simpa [Database.loses, hthrow] using h
    | false =>
      simp only [Bool.not_false, Bool.and_self, if_true, hfull, Database.loses, hthrow,
        Bool.not_true, Bool.true_and, Bool.false_or, Bool.not_eq_true']
      exact ⟨fun ht => ht.id.mpr hset, fun hfound =>
        ⟨iff_of_true hfound hset, fun _ => hfound, h.once⟩⟩

/-- `InitData` sets both or neither of the document and the id. -/
theorem initData_tells_iff {data : Document} {db : Database} (h : Tells (item, n)) :
    Tells ((ItemOp.initData data).after c item db, n) ↔
      (ItemOp.initData data).keepsTrack c item db = true := by
  unfold ItemOp.after ItemOp.keepsTrack ItemOp.accepted
  cases hempty : item.isEmpty with
  | false => simpa using h
  | true =>
    obtain ⟨hset, rfl⟩ := h.of_empty hempty
    simp only [if_true, Bool.not_true, Bool.false_or, Bool.or_eq_true]
    cases hid : documentId data with
    | none =>
      rw [Option.getD_none, Option.any_none, or_iff_left Bool.false_ne_true]
      constructor
      · intro ht
        by_contra hdata
        have hfull := ht.id.mp (eq_false_of_ne_true hdata)
        simp [hset] at hfull
      · intro hdata
        exact ⟨by simp [SaveableItem.isEmpty, hdata, hset], by simp, by simp⟩
    | some id =>
      have hdata : data.isEmpty = false := by
        rw [List.isEmpty_eq_false_iff]
        rintro rfl
        cases hid
      rw [Option.getD_some, Option.any_some, hdata, or_iff_right Bool.false_ne_true]
      exact ⟨fun ht => ht.id.mp hdata, fun hid' => ⟨iff_of_true hdata hid', by simp, by simp⟩⟩

/-- An empty item without an id tells that nothing was inserted. -/
theorem tells_empty_iff {b : Bool} (hempty : item.isEmpty = true) (hset : item.uniqueid.isSet = false) :
    Tells (item, if b then 1 else 0) ↔ b = false := by
  constructor
  · intro ht
    by_contra hb
    have hfull := ht.inserted (by simp [hb])
    simp [hempty] at hfull
  · rintro rfl
    exact ⟨by simp [hempty, hset], by simp, by simp⟩

/-- An empty item with an id tells exactly if the document is read back. -/
theorem refetched_tells_once_iff {db : Database} {b : Bool} (hempty : item.isEmpty = true)
    (hset : item.uniqueid.isSet = true) :
    Tells (item.refetched c db, if b then 1 else 0) ↔ item.refetches c db = true := by
  cases hfound : item.refetches c db with
  | false =>
    rw [(refetched_eq_iff hfound).mpr (by simp [hempty])]
    refine iff_of_false (fun ht => ?_) Bool.false_ne_true
    have hfull := ht.id.mpr hset
    simp [hempty] at hfull
  | true =>
    have hthrow : db.fault.isThrow = false := by
      by_contra hthrow
      simp [SaveableItem.refetches, Database.found, hthrow] at hfound
    have hraw : (db.found c (byId item.uniqueid)).isEmpty = false := by
      simpa [SaveableItem.refetches, hset] using hfound
    refine iff_of_true ?_ rfl
    rw [SaveableItem.refetched, if_pos (by simp [hset, hthrow])]
    exact ⟨iff_of_true hraw hset, fun _ => hraw, by split <;> simp⟩

/-- `Create` of an item that does not exist inserts a document and reads it back, or inserts none. -/
theorem create_tells_iff {data : Document} {fetch : Bool} (h : Tells (item, n)) :
    Tells ((ItemOp.create data fetch).after c item s.database,
      ItemOp.see c item n (.create data fetch, s) item) ↔
      (ItemOp.create data fetch).keepsTrack c item s.database = true := by
  simp only [ItemOp.after, ItemOp.keepsTrack, ItemOp.see, ItemOp.accepted]
  by_cases hempty : item.isEmpty = true
  case neg => simpa [hempty] using h
  obtain ⟨hset, rfl⟩ := h.of_empty hempty
  simp only [hempty, Bool.true_and, Bool.not_true, Bool.false_or, Nat.zero_add]
  cases hrefuses : s.database.refusesInsert c data with
  | true => simpa using tells_empty_iff hempty hset
  | false =>
  cases hid : documentId data with
  | none => simpa using tells_empty_iff hempty hset
  | some id =>
  have hempty' : ({ item with uniqueid := id } : SaveableItem).isEmpty = true := hempty
  cases hset' : id.isSet with
  | false =>
    have hkept : ({ item with uniqueid := id } : SaveableItem).refetched c
        (s.database.afterInsert c data).next = { item with uniqueid := id } := by
      simp [SaveableItem.refetched, hset']
    simpa [Option.filter, hset', hkept] using tells_empty_iff hempty' hset'
  | true =>
    cases fetch with
    | false =>
      have hnot : ¬Tells ({ item with uniqueid := id }, if s.database.inserts c data then 1 else 0) := by
        intro ht
        have hfull := ht.id.mpr hset'
        simp [hempty'] at hfull
      simpa [Option.filter, hset'] using hnot
    | true => simpa [Option.filter, hset'] using refetched_tells_once_iff hempty' hset'

/-- The item after an operation tells whether the object exists exactly if the operation keeps
track of it. -/
theorem after_tells_iff {op : ItemOp} (h : Tells (item, n)) :
    Tells (op.after c item s.database, ItemOp.see c item n (op, s) item) ↔
      op.keepsTrack c item s.database = true := by
  cases op with
  | initData data => exact initData_tells_iff h
  | create data fetch => exact create_tells_iff h
  | update m refresh =>
    simp only [ItemOp.after, ItemOp.keepsTrack, ItemOp.readsBack, ItemOp.see]
    cases haccepted : (ItemOp.update m refresh).accepted c item s.database with
    | false => simpa using h
    | true =>
      cases refresh with
      | false => simpa using h
      | true =>
        simp only [ItemOp.accepted, Bool.and_eq_true] at haccepted
        have hrefetched := refetched_tells_iff c
          (s.database.afterUpdate c item.uniqueid m).next h
        simpa [haccepted.1] using hrefetched
  | refetch =>
    have hrefetched := refetched_tells_iff c s.database h
    simpa [ItemOp.after, ItemOp.keepsTrack, ItemOp.readsBack, ItemOp.accepted, ItemOp.see]
      using hrefetched
  | destroy =>
    simp only [ItemOp.after, ItemOp.keepsTrack, ItemOp.readsBack, ItemOp.see, Bool.or_true, iff_true]
    split
    · exact tells_empty
    · exact ⟨h.id, by simp, by simp⟩

/-- Over any run of operations `IsEmpty` tells whether the object exists exactly if each of them
keeps track of it, and the document the constructor found has an id that is set. -/
theorem existence_told_iff (c : Collection) (item : SaveableItem) (is : List (ItemOp × Server))
    (hmade : Constructed c item) :
    (Tells (item, 0) ∧
      AllSteps (watch (ItemOp.step c) (ItemOp.see c)) (fun _ _ u => Tells u) (item, 0) is) ↔
    ((item.isEmpty || item.uniqueid.isSet) = true ∧
      Meets (watch (ItemOp.step c) (ItemOp.see c))
        (fun w i => i.1.keepsTrack c w.1 i.2.database = true) (item, 0) is) := by
  have hfirst : Tells (item, 0) ↔ (item.isEmpty || item.uniqueid.isSet) = true := by
    rcases hmade.cases with rfl | hid
    · exact iff_of_true tells_empty (by decide)
    · have hfull : item.isEmpty = false := by
        rw [SaveableItem.isEmpty, List.isEmpty_eq_false_iff]
        intro hraw
        rw [hraw] at hid
        cases hid
      rw [hfull, Bool.false_or]
      exact ⟨fun h => h.id.mp hfull, fun h => ⟨by simp [hfull, h], by simp, by simp⟩⟩
  have hstep : ∀ w i u, Tells w → watch (ItemOp.step c) (ItemOp.see c) w i = some u →
      (Tells u ↔ i.1.keepsTrack c w.1 i.2.database = true) := by
    rintro ⟨it, n⟩ ⟨op, s⟩ ⟨it', n'⟩ hw hu
    obtain ⟨hafter, hsee⟩ := watch_eq_some.mp hu
    rw [ItemOp.step_eq, Option.some.injEq] at hafter
    have hitem : op.after c it s.database = it' := hafter
    have hcount : ItemOp.see c it n (op, s) it = n' := hsee
    rw [← hitem, ← hcount]
    exact after_tells_iff hw
  rw [hfirst]
  refine and_congr_right fun hset => ?_
  exact allSteps_iff_meets hstep (fun w i u hw hu hc => (hstep w i u hw hu).mpr hc) (hfirst.mpr hset)

end Runs

namespace Demo

theorem unsaved_constructed : SaveableItem.Constructed .team {} := .inl ⟨initial, initial, rfl⟩

/-- A document that is not in the database yet. -/
def fresh : Document := [(._id, .oid 20)]

/-- The database holds the document. -/
def stocked : Server := { initial with database := { docs := fun _ => [fresh] } }

end Demo

/-- An item is created, read back, updated and destroyed. -/
theorem read_back_item_tells :
    SaveableItem.Tells ({}, 0) ∧
      AllSteps (watch (ItemOp.step .team) (ItemOp.see .team)) (fun _ _ u => SaveableItem.Tells u)
        ({}, 0) [(.create Demo.fresh true, Demo.initial), (.update [] true, Demo.stocked),
          (.destroy, Demo.stocked)] :=
  (existence_told_iff .team {} _ Demo.unsaved_constructed).mpr ⟨by decide,
    meets_of_check (b := fun (w : SaveableItem × ℕ) (i : ItemOp × Server) =>
      i.1.keepsTrack .team w.1 i.2.database)
      (fun _ _ h => h) (by decide +kernel)⟩

/-- An item that is created without reading back is created once more. -/
theorem created_twice :
    ¬∀ (c : Collection) (item : SaveableItem) (is : List (ItemOp × Server)),
      SaveableItem.Constructed c item → SaveableItem.Tells (item, 0) ∧
        AllSteps (watch (ItemOp.step c) (ItemOp.see c)) (fun _ _ u => SaveableItem.Tells u)
          (item, 0) is := by
  intro hall
  obtain ⟨-, hrun⟩ := hall .waypoint {} ([(.create Demo.fresh false, Demo.initial)] ++
    [(.create [(._id, .oid 21)] false, Demo.stocked)]) (.inl ⟨Demo.initial, Demo.initial, rfl⟩)
  exact not_allSteps _ _ (fun _ (u : SaveableItem × ℕ) => decide (u.2 ≤ 1))
    (fun _ _ h => decide_eq_true h.once) (by decide +kernel) hrun

end FreshCity
