import FreshCity.Events

/-!
# When saving an object throws

What a database operation does is a function of the state of the database, the
faults that are still to come included. So is the question whether an object can
be saved.
-/
namespace FreshCity
open Imperative Prog

namespace Database
variable (db : Database) (c : Collection) (id : OID) (m : Modifier) (q : Document → Bool)

/-- The database after an update that did not throw. -/
def afterUpdate : Database := db.next.updated c id m db.fault

/-- An update throws, its report throws, or what it reports is an error. -/
def refusesUpdate : Bool :=
  db.fault.isThrow || (db.afterUpdate c id m).fault.isThrow ||
    !((db.afterUpdate c id m).lasterror.getD []).isEmpty

/-- The database after a search that did not throw. -/
def afterFind : Database := if db.fault = .vanished then db.next.vanish c q else db.next

/-- What a search finds. A search that throws finds nothing. -/
def found : Document :=
  if db.fault.isThrow then [] else (((db.afterFind c q).docs c).find? q).getD []

/-- The document that is read back after an update. -/
def readBack : Document := (db.afterUpdate c id m).next.found c (byId id)

end Database

/-- The part of a precondition that an operation without a fault meets. -/
theorem Fault.and_iff {f : Fault} {P : Prop} :
    ((∀ exn, f = .throws exn → False) ∧ (f.isThrow = false → P)) ↔ f.isThrow = false ∧ P := by
  cases f <;> simp [isThrow]

/-! ## Runs of the operations -/

namespace Server

def setDatabase (s : Server) (db : Database) : Server := { s with database := db }

/-- The server once an operation is issued. -/
def issued (s : Server) (e : Effect) : Server :=
  { s with trace := e :: s.trace, database := s.database.next }

@[simp] theorem setDatabase_database (s : Server) (db : Database) :
    (s.setDatabase db).database = db := rfl
@[simp] theorem issued_database (s : Server) (e : Effect) :
    (s.issued e).database = s.database.next := rfl

end Server

section Runs
variable {s : Server} {c : Collection} {id : OID} {m : Modifier} {E : Exn → Server → Prop}

theorem wp_nextFault {Q : Fault → Server → Prop} : wp nextFault Q E s ↔
    (∀ exn, s.database.fault = .throws exn → E exn (s.setDatabase s.database.next)) ∧
    (s.database.fault.isThrow = false → Q s.database.fault (s.setDatabase s.database.next)) := by
  simp only [nextFault, modifyDatabase, wp_bind, wp_gets, wp_modify]
  cases s.database.fault <;> simp [Fault.meet, Fault.isThrow, Server.setDatabase]

theorem wp_issue (e : Effect) {Q : Fault → Server → Prop} :
    wp (issue e) Q E s ↔ (∀ exn, s.database.fault = .throws exn → E exn (s.issued e)) ∧
      (s.database.fault.isThrow = false → Q s.database.fault (s.issued e)) := by
  simp only [issue, emit, wp_bind, wp_modify, wp_nextFault]
  rfl

theorem wp_update {Q : Unit → Server → Prop} : wp (update c id m) Q E s ↔
    (∀ exn, s.database.fault = .throws exn → E exn (s.issued (.update c id m))) ∧
    (s.database.fault.isThrow = false →
      Q () ((s.issued (.update c id m)).setDatabase (s.database.afterUpdate c id m))) := by
  simp only [update, wp_bind, wp_issue]
  rfl

theorem wp_getLastError {Q : Text → Server → Prop} : wp getLastError Q E s ↔
    (∀ exn, s.database.fault = .throws exn → E exn (s.setDatabase s.database.next)) ∧
    (s.database.fault.isThrow = false →
      Q (s.database.lasterror.getD []) (s.setDatabase s.database.next)) := by
  simp only [getLastError, wp_bind, wp_nextFault, wp_gets]
  rfl

theorem wp_findOne {q : Document → Bool} {Q : Document → Server → Prop} :
    wp (findOne c q) Q E s ↔
    (∀ exn, s.database.fault = .throws exn → E exn (s.issued (.find c))) ∧
    (s.database.fault.isThrow = false →
      Q (s.database.found c q) ((s.issued (.find c)).setDatabase (s.database.afterFind c q))) := by
  simp only [findOne, wp_bind, wp_issue]
  refine and_congr_right fun _ => imp_congr_right fun hf => ?_
  simp only [Database.found, Database.afterFind, hf]
  by_cases hv : s.database.fault = .vanished
  · simp [hv, modifyDatabase, Server.issued, Server.setDatabase]
  · simp [hv, Server.issued, Server.setDatabase]

/-! ## `SaveableItem` -/

/-- The server after an object was saved. -/
def Server.saved (s : Server) (c : Collection) (id : OID) (m : Modifier) : Server :=
  (s.issued (.update c id m)).setDatabase (s.database.afterUpdate c id m).next

/-- The server after a document was looked for. -/
def Server.searched (s : Server) (c : Collection) (q : Document → Bool) : Server :=
  (s.issued (.find c)).setDatabase (s.database.afterFind c q)

/-- `Refetch` returns if it finds a document. -/
theorem wp_refetch {item : SaveableItem} {Q : Unit → SaveableItem × Server → Prop} :
    wp (SaveableItem.refetch c) Q (fun _ _ => False) (item, s) ↔
      item.uniqueid.isSet ∧ s.database.found c (byId item.uniqueid) ≠ [] ∧
      Q () ({ item with rawdata := s.database.found c (byId item.uniqueid) },
        s.searched c (byId item.uniqueid)) := by
  simp only [SaveableItem.refetch, wp_bind, wp_self, wp_raiseIf, wp_shared, wp_findOne, wp_assign,
    wp_when, wp_getLastError, wp_raise, Fault.and_iff]
  by_cases hid : item.uniqueid.isSet = true
  · by_cases hthrow : s.database.fault.isThrow = true
    · simp [hid, hthrow, Database.found]
    · by_cases hfound : s.database.found c (byId item.uniqueid) = []
      · simp [hid, hthrow, hfound]
      · simp [hid, hthrow, hfound, Server.searched]
  · simp [hid]

/-- An update that reads the document back also needs one to be found. -/
theorem wp_saveAndReadBack {item : SaveableItem} {Q : Unit → SaveableItem × Server → Prop} :
    wp (SaveableItem.update c m true) Q (fun _ _ => False) (item, s) ↔
      item.uniqueid.isSet ∧ s.database.refusesUpdate c item.uniqueid m = false ∧
      s.database.readBack c item.uniqueid m ≠ [] ∧
      Q () ({ item with rawdata := s.database.readBack c item.uniqueid m },
        (s.saved c item.uniqueid m).searched c (byId item.uniqueid)) := by
  simp only [SaveableItem.update, wp_bind, wp_self, wp_raiseIf, wp_shared, wp_update,
    wp_getLastError, wp_when, wp_refetch, Fault.and_iff, Database.refusesUpdate]
  by_cases hid : item.uniqueid.isSet = true
  · simp [hid, Server.saved, and_assoc, Server.setDatabase, Database.readBack]
  · simp [hid]

end Runs

namespace SaveableItem
variable {s : Server} {c : Collection} {m : Modifier} {item : SaveableItem}

/-- The documents after an update, which may also have thrown. -/
def docsAfter (item : SaveableItem) (c : Collection) (m : Modifier) (db : Database) :
    Collection → List Document :=
  if item.uniqueid.isSet && !db.fault.isThrow then (db.afterUpdate c item.uniqueid m).docs
  else db.docs

/-- An update that is refused throws, and leaves the rest of the server alone. -/
theorem wp_update : wp (update c m false)
    (fun _ q => (item.uniqueid.isSet && !s.database.refusesUpdate c item.uniqueid m) = true ∧
      q = (item, s.saved c item.uniqueid m))
    (fun _ q => (item.uniqueid.isSet && !s.database.refusesUpdate c item.uniqueid m) = false ∧
      ∃ db trace, db.docs = item.docsAfter c m s.database ∧
        q = (item, { s with database := db, trace := trace })) (item, s) := by
  rw [update, wp_bind, wp_self, wp_bind, wp_raiseIf]
  by_cases hid : item.uniqueid.isSet = true
  case neg =>
    rw [if_pos (by simp [hid])]
    exact ⟨by simp [hid], s.database, s.trace, by simp [docsAfter, hid], rfl⟩
  rw [if_neg (by simp [hid]), wp_bind, wp_shared, FreshCity.wp_update]
  refine ⟨fun exn hexn => ⟨by simp [hid, Database.refusesUpdate, hexn, Fault.isThrow], _, _, ?_, rfl⟩,
    fun hfault => ?_⟩
  · simp [docsAfter, hid, hexn, Fault.isThrow, Database.next]
  have hdocs : item.docsAfter c m s.database =
      (s.database.afterUpdate c item.uniqueid m).docs := by simp [docsAfter, hid, hfault]
  rw [wp_bind, wp_shared, wp_getLastError]
  have hnext : (s.database.afterUpdate c item.uniqueid m).next.docs =
      item.docsAfter c m s.database := hdocs.symm
  refine ⟨fun exn hexn => ⟨?_, _, _, hnext, rfl⟩, fun hreport => ?_⟩
  · have hexn' : (s.database.afterUpdate c item.uniqueid m).fault = .throws exn := hexn
    simp [hid, Database.refusesUpdate, hexn', Fault.isThrow]
  have hreport' : (s.database.afterUpdate c item.uniqueid m).fault.isThrow = false := hreport
  rw [wp_bind, wp_raiseIf]
  split
  case isTrue herror =>
    have herror' : ((s.database.afterUpdate c item.uniqueid m).lasterror.getD []).isEmpty = false := by
      simpa using herror
    exact ⟨by simp [hid, Database.refusesUpdate, herror'], _, _, hnext, rfl⟩
  case isFalse herror =>
    have herror' : ((s.database.afterUpdate c item.uniqueid m).lasterror.getD []).isEmpty = true := by
      simpa using herror
    exact ⟨by simp [hid, Database.refusesUpdate, hfault, hreport', herror'], rfl⟩

/-- An update of an item that is a part of an object in a manager. -/
theorem wp_focus_update {get : Server → Option SaveableItem} {put : SaveableItem → Server → Server}
    (hitem : get s = some item)
    (hput : ∀ db trace, put item { s with database := db, trace := trace } =
      { s with database := db, trace := trace }) :
    wp (focus get put (update c m false))
      (fun _ t => (item.uniqueid.isSet && !s.database.refusesUpdate c item.uniqueid m) = true ∧
        t = s.saved c item.uniqueid m)
      (fun _ t => (item.uniqueid.isSet && !s.database.refusesUpdate c item.uniqueid m) = false ∧
        ∃ db trace, db.docs = item.docsAfter c m s.database ∧
          t = { s with database := db, trace := trace }) s := by
  rw [wp_focus]
  intro item' hitem'
  obtain rfl := Option.some.inj (hitem.symm.trans hitem')
  refine wp_mono wp_update (fun _ q hq => ⟨hq.1, ?_⟩) (fun _ q hq => ⟨hq.1, ?_⟩)
  · rw [hq.2]
    exact hput _ _
  · obtain ⟨-, db, trace, hdocs, rfl⟩ := hq
    exact ⟨db, trace, hdocs, hput db trace⟩

end SaveableItem

/-! ## Profiles -/

namespace Profile

/-- What `_LoadMemberData` reads of a document is there, at the types it is read at. -/
def wellFormed (raw : Document) : Bool :=
  let archive := (raw.at? [.archive, .gtasa]).bind asObj
  ((raw.at? [.auth, .password]).bind Bson.asString).isSome &&
    ((raw.at? [.auth, .deleted]).bind Bson.asBool).isSome &&
    (archive.bind fun a => (Doc.at? a [.reginfo, .nickname]).bind Bson.asString).isSome &&
    (archive.bind fun a => readInt (Doc.field? a .mgmtlevel)).isSome &&
    (archive.bind fun a => (Doc.field? a .banned).bind Bson.asBool).isSome

/-- Whether `Sync` saves a profile: it is registered, the write is not refused and the
document that is read back can be loaded. -/
def canSync (s : Server) (p : ℤ) (pr : Profile) : Bool :=
  let m := syncModifier s.env p pr
  pr.item.uniqueid.isSet && !s.database.refusesUpdate .profile pr.item.uniqueid m &&
    wellFormed (s.database.readBack .profile pr.item.uniqueid m)

theorem ne_nil_of_wellFormed {raw : Document} (h : wellFormed raw = true) : raw ≠ [] := by
  rintro rfl
  exact absurd h (by decide)

theorem wp_loadMemberData {pr : Profile} {s : Server} :
    wp loadMemberData (fun _ _ => True) (fun _ _ => False) (pr, s) ↔
      wellFormed pr.item.rawdata = true := by
  simp only [loadMemberData, rethrowAs, check, wp_handle, wp_bind, wp_self, wp_shared, wp_gets,
    wp_orRaise, wp_assign, wp_ite, wp_raise, wellFormed]
  rcases (Doc.at? pr.item.rawdata [.auth, .password]).bind Bson.asString with _ | hash
  · simp
  rcases (Doc.at? pr.item.rawdata [.archive, .gtasa]).bind asObj with _ | archive
  · simp
  rcases (Doc.at? pr.item.rawdata [.auth, .deleted]).bind Bson.asBool with _ | deleted
  · simp
  simp only [Option.some.injEq, forall_eq', Option.bind_some, reduceCtorEq, false_imp_iff, and_true]
  rcases (Doc.at? archive [.reginfo, .nickname]).bind Bson.asString with _ | nickname
  · simp
  rcases readInt (Doc.field? archive .mgmtlevel) with _ | level
  · simp
  rcases (Doc.field? archive .banned).bind Bson.asBool with _ | banned <;> simp

theorem wp_sync {p : ℤ} {s : Server} :
    wp (sync p) (fun _ _ => True) (fun _ _ => False) s ↔
      ∀ pr, s.profiles.lookup p = some pr → canSync s p pr = true := by
  simp only [sync, ref, load, withItem, wp_bind, wp_gets, wp_orUndefined, wp_focus,
    wp_saveAndReadBack, wp_loadMemberData]
  refine forall₂_congr fun pr hpr => ?_
  have hkept : (s.saved .profile pr.item.uniqueid (syncModifier s.env p pr)).profiles = s.profiles :=
    rfl
  have hfound := @ne_nil_of_wellFormed
    (s.database.readBack .profile pr.item.uniqueid (syncModifier s.env p pr))
  simp only [hpr, Option.map_some, Option.some.injEq, forall_eq', Server.searched, Server.issued,
    Server.setDatabase, hkept, Map.lookup_adjust, if_true, canSync, Bool.and_eq_true,
    Bool.not_eq_true']
  tauto

end Profile
end FreshCity
