import FreshCity.Loading
import FreshCity.Stored
import FreshCity.Totality

/-!
# Registration

`Profile::Create` inserts a document for a player, and the constructor that is given
the player's name looks for one. Both go through the code page, each in its own way.
-/
namespace FreshCity
open Imperative Prog

/-! ## A database that returns what was inserted -/

namespace Database

/-- What fails is noticed, and nothing is deleted from elsewhere. -/
def Reliable (db : Database) : Prop := ∀ f ∈ db.faults, f.isSound = true

variable {db : Database} {c : Collection} {doc d' : Document} {ds : List Document} {id : OID}
  {m : Modifier}

theorem Reliable.of_faults {db' : Database} (h : db.Reliable) (hfaults : db'.faults = db.faults) :
    db'.Reliable := by
  rw [Reliable, hfaults]
  exact h

theorem Reliable.fault (h : db.Reliable) : db.fault.isSound = true := by
  rw [Database.fault]
  cases hfaults : db.faults with
  | nil => rfl
  | cons f fs => exact h f (by simp [hfaults])

theorem Reliable.next (h : db.Reliable) : db.next.Reliable :=
  fun f hf => h f (List.mem_of_mem_tail hf)

theorem Reliable.afterUpdate (h : db.Reliable) : (db.afterUpdate c id m).Reliable :=
  h.next.of_faults (faults_afterUpdate db c id m)

/-- A search of a reliable database deletes nothing. -/
theorem Reliable.afterFind {q : Document → Bool} (h : db.Reliable) : db.afterFind c q = db.next := by
  rw [Database.afterFind, if_neg]
  intro hv
  have hsound := h.fault
  simp [hv, Fault.isSound] at hsound

theorem Reliable.found {q : Document → Bool} (h : db.Reliable) :
    db.found c q = if db.fault.isThrow then [] else ((db.docs c).find? q).getD [] := by
  rw [Database.found, h.afterFind]
  rfl

/-- The database after an insertion that did not throw. -/
def afterInsert (db : Database) (c : Collection) (doc : Document) : Database :=
  db.next.written (fun db => db.insert c doc) db.fault

theorem faults_afterInsert : (db.afterInsert c doc).faults = db.faults.tail := by
  rw [afterInsert]
  cases db.fault with
  | error e => rfl
  | _ =>
    simp only [written, insert]
    split <;> rfl

theorem Reliable.afterInsert (h : db.Reliable) : (db.afterInsert c doc).Reliable :=
  h.next.of_faults faults_afterInsert

theorem duplicateKey_ne_nil : duplicateKey ≠ [] := by decide

/-- An insertion that reports nothing has appended the document, and its id was free. -/
theorem docs_afterInsert (h : db.Reliable) (hthrow : db.fault.isThrow = false)
    (herror : (db.afterInsert c doc).lasterror.getD [] = []) (hid : documentId doc = some id) :
    (∀ d ∈ db.docs c, documentId d ≠ some id) ∧ (db.afterInsert c doc).docs c = db.docs c ++ [doc] := by
  have hsound := h.fault
  rw [afterInsert] at herror ⊢
  cases hfault : db.fault with
  | throws e => simp [hfault, Fault.isThrow] at hthrow
  | vanished => simp [hfault, Fault.isSound] at hsound
  | error e =>
    rw [hfault] at herror
    have hempty : e = [] := herror
    simp [hfault, Fault.isSound, hempty] at hsound
  | none =>
    rw [hfault] at herror
    simp only [written, insert] at herror ⊢
    split at herror
    case isTrue => exact absurd herror duplicateKey_ne_nil
    case isFalse hfree =>
      rw [if_neg hfree]
      refine ⟨fun d hd heq => hfree ?_, by simp [setError, setDocs, Database.next]⟩
      exact List.any_eq_true.mpr ⟨d, hd, by simp [heq, hid]⟩

theorem find?_append_fresh (hfresh : ∀ d ∈ ds, documentId d ≠ some id) (hid : documentId doc = some id) :
    (ds ++ [doc]).find? (byId id) = some doc := by
  rw [List.find?_append, List.find?_eq_none.mpr fun d hd => by simp [byId, hfresh d hd]]
  simp [byId, hid]

theorem updateFirst_append_fresh (hfresh : ∀ d ∈ ds, documentId d ≠ some id)
    (hid : documentId doc = some id) : updateFirst (byId id) d' (ds ++ [doc]) = ds ++ [d'] := by
  induction ds with
  | nil => simp [updateFirst, byId, hid]
  | cons d ds ih =>
    have hne : documentId d ≠ some id := hfresh d (List.mem_cons_self ..)
    rw [List.cons_append, updateFirst, if_neg (by simp [byId, hne]),
      ih fun e he => hfresh e (List.mem_cons_of_mem _ he), List.cons_append]

/-- An update of the last document that is not refused has rewritten it. -/
theorem docs_afterUpdate_last (h : db.Reliable) (hdocs : db.docs c = ds ++ [doc])
    (hfresh : ∀ d ∈ ds, documentId d ≠ some id) (hid : documentId doc = some id)
    (haccepted : db.refusesUpdate c id m = false) :
    ∃ d', doc.setAll m = some d' ∧ (db.afterUpdate c id m).docs c = ds ++ [d'] := by
  obtain ⟨hthrow, -, herror⟩ := refusesUpdate_eq_false haccepted
  have hsound := h.fault
  have hstored : db.next.stored c id = some doc := by
    rw [stored, Database.next, hdocs, find?_append_fresh hfresh hid]
  rw [Database.afterUpdate] at herror ⊢
  cases hfault : db.fault with
  | throws e => simp [hfault, Fault.isThrow] at hthrow
  | vanished => simp [hfault, Fault.isSound] at hsound
  | error e =>
    rw [hfault] at herror
    have hempty : e = [] := herror
    simp [hfault, Fault.isSound, hempty] at hsound
  | none =>
    rw [hfault] at herror
    have hlast : ((db.next.update c id m).lasterror.getD []) = [] := herror
    change ∃ d', doc.setAll m = some d' ∧ (db.next.update c id m).docs c = ds ++ [d']
    have hfind : (db.next.docs c).find? (byId id) = some doc := hstored
    cases hset : doc.setAll m with
    | none =>
      simp only [update, hfind, hset] at hlast
      exact absurd hlast conflictingModifier_ne_nil
    | some d' =>
      refine ⟨d', rfl, ?_⟩
      have hlist : db.next.docs c = ds ++ [doc] := hdocs
      rw [update_docs, hstored, Option.bind_some, hset]
      simp only [Function.update_self, hlist, updateFirst_append_fresh hfresh hid]

end Database

/-! ## Insertion and update of an item -/

section Items
variable {s : Server} {c : Collection} {m : Modifier} {item : SaveableItem} {doc : Document}
  {E : Exn → Server → Prop}

theorem wp_insert {Q : Unit → Server → Prop} : wp (insert c doc) Q E s ↔
    (∀ exn, s.database.fault = .throws exn → E exn (s.issued (.insert c doc))) ∧
    (s.database.fault.isThrow = false →
      Q () ((s.issued (.insert c doc)).setDatabase (s.database.afterInsert c doc))) := by
  simp only [insert, wp_bind, wp_issue]
  rfl

/-- What is fetched again is what is found. -/
theorem wp_refetch_found {Q : Unit → SaveableItem × Server → Prop}
    (hQ : s.database.found c (byId item.uniqueid) ≠ [] →
      Q () ({ item with rawdata := s.database.found c (byId item.uniqueid) },
        s.searched c (byId item.uniqueid))) :
    wp (SaveableItem.refetch c) Q (fun _ _ => True) (item, s) := by
  simp only [SaveableItem.refetch, wp_bind, wp_self, wp_raiseIf, wp_shared, wp_findOne, wp_assign,
    wp_when, wp_getLastError, wp_raise, implies_true, true_and, and_true]
  split
  · trivial
  · intro _
    split
    · trivial
    case isFalse hfound => exact hQ (by simpa using hfound)

/-- The document of an item is the last of its collection, and the item has read it. -/
structure HoldsDocument (c : Collection) (ds : List Document) (doc : Document) (q : SaveableItem × Server) :
    Prop where
  fresh : ∀ d ∈ ds, documentId d ≠ some q.1.uniqueid
  id : documentId doc = some q.1.uniqueid
  docs : q.2.database.docs c = ds ++ [doc]
  reliable : q.2.database.Reliable
  rawdata : q.1.rawdata = doc

theorem HoldsDocument.of_database {ds : List Document} {t : Server} (h : HoldsDocument c ds doc (item, s))
    (hdatabase : t.database = s.database) : HoldsDocument c ds doc (item, t) where
  fresh := h.fresh
  id := h.id
  docs := by
    rw [hdatabase]
    exact h.docs
  reliable := by
    rw [hdatabase]
    exact h.reliable
  rawdata := h.rawdata

/-- What an operation on an item leaves alone. -/
def OnlyDatabase (s t : Server) : Prop :=
  ∃ db trace, t = { s with database := db, trace := trace }

/-- An item is fetched again whose document is the last of its collection. -/
theorem wp_refetch_last {ds : List Document} (h : s.database.Reliable)
    (hdocs : s.database.docs c = ds ++ [doc])
    (hfresh : ∀ d ∈ ds, documentId d ≠ some item.uniqueid)
    (hid : documentId doc = some item.uniqueid) :
    wp (SaveableItem.refetch c) (fun _ q => OnlyDatabase s q.2 ∧ q.1.uniqueid = item.uniqueid ∧
      HoldsDocument c ds doc q) (fun _ _ => True) (item, s) := by
  refine wp_refetch_found fun hfound => ?_
  rw [h.found] at hfound ⊢
  split at hfound
  · exact absurd rfl hfound
  case isFalse hthrow =>
  rw [if_neg hthrow, hdocs, Database.find?_append_fresh hfresh hid, Option.getD_some]
  have hnext : (s.searched c (byId item.uniqueid)).database = s.database.next := h.afterFind
  refine ⟨⟨_, _, rfl⟩, rfl, hfresh, hid, ?_, ?_, rfl⟩
  · rw [hnext]
    exact hdocs
  · rw [hnext]
    exact h.next

/-- A document is inserted and fetched again. -/
theorem wp_createItem (h : s.database.Reliable) : wp (SaveableItem.create c doc true)
    (fun _ q => OnlyDatabase s q.2 ∧ HoldsDocument c (s.database.docs c) doc q) (fun _ _ => True)
    (item, s) := by
  simp only [SaveableItem.create, wp_bind, wp_self, wp_raiseIf, wp_shared, wp_insert,
    wp_getLastError, wp_orRaise, wp_assign, when_true, implies_true, true_and, and_true]
  split
  · trivial
  intro hthrow _
  split
  · trivial
  case isFalse.isFalse herror =>
  intro id hid
  have herror' : (s.database.afterInsert c doc).lasterror.getD [] = [] := by
    simpa [Server.setDatabase] using herror
  obtain ⟨hfresh, hdocs⟩ := Database.docs_afterInsert h hthrow herror' hid
  refine wp_mono (wp_refetch_last h.afterInsert.next hdocs hfresh hid) (fun _ q hq => ?_) (fun _ _ _ => trivial)
  obtain ⟨⟨db, trace, hserver⟩, -, hholds⟩ := hq
  exact ⟨⟨db, trace, hserver⟩, hholds⟩

/-- A document that an item holds is updated and fetched again. -/
theorem wp_updateItem {ds : List Document} (h : HoldsDocument c ds doc (item, s))
    (hm : ∀ w ∈ m, ∃ k path, w.1 = k :: path ∧ Field._id ≠ k) : wp (SaveableItem.update c m true)
    (fun _ q => OnlyDatabase s q.2 ∧ ∃ d', doc.setAll m = some d' ∧ q.1.uniqueid = item.uniqueid ∧
      HoldsDocument c ds d' q) (fun _ _ => True) (item, s) := by
  simp only [SaveableItem.update, wp_bind, wp_self, wp_raiseIf, wp_shared, wp_update,
    wp_getLastError, when_true, implies_true, true_and]
  split
  · trivial
  intro hthrow hreport
  split
  · trivial
  case isFalse.isFalse herror =>
  have haccepted : s.database.refusesUpdate c item.uniqueid m = false := by
    have hreport' : (s.database.afterUpdate c item.uniqueid m).fault.isThrow = false := hreport
    have herror' : ((s.database.afterUpdate c item.uniqueid m).lasterror.getD []).isEmpty = true := by
      simpa [Server.setDatabase] using herror
    simp [Database.refusesUpdate, hthrow, hreport', herror']
  obtain ⟨d', hset, hdocs⟩ := Database.docs_afterUpdate_last h.reliable h.docs h.fresh h.id haccepted
  have hid : documentId d' = some item.uniqueid := by
    have hsame : d'.field? ._id = doc.field? ._id := Doc.field?_setAll_of_ne hset hm
    rw [documentId, hsame]
    exact h.id
  refine wp_mono (wp_refetch_last h.reliable.afterUpdate.next hdocs h.fresh hid) (fun _ q hq => ?_) (fun _ _ _ => trivial)
  obtain ⟨⟨db, trace, hserver⟩, huniqueid, hholds⟩ := hq
  exact ⟨⟨db, trace, hserver⟩, d', hset, huniqueid, hholds⟩

end Items

/-! ## `Profile::Create` -/

namespace Profile
variable {s t : Server} {p : ℤ} {n w : Text}

/-- `_LoadMemberData` returns if the document is well formed, and takes the digest. -/
theorem wp_loadMemberData_password {pr : Profile} : wp loadMemberData
    (fun _ q => wellFormed pr.item.rawdata = true ∧ q.2 = s ∧ q.1.item = pr.item ∧
      (pr.item.rawdata.at? [.auth, .password]).bind Bson.asString = some q.1.auth.passwordhash)
    (fun _ _ => True) (pr, s) := by
  simp only [loadMemberData, rethrowAs, check, wp_handle, wp_bind, wp_self, wp_shared, wp_gets,
    wp_orRaise, wp_assign, wp_ite, wp_raise, ite_self, implies_true, and_true]
  intro hash hhash archive harchive deleted hdeleted nickname hnickname level hlevel banned hbanned
  refine ⟨?_, trivial, trivial, hhash⟩
  simp [wellFormed, hhash, harchive, hdeleted, hnickname, hlevel, hbanned]

/-- The document of a player who was registered. -/
structure Registered (s : Server) (p : ℤ) (n w : Text) (doc : Document) (t : Server) : Prop where
  platform : t.platform = s.platform
  docs : t.database.docs .profile = s.database.docs .profile ++ [doc]
  created : ∃ pr, t.profiles.lookup p = some pr ∧ documentId doc = some pr.item.uniqueid
  fresh : ∀ d ∈ s.database.docs .profile, documentId d ≠ documentId doc
  logname : (doc.at? [.auth, .logname]).bind Bson.asString = some n
  password : ∃ digest, getPasswordDigest (s.platform.gbkToUTF8 w) = some digest ∧
    (doc.at? [.auth, .password]).bind Bson.asString = some digest
  wellFormed : wellFormed doc = true

/-- The fields that `Sync` writes are in the archive. -/
theorem mem_syncModifier {env : Env} {pr : Profile} :
    ∀ w ∈ syncModifier env p pr, ∃ path, w.1 = Field.archive :: path := by
  simp [syncModifier]

/-- What `Sync` leaves of a document that has just been inserted. -/
theorem registered_setAll {env : Env} {pr : Profile} {doc d' : Document} {k : Field}
    (hset : doc.setAll (syncModifier env p pr) = some d') (hk : k ≠ .archive) :
    d'.field? k = doc.field? k := by
  refine Doc.field?_setAll_of_ne hset fun w hw => ?_
  obtain ⟨path, hpath⟩ := mem_syncModifier w hw
  exact ⟨_, path, hpath, hk⟩

/-- A method of the item a profile is: the profile holds the item afterwards. -/
theorem wp_withItem_database {pr : Profile} {x : Method SaveableItem Unit}
    {R : SaveableItem × Server → Prop} (hpr : s.profiles.lookup p = some pr)
    (hx : wp x (fun _ q => OnlyDatabase s q.2 ∧ R q) (fun _ _ => True) (pr.item, s)) :
    wp (withItem p x) (fun _ t => t.platform = s.platform ∧ t.env = s.env ∧
      ∃ item u, R (item, u) ∧ t.database = u.database ∧
        t.profiles.lookup p = some { pr with item := item }) (fun _ _ => True) s := by
  rw [withItem, wp_focus]
  intro item hitem
  rw [hpr, Option.map_some, Option.some.injEq] at hitem
  subst hitem
  refine wp_mono hx (fun _ q hq => ?_) (fun _ _ _ => trivial)
  obtain ⟨⟨db, trace, hserver⟩, hR⟩ := hq
  refine ⟨by rw [hserver], by rw [hserver], q.1, q.2, hR, rfl, ?_⟩
  rw [hserver]
  exact Map.lookup_adjust_self hpr _

/-- The profile of a player holds the last document of the collection. -/
structure HoldsLast (ds : List Document) (p : ℤ) (pr : Profile) (doc : Document) (s : Server) : Prop where
  lookup : s.profiles.lookup p = some pr
  holds : HoldsDocument .profile ds doc (pr.item, s)

/-- `Sync` writes to the document, reads it again and loads it. -/
theorem wp_sync_last {ds : List Document} {pr : Profile} {doc : Document} (h : HoldsLast ds p pr doc s) :
    wp (sync p) (fun _ t => t.platform = s.platform ∧ ∃ pr' d', HoldsLast ds p pr' d' t ∧
      doc.setAll (syncModifier s.env p pr) = some d' ∧ wellFormed d' = true) (fun _ _ => True) s := by
  simp only [sync, ref, wp_bind, wp_gets, wp_orUndefined, h.lookup, Option.some.injEq, forall_eq']
  have hfields : ∀ w ∈ syncModifier s.env p pr, ∃ k path, w.1 = k :: path ∧ Field._id ≠ k :=
    fun w hw => by
      obtain ⟨path, hpath⟩ := mem_syncModifier w hw
      exact ⟨_, path, hpath, by decide⟩
  refine wp_mono (wp_withItem_database h.lookup (wp_updateItem h.holds hfields)) (fun _ t ht => ?_)
    (fun _ _ _ => trivial)
  obtain ⟨hplatform, -, item, u, ⟨d', hset, -, hholds⟩, hdatabase, hlookup⟩ := ht
  rw [load, wp_focus]
  intro pr' hpr'
  obtain rfl := Option.some.inj (hlookup.symm.trans hpr')
  refine wp_mono wp_loadMemberData_password (fun _ q hq => ?_) (fun _ _ _ => trivial)
  obtain ⟨hwell, hsame, -, -⟩ := hq
  rw [hsame]
  have hraw : item.rawdata = d' := hholds.rawdata
  refine ⟨hplatform, _, d', ⟨Map.lookup_adjust_self hlookup _, hholds.of_database hdatabase⟩, hset, ?_⟩
  rw [← hraw]
  exact hwell

theorem wp_create (h : s.database.Reliable) : wp (create p n w)
    (fun _ t => ∃ doc, Registered s p n w doc t) (fun _ _ => True) s := by
  simp only [create, genOID, wp_bind, wp_gets, wp_modify, wp_pure, wp_orUndefined]
  intro digest hdigest
  cases hpr : s.profiles.lookup p with
  | none =>
    rw [withItem, wp_focus]
    exact fun item hitem => by simp [hpr] at hitem
  | some pr =>
  refine wp_mono (wp_withItem_database hpr (wp_createItem h)) (fun _ t ht => ?_) (fun _ _ _ => trivial)
  obtain ⟨hplatform, -, item, u, hholds, hdatabase, hlookup⟩ := ht
  refine wp_mono (wp_sync_last ⟨hlookup, hholds.of_database hdatabase⟩) (fun _ v hv => ?_)
    (fun _ _ _ => trivial)
  obtain ⟨hplatform', pr', d', hlast, hset, hwell⟩ := hv
  have hauth : d'.field? .auth = _ := registered_setAll hset (by decide)
  have hat : ∀ k, Doc.at? d' [.auth, k] = _ := fun k => by
    rw [Doc.at?_cons, hauth, ← Doc.at?_cons]
  refine ⟨d', hplatform'.trans hplatform, hlast.holds.docs, ⟨pr', hlast.lookup, hlast.holds.id⟩,
    fun d hd => ?_, ?_, ⟨digest, hdigest, ?_⟩, hwell⟩
  · rw [hlast.holds.id]
    exact hlast.holds.fresh d hd
  · rw [hat]
    rfl
  · rw [hat]
    rfl

/-! ## The constructor -/

/-- A later time at which the documents of players are those of before, and the collection
can be searched. -/
structure Later (t u : Server) : Prop where
  platform : u.platform = t.platform
  docs : u.database.docs .profile = t.database.docs .profile
  configured : u.config.collection .profile = true
  answers : ∀ f ∈ u.database.faults, f ≠ .vanished ∧ f.isThrow = false

/-- The document of a player that the constructor finds. -/
def lookupName (s : Server) (n : Text) : Document :=
  ((s.database.docs .profile).find? (byText [.auth, .logname] (s.platform.gbkToUTF8 n))).getD []

theorem Later.fault (h : Later t s) : s.database.fault ≠ .vanished ∧ s.database.fault.isThrow = false := by
  rw [Database.fault]
  cases hfaults : s.database.faults with
  | nil => simp [Fault.isThrow]
  | cons f fs => exact h.answers f (by simp [hfaults])

theorem Later.found (h : Later t s) :
    s.database.found .profile (byText [.auth, .logname] (s.platform.gbkToUTF8 n)) = lookupName s n := by
  obtain ⟨hvanish, hthrow⟩ := h.fault
  rw [Database.found, Database.afterFind, if_neg hvanish, hthrow]
  rfl

/-- What the constructor finds is the document with the name. -/
theorem wp_construct_found (h : Later t s) : wp (construct n)
    (fun pr _ => if (lookupName s n).isEmpty then pr.item.isEmpty = true
      else documentId (lookupName s n) = some pr.item.uniqueid) (fun _ _ => True) s := by
  simp only [construct, SaveableItem.fetch, configCollection, allocate, wp_bind, wp_gets, wp_raiseIf,
    h.configured, Bool.not_true, Bool.false_eq_true, if_false, wp_findOne, h.found, implies_true,
    true_and, wp_ite, wp_pure, wp_modify, wp_orRaise, wp_map, wp_withLocal, and_true]
  intro _
  split
  case isTrue =>
    have hempty : SaveableItem.isEmpty {} = true := rfl
    rw [if_pos hempty]
    exact hempty
  case isFalse hfound =>
    intro id hid
    have hitem : ¬SaveableItem.isEmpty { rawdata := lookupName s n, uniqueid := id } = true := hfound
    rw [if_neg hitem]
    refine wp_mono wp_loadMemberData_password (fun _ q hq => ?_) (fun _ _ _ => trivial)
    rw [hq.2.2.1]
    exact hid

/-- A well-formed document that has the name is found and loaded. -/
theorem wp_construct_loads {doc : Document} {id : OID} (h : Later t s) (hdoc : lookupName s n = doc)
    (hid : documentId doc = some id) (hwell : wellFormed doc = true) : wp (construct n)
    (fun pr _ => pr.item = { rawdata := doc, uniqueid := id } ∧
      (doc.at? [.auth, .password]).bind Bson.asString = some pr.auth.passwordhash)
    (fun _ _ => False) s := by
  have hne : ¬doc.isEmpty = true := by
    simpa using ne_nil_of_wellFormed hwell
  simp only [construct, SaveableItem.fetch, configCollection, allocate, wp_bind, wp_gets, wp_raiseIf,
    h.configured, Bool.not_true, Bool.false_eq_true, if_false, wp_findOne, h.found, hdoc, wp_pure,
    wp_modify, wp_orRaise, wp_map, wp_withLocal, hid, Option.some.injEq, forall_eq', hne,
    reduceCtorEq, SaveableItem.isEmpty]
  refine ⟨fun exn hexn => ?_, fun _ => ⟨?_, False.elim⟩⟩
  · have hthrow := h.fault.2
    simp [hexn, Fault.isThrow] at hthrow
  · refine wp_mono (wp_and wp_loadMemberData_password (wp_loadMemberData.mpr ?_)) (fun _ q hq => ?_)
      (fun _ _ hf => hf.2)
    · exact hwell
    · exact ⟨hq.1.2.2.1, hq.1.2.2.2⟩

section Total
set_option synthInstance.maxSize 1000

instance : Total (construct n) := by
  unfold construct; infer_instance

end Total

/-! ## Finding the registration -/

/-- A profile constructed for the name is the one that was created, and accepts its password. -/
def FindsProfile (created : OID) (n w : Text) (u : Server) : Prop :=
  ∃ pr v, construct n u = .ok pr v ∧ pr.item.isEmpty = false ∧ pr.item.uniqueid = created ∧
    ∀ input, pr.authPassword u.platform input = some true ↔
      getPasswordDigest (u.platform.gbkToUTF8 input) = getPasswordDigest (u.platform.gbkToUTF8 w)

theorem lookupName_mem {u : Server} (hfound : lookupName u n ≠ []) :
    lookupName u n ∈ u.database.docs .profile := by
  rw [lookupName] at hfound ⊢
  cases hfind : (u.database.docs .profile).find? (byText [.auth, .logname] (u.platform.gbkToUTF8 n)) with
  | none =>
    rw [hfind] at hfound
    exact absurd rfl hfound
  | some d => exact List.mem_of_find?_eq_some hfind

/-- The last document is found exactly if the conversion leaves its name alone, and no other
document has it. -/
theorem lookupName_eq_iff {doc : Document} {ds : List Document} {u : Server}
    (hdocs : u.database.docs .profile = ds ++ [doc]) (hne : doc ≠ [])
    (hfresh : ∀ d ∈ ds, documentId d ≠ documentId doc)
    (hname : (doc.at? [.auth, .logname]).bind Bson.asString = some n) : lookupName u n = doc ↔
      u.platform.gbkToUTF8 n = n ∧ ∀ d ∈ ds, byText [.auth, .logname] n d = false := by
  have hmatch : byText [.auth, .logname] (u.platform.gbkToUTF8 n) doc = true ↔
      u.platform.gbkToUTF8 n = n := by
    rw [byText, hname, decide_eq_true_iff, Option.some.injEq, eq_comm]
  rw [lookupName, hdocs, List.find?_append]
  cases hfind : ds.find? (byText [.auth, .logname] (u.platform.gbkToUTF8 n)) with
  | some d =>
    have hmem : d ∈ ds := List.mem_of_find?_eq_some hfind
    refine iff_of_false (fun h => hfresh d hmem (congrArg documentId h)) fun h => ?_
    have hother := h.2 d hmem
    rw [← h.1, List.find?_some hfind] at hother
    cases hother
  | none =>
    have hnone := List.find?_eq_none.mp hfind
    by_cases hn : u.platform.gbkToUTF8 n = n
    · rw [hn] at hnone
      rw [Option.none_or, List.find?_cons_of_pos (hmatch.mpr hn)]
      exact iff_of_true rfl ⟨hn, fun d hd => by simpa using hnone d hd⟩
    · rw [Option.none_or, List.find?_cons_of_neg fun h => hn (hmatch.mp h)]
      exact iff_of_false hne.symm fun h => hn h.1

/-- A profile that was created is found later exactly if its name is the same in both code pages
and nobody has it already. -/
theorem registration_found_iff (s t : Server) (p : ℤ) (n w : Text) (h : s.database.Reliable)
    (hcreate : create p n w s = .ok () t) :
    (∃ pr, t.profiles.lookup p = some pr ∧
      ∀ u, Later t u → FindsProfile pr.item.uniqueid n w u) ↔
      s.platform.gbkToUTF8 n = n ∧
        ∀ d ∈ s.database.docs .profile, byText [.auth, .logname] n d = false := by
  obtain ⟨doc, hdoc⟩ := (wp_of_ok hcreate).mp (wp_create h)
  obtain ⟨pr, hpr, hid⟩ := hdoc.created
  obtain ⟨digest, hdigest, hpassword⟩ := hdoc.password
  have hne : doc ≠ [] := ne_nil_of_wellFormed hdoc.wellFormed
  have hiff : ∀ u, Later t u → (lookupName u n = doc ↔ s.platform.gbkToUTF8 n = n ∧
        ∀ d ∈ s.database.docs .profile, byText [.auth, .logname] n d = false) := by
    intro u hu
    rw [← hdoc.platform, ← hu.platform]
    exact lookupName_eq_iff (hu.docs.trans hdoc.docs) hne hdoc.fresh hdoc.logname
  constructor
  · rintro ⟨pr', hpr', hfinds⟩
    obtain rfl : pr = pr' := Option.some.inj (hpr.symm.trans hpr')
    have hu : Later t { t with
        config := { t.config with collection := fun _ => true }
        database := { t.database with faults := [] } } := ⟨rfl, rfl, rfl, fun f hf => by cases hf⟩
    obtain ⟨found, v, hconstruct, hnonempty, hsame, -⟩ := hfinds _ hu
    have hfound := (wp_of_ok hconstruct).mp (wp_construct_found hu)
    split at hfound
    case isTrue => simp [hfound] at hnonempty
    case isFalse hraw =>
      rw [hsame, ← hid] at hfound
      have hmem := lookupName_mem (by simpa using hraw)
      rw [hu.docs, hdoc.docs, List.mem_append, List.mem_singleton] at hmem
      rcases hmem with hold | hlast
      · exact absurd hfound (hdoc.fresh _ hold)
      · exact (hiff _ hu).mp hlast
  · intro hname
    refine ⟨pr, hpr, fun u hu => ?_⟩
    obtain ⟨found, v, hconstruct, hitem, hhash⟩ :=
      exists_ok_of_wp (wp_construct_loads hu ((hiff u hu).mpr hname) hid hdoc.wellFormed)
    have hknown : some found.auth.passwordhash = some digest := hhash.symm.trans hpassword
    refine ⟨found, v, hconstruct, ?_, by rw [hitem], fun input => ?_⟩
    · rw [hitem]
      simpa [SaveableItem.isEmpty] using hne
    · rw [hu.platform, hdoc.platform, hdigest, ← hknown, authPassword]
      simp

end Profile

/-! ## Two registrations -/

namespace Demo

/-- A player who is not registered, on a server with a conversion of texts. -/
def newcomer (gbkToUTF8 : Text → Text) : Server :=
  { initial with
    platform := { platform with gbkToUTF8 := gbkToUTF8 }
    profiles := (∅ : Map ℤ Profile).insert 0 { item := {}, addr := 0 } }

theorem newcomer_reliable (gbkToUTF8 : Text → Text) : (newcomer gbkToUTF8).database.Reliable :=
  fun f hf => by cases hf

end Demo

theorem registration_found_plain : ∃ t,
    Profile.create 0 (ascii "A") (ascii "secret") (Demo.newcomer id) = .ok () t ∧
      ((∃ pr, t.profiles.lookup 0 = some pr ∧ ∀ u, Profile.Later t u →
        Profile.FindsProfile pr.item.uniqueid (ascii "A") (ascii "secret") u) ↔
        (Demo.newcomer id).platform.gbkToUTF8 (ascii "A") = ascii "A" ∧
          ∀ d ∈ (Demo.newcomer id).database.docs .profile,
            byText [.auth, .logname] (ascii "A") d = false) := by
  obtain ⟨⟨⟩, t, ht⟩ := Outcome.exists_ok (o := Profile.create 0 (ascii "A") (ascii "secret")
    (Demo.newcomer id)) (by decide +kernel)
  exact ⟨t, ht, Profile.registration_found_iff _ t 0 _ _ (Demo.newcomer_reliable id) ht⟩

/-- A player whose name the conversion changes is registered, and not found again. -/
theorem registration_lost : ¬∀ (s t : Server) (p : ℤ) (n w : Text),
    Function.Injective s.platform.gbkToUTF8 → s.database.Reliable →
    Profile.create p n w s = .ok () t → ∃ pr, t.profiles.lookup p = some pr ∧
      ∀ u, Profile.Later t u → Profile.FindsProfile pr.item.uniqueid n w u := by
  intro hall
  obtain ⟨⟨⟩, t, ht⟩ := Outcome.exists_ok (o := Profile.create 0 (ascii "A") (ascii "secret")
    (Demo.newcomer (0 :: ·))) (by decide +kernel)
  have hinjective : Function.Injective (Demo.newcomer (0 :: ·)).platform.gbkToUTF8 :=
    fun _ _ heq => (List.cons.inj heq).2
  have hfinds := hall _ t 0 _ _ hinjective (Demo.newcomer_reliable _) ht
  have hname := ((Profile.registration_found_iff _ t 0 _ _ (Demo.newcomer_reliable _) ht).mp hfinds).1
  exact absurd hname (by decide +kernel)

end FreshCity
