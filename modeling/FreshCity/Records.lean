import FreshCity.Imperative.Paths
import FreshCity.KeptDocuments
import FreshCity.Restoring

/-!
# Records and the documents they were read from

A profile keeps what it last read of its document. What it knows of the money and the score there
stays true as long as those who write the document read it back.
-/
namespace FreshCity
open Imperative Prog

/-! ## One document -/

theorem bind_readInt {o : Option Document} {f : Document → Option (Bson Field)} :
    (o.bind fun d => readInt (f d)) = readInt (o.bind f) := by
  cases o <;> rfl

namespace Profile

/-- A number of the gaming record in a document. -/
def recordIn (doc : Document) (k : Field) : Option ℤ :=
  ((doc.at? [.archive, .gtasa]).bind asObj).bind fun archive => recorded archive k

/-- The paths that `_LoadMemberData` reads, except the one to the nickname. -/
def memberPaths : List (List Field) :=
  [[.auth, .password], [.auth, .deleted], [.archive, .gtasa, .mgmtlevel],
    [.archive, .gtasa, .banned]]

abbrev nicknamePath : List Field := [.archive, .gtasa, .reginfo, .nickname]

/-- The path to the record. -/
def recordPath : List Field := [.archive, .gtasa, .attribute]

variable {doc doc' : Document} {k : Field}

theorem recordIn_eq : recordIn doc k = ((doc.at? recordPath).bind asObj).bind fun attr =>
    readInt (Doc.field? attr k) := by
  have hindex : ∀ i, Field.index i ≠ .attribute := by simp
  have hpath : doc.at? recordPath = ((doc.at? [.archive, .gtasa]).bind asObj).bind fun a =>
      Doc.at? a [.attribute] := (Doc.at?_asObject_append (p := [Field.archive, .gtasa]) hindex).symm
  rw [recordIn, hpath, Option.bind_assoc, Option.bind_assoc]
  simp only [recorded, Doc.at?_singleton, Option.bind_assoc]

theorem recordIn_eq_at? (hk : ∀ i, Field.index i ≠ k) :
    recordIn doc k = readInt (doc.at? (recordPath ++ [k])) := by
  rw [recordIn_eq, bind_readInt, ← Doc.at?_asObject_append hk]
  simp only [Doc.at?_singleton]

theorem wellFormed_eq : wellFormed doc =
    (((doc.at? [.auth, .password]).bind Bson.asString).isSome &&
      ((doc.at? [.auth, .deleted]).bind Bson.asBool).isSome &&
      ((doc.at? nicknamePath).bind Bson.asString).isSome &&
      (readInt (doc.at? [.archive, .gtasa, .mgmtlevel])).isSome &&
      ((doc.at? [.archive, .gtasa, .banned]).bind Bson.asBool).isSome) := by
  have hpath : ∀ {k : Field} {path : List Field}, (∀ i, Field.index i ≠ k) →
      doc.at? (.archive :: .gtasa :: k :: path) =
        ((doc.at? [.archive, .gtasa]).bind asObj).bind fun a => Doc.at? a (k :: path) :=
    fun hk => (Doc.at?_asObject_append (p := [Field.archive, .gtasa]) hk).symm
  rw [nicknamePath, hpath (by simp), hpath (by simp), hpath (by simp)]
  simp only [wellFormed, ← bind_readInt, ← Option.bind_assoc, Doc.at?_singleton]

/-- A document stays well formed if what was there to be read still is, and the nickname is a
text. -/
theorem wellFormed_of_paths (hpaths : ∀ path ∈ memberPaths, doc'.at? path = doc.at? path)
    (hnickname : ((doc.at? nicknamePath).bind Bson.asString).isSome = true →
      ((doc'.at? nicknamePath).bind Bson.asString).isSome = true)
    (h : wellFormed doc = true) : wellFormed doc' = true := by
  simp only [memberPaths, List.forall_mem_cons] at hpaths
  obtain ⟨hpassword, hdeleted, hlevel, hbanned, -⟩ := hpaths
  rw [wellFormed_eq] at h ⊢
  simp only [Bool.and_eq_true, hpassword, hdeleted, hlevel, hbanned] at h ⊢
  obtain ⟨⟨⟨hauth, hnick⟩, hlevel⟩, hbanned⟩ := h
  exact ⟨⟨⟨hauth, hnickname hnick⟩, hlevel⟩, hbanned⟩

/-- A document as `Create` inserts it can be loaded, and has no record. -/
theorem wellFormed_document {id : OID} {logname nickname digest ip : Text} {now : ℤ} :
    wellFormed (document id logname nickname digest ip now) = true := by
  simp [wellFormed_eq, document, Doc.at?, Bson.descend, Bson.asString, Bson.asBool,
    Bson.int, readInt, Bson.asNumber]

theorem recordIn_document {id : OID} {logname nickname digest ip : Text} {now : ℤ} :
    recordIn (document id logname nickname digest ip now) k = none := by
  rw [recordIn_eq]
  simp [recordPath, document, Doc.at?, Bson.descend]

/-! ## The two writes -/

/-- `SetNickname` writes a text where a text was, and leaves the record. -/
theorem wellFormed_setNickname {nick : Text}
    (h : doc.setAll [(nicknamePath, .string nick)] = some doc') (hdoc : wellFormed doc = true) :
    wellFormed doc' = true := by
  refine wellFormed_of_paths (fun path hpath => Doc.at?_setAll_of_parts h ?_) (fun _ => ?_) hdoc
  · revert path
    simp [memberPaths, nicknamePath, Doc.parts]
  · rw [Doc.setAll_singleton] at h
    rw [Doc.at?_setAt_self h]
    rfl

theorem recordIn_setNickname {nick : Text}
    (h : doc.setAll [(nicknamePath, .string nick)] = some doc') :
    recordIn doc' k = recordIn doc k := by
  rw [recordIn_eq, recordIn_eq,
    Doc.at?_setAll_of_parts h (by simp [nicknamePath, recordPath, Doc.parts])]

variable {env : Env} {p : ℤ} {pr : Profile}

/-- The paths that `Sync` writes part from each other. -/
theorem syncModifier_parts :
    (syncModifier env p pr).Pairwise fun a b => Doc.parts a.1 b.1 = true := by
  simp [syncModifier, Doc.parts]

theorem wellFormed_sync (h : doc.setAll (syncModifier env p pr) = some doc')
    (hdoc : wellFormed doc = true) : wellFormed doc' = true := by
  have hparts : ∀ path ∈ nicknamePath :: memberPaths, doc'.at? path = doc.at? path :=
    fun path hpath => Doc.at?_setAll_of_parts h (by
      revert path
      simp [syncModifier, nicknamePath, memberPaths, Doc.parts])
  rw [List.forall_mem_cons] at hparts
  exact wellFormed_of_paths hparts.2 (fun hnick => hparts.1 ▸ hnick) hdoc

/-- `Sync` writes the money and the score of the profile. -/
theorem recordIn_sync (h : doc.setAll (syncModifier env p pr) = some doc') :
    recordIn doc' .money = some pr.gamedata.money ∧
      recordIn doc' .score = some pr.gamedata.score := by
  have hat : ∀ k n, (recordPath ++ [k], Bson.int n) ∈ syncModifier env p pr →
      (∀ i, Field.index i ≠ k) → recordIn doc' k = some n := by
    intro k n hw hk
    rw [recordIn_eq_at? hk, Doc.at?_setAll_of_mem h hw syncModifier_parts]
    simp [readInt, Bson.int, Bson.asNumber, truncate]
  exact ⟨hat .money _ (by simp [syncModifier, recordPath]) (by simp),
    hat .score _ (by simp [syncModifier, recordPath]) (by simp)⟩

end Profile

/-! ## The stored documents -/

/-- The documents once the one with an id was rewritten. -/
def Documents.rewrite (docs : Documents) (c : Collection) (id : OID) (doc : Document) : Documents :=
  Function.update docs c (Database.updateFirst (byId id) doc (docs c))

namespace Database
variable {db : Database} {c : Collection} {id j : OID} {m : Modifier} {d d' : Document}
  {docs : List Document}

theorem find?_updateFirst (h : docs.find? (byId id) = some d) (hid : documentId d' = documentId d) :
    (updateFirst (byId id) d' docs).find? (byId j) =
      if j = id then some d' else docs.find? (byId j) := by
  have hd : documentId d = some id := byId_iff.mp (List.find?_some h)
  split
  case isTrue hj =>
    subst hj
    exact find?_updateFirst_self h (byId_iff.mpr (hid.trans hd))
  case isFalse hj =>
    exact find?_updateFirst_other h (by simp [byId, hd, Ne.symm hj])
      (by simp [byId, hid, hd, Ne.symm hj])

theorem mem_updateFirst {q : Document → Bool} (h : d ∈ updateFirst q d' docs) :
    d = d' ∨ d ∈ docs := by
  induction docs with
  | nil => cases h
  | cons e docs ih =>
    rw [updateFirst] at h
    split at h
    · exact (List.mem_cons.mp h).imp_right (List.mem_cons_of_mem e)
    · rcases List.mem_cons.mp h with rfl | h
      · exact .inr (List.mem_cons_self ..)
      · exact (ih h).imp_right (List.mem_cons_of_mem e)

/-- An update of a document is reported as an error, or rewrites it. -/
theorem afterUpdate_cases (h : db.Reliable) (hthrow : db.fault.isThrow = false)
    (hd : db.stored c id = some d) :
    (db.afterUpdate c id m).docs = db.docs ∧ (db.afterUpdate c id m).lasterror.getD [] ≠ [] ∨
      db.fault = .none ∧ (db.afterUpdate c id m).lasterror.getD [] = [] ∧
        ∃ d', d.setAll m = some d' ∧
          (db.afterUpdate c id m).docs = Documents.rewrite db.docs c id d' := by
  have hsound := h.fault
  have hfind : (db.next.docs c).find? (byId id) = some d := hd
  rw [afterUpdate]
  cases hfault : db.fault with
  | throws e => simp [hfault, Fault.isThrow] at hthrow
  | vanished => simp [hfault, Fault.isSound] at hsound
  | error e =>
    refine .inl ⟨rfl, fun hempty => ?_⟩
    have hnil : e = [] := hempty
    simp [hfault, Fault.isSound, hnil] at hsound
  | none =>
    cases hset : d.setAll m with
    | none =>
      have hdb : db.next.update c id m = db.next.setError (some conflictingModifier) := by
        rw [update, hfind]
        simp only [hset]
      refine .inl ⟨?_, ?_⟩
      · simp only [updated, written, hdb]
        rfl
      · simp only [updated, written, hdb]
        exact conflictingModifier_ne_nil
    | some d' =>
      have hdb : db.next.update c id m =
          (db.next.setDocs c (updateFirst (byId id) d' (db.next.docs c))).setError none := by
        rw [update, hfind]
        simp only [hset]
      refine .inr ⟨rfl, ?_, d', rfl, ?_⟩
      · simp only [updated, written, hdb]
        rfl
      · simp only [updated, written, hdb]
        rfl

/-- An insertion that is reported as an error has changed nothing. -/
theorem docs_of_refused {doc : Document} (h : db.Reliable) (hthrow : db.fault.isThrow = false)
    (herror : (db.afterInsert c doc).lasterror.getD [] ≠ []) :
    (db.afterInsert c doc).docs = db.docs := by
  have hsound := h.fault
  rw [afterInsert] at herror ⊢
  cases hfault : db.fault with
  | throws e => simp [hfault, Fault.isThrow] at hthrow
  | vanished => simp [hfault, Fault.isSound] at hsound
  | error e => rfl
  | none =>
    simp only [hfault, written, insert] at herror ⊢
    split at herror
    case isTrue hold =>
      rw [if_pos hold]
      rfl
    case isFalse => exact absurd rfl herror

/-- If the next operation is an update that is made, the two after it do not throw. -/
def savesWhole (db : Database) : Bool :=
  decide (db.fault ≠ .none) || (!db.next.fault.isThrow && !db.next.next.fault.isThrow)

end Database

/-! ## Saving an item -/

section Items
variable {s : Server} {c : Collection} {m : Modifier} {item : SaveableItem} {d : Document}

theorem ne_nil_of_stored {db : Database} {id : OID} (h : db.stored c id = some d) : d ≠ [] := by
  rintro rfl
  cases Database.documentId_of_stored h

/-- A document that is there is fetched again, unless the search throws. -/
theorem wp_refetch_stored (h : s.database.Reliable)
    (hd : s.database.stored c item.uniqueid = some d) (hne : d ≠ []) :
    wp (SaveableItem.refetch c)
      (fun _ q => OnlyDatabase s q.2 ∧ q.2.database.docs = s.database.docs ∧
        q.1 = { item with rawdata := d })
      (fun _ q => OnlyDatabase s q.2 ∧ q.2.database.docs = s.database.docs ∧ q.1 = item ∧
        (item.uniqueid.isSet = true → s.database.fault.isThrow = true)) (item, s) := by
  rw [SaveableItem.refetch, wp_bind, wp_self, wp_bind, wp_raiseIf]
  split
  case isTrue hunset => exact ⟨⟨_, _, rfl⟩, rfl, rfl, fun hset => by simp [hset] at hunset⟩
  case isFalse hset =>
  rw [wp_bind, wp_shared, wp_findOne]
  refine ⟨fun exn hexn => ⟨⟨_, _, rfl⟩, rfl, rfl, fun _ => by simp [hexn, Fault.isThrow]⟩,
    fun hthrow => ?_⟩
  have hfound : s.database.found c (byId item.uniqueid) = d := by
    rw [h.found, if_neg (by simp [hthrow])]
    exact congrArg (·.getD []) hd
  rw [hfound, wp_bind, wp_assign, when_false (by simpa using hne), wp_pure]
  refine ⟨⟨_, _, rfl⟩, ?_, rfl⟩
  rw [Server.setDatabase_database, h.afterFind]
  rfl

/-- What a save does to a document that is there. If it throws once the document is rewritten, a
later operation did. -/
theorem wp_saveItem [hm : m.LeavesId] {fetch : Bool} (h : s.database.Reliable)
    (hd : s.database.stored c item.uniqueid = some d) :
    wp (SaveableItem.update c m fetch)
      (fun _ q => OnlyDatabase s q.2 ∧ ∃ d', d.setAll m = some d' ∧
        q.2.database.docs = Documents.rewrite s.database.docs c item.uniqueid d' ∧
        q.1 = if fetch then { item with rawdata := d' } else item)
      (fun _ q => OnlyDatabase s q.2 ∧ q.1 = item ∧ (q.2.database.docs = s.database.docs ∨
        s.database.savesWhole = false ∧ ∃ d', d.setAll m = some d' ∧
          q.2.database.docs = Documents.rewrite s.database.docs c item.uniqueid d')) (item, s) := by
  rw [SaveableItem.update, wp_bind, wp_self, wp_bind, wp_raiseIf]
  split
  case isTrue => exact ⟨⟨_, _, rfl⟩, rfl, .inl rfl⟩
  case isFalse hset =>
  replace hset : item.uniqueid.isSet = true := by simpa using hset
  rw [wp_bind, wp_shared, wp_update]
  refine ⟨fun _ _ => ⟨⟨_, _, rfl⟩, rfl, .inl rfl⟩, fun hthrow => ?_⟩
  rw [wp_bind, wp_shared, wp_getLastError]
  have hfaults : (s.database.afterUpdate c item.uniqueid m).fault = s.database.next.fault := by
    rw [Database.fault, Database.faults_afterUpdate]
    rfl
  rcases Database.afterUpdate_cases (m := m) h hthrow hd with
    ⟨hdocs, herror⟩ | ⟨hfault, hnone, d', hset', hdocs⟩
  · -- nothing is written
    refine ⟨fun _ _ => ⟨⟨_, _, rfl⟩, rfl, .inl hdocs⟩, fun _ => ?_⟩
    rw [wp_bind, wp_raiseIf, if_pos (by simpa using herror)]
    exact ⟨⟨_, _, rfl⟩, rfl, .inl hdocs⟩
  · refine ⟨fun exn hexn => ⟨⟨_, _, rfl⟩, rfl, .inr ⟨?_, d', hset', hdocs⟩⟩, fun _ => ?_⟩
    · have hnext : s.database.next.fault = .throws exn := hfaults ▸ hexn
      simp [Database.savesWhole, hfault, hnext, Fault.isThrow]
    rw [wp_bind, wp_raiseIf, if_neg (by simpa using hnone), wp_when]
    split
    case isFalse hfetch =>
      exact ⟨⟨_, _, rfl⟩, d', hset', hdocs, rfl⟩
    case isTrue hfetch =>
    have hstored : (s.database.afterUpdate c item.uniqueid m).next.stored c item.uniqueid =
        some d' := by
      have hafter : (s.database.afterUpdate c item.uniqueid m).next.docs c =
          Database.updateFirst (byId item.uniqueid) d' (s.database.docs c) := by
        rw [Database.next, hdocs, Documents.rewrite, Function.update_self]
      rw [Database.stored, hafter, Database.find?_updateFirst hd (Database.documentId_setAll hset'),
        if_pos rfl]
    refine wp_mono (wp_refetch_stored (s := s.saved c item.uniqueid m) h.afterUpdate.next hstored
      (ne_nil_of_stored hstored)) (fun _ q hq => ?_) (fun _ q hq => ?_)
    · obtain ⟨⟨db, trace, hq2⟩, hqdocs, hq1⟩ := hq
      exact ⟨⟨db, trace, hq2⟩, d', hset', hqdocs.trans hdocs, hq1⟩
    · obtain ⟨⟨db, trace, hq2⟩, hqdocs, hq1, hthrows⟩ := hq
      refine ⟨⟨db, trace, hq2⟩, hq1, .inr ⟨?_, d', hset', hqdocs.trans hdocs⟩⟩
      have hnext : (s.database.afterUpdate c item.uniqueid m).next.fault =
          s.database.next.next.fault := by
        rw [Database.fault, Database.fault, Database.next, Database.faults_afterUpdate]
        rfl
      have hlast : s.database.next.next.fault.isThrow = true := hnext ▸ hthrows hset
      simp [Database.savesWhole, hfault, hlast]

/-- A document whose id is new comes last. -/
structure Server.Appended (s : Server) (c : Collection) (doc : Document) (t : Server) : Prop where
  fresh : ∀ d ∈ s.database.docs c, documentId d ≠ documentId doc
  docs : t.database.docs c = s.database.docs c ++ [doc]

/-- A document is created for an empty item. Where that throws, the document was inserted or not. -/
theorem wp_createItem_appends {doc : Document} {id : OID} (h : s.database.Reliable)
    (hid : documentId doc = some id) :
    wp (SaveableItem.create c doc true) (fun _ _ => item.rawdata = [])
      (fun _ q => OnlyDatabase s q.2 ∧ (q.2.database.docs c = s.database.docs c ∧ q.1 = item ∨
        s.Appended c doc q.2 ∧ item.rawdata = [] ∧
          (q.1 = item ∨ q.1 = { item with uniqueid := id })))
      (item, s) := by
  rw [SaveableItem.create, wp_bind, wp_self, wp_bind, wp_raiseIf]
  split
  case isTrue => exact ⟨⟨_, _, rfl⟩, .inl ⟨rfl, rfl⟩⟩
  case isFalse hempty =>
  replace hempty : item.rawdata = [] := by simpa [SaveableItem.isEmpty] using hempty
  rw [wp_bind, wp_shared, wp_insert]
  refine ⟨fun _ _ => ⟨⟨_, _, rfl⟩, .inl ⟨rfl, rfl⟩⟩, fun hthrow => ?_⟩
  rw [wp_bind, wp_shared, wp_getLastError]
  by_cases herror : (s.database.afterInsert c doc).lasterror.getD [] = []
  · obtain ⟨hfresh, hdocs⟩ := Database.docs_afterInsert h hthrow herror hid
    have hnew : ∀ t : Server, t.database.docs c = (s.database.afterInsert c doc).docs c →
        s.Appended c doc t := fun t ht => ⟨hid ▸ hfresh, ht.trans hdocs⟩
    refine ⟨fun _ _ => ⟨⟨_, _, rfl⟩, .inr ⟨hnew _ rfl, hempty, .inl rfl⟩⟩, fun _ => ?_⟩
    rw [wp_bind, wp_raiseIf, if_neg (by simpa using herror), wp_bind, hid, orRaise_some, wp_pure,
      wp_bind, wp_assign, when_true rfl]
    have hstored : (s.database.afterInsert c doc).next.stored c id = some doc := by
      rw [Database.stored, Database.next, hdocs]
      exact Database.find?_append_fresh hfresh hid
    have hrefetch := @wp_refetch_stored (((s.issued (.insert c doc)).setDatabase
      (s.database.afterInsert c doc)).setDatabase (s.database.afterInsert c doc).next)
      c { item with uniqueid := id } doc h.afterInsert.next hstored (ne_nil_of_stored hstored)
    refine wp_mono hrefetch (fun _ _ _ => hempty) (fun _ q hq => ?_)
    obtain ⟨⟨db, trace, hserver⟩, hqdocs, hitem, -⟩ := hq
    exact ⟨⟨db, trace, hserver⟩, .inr ⟨hnew _ (congrFun hqdocs c), hempty, .inr hitem⟩⟩
  · have hdocs := Database.docs_of_refused h hthrow herror
    refine ⟨fun _ _ => ⟨⟨_, _, rfl⟩, .inl ⟨congrFun hdocs c, rfl⟩⟩, fun _ => ?_⟩
    rw [wp_bind, wp_raiseIf, if_pos (by simpa using herror)]
    exact ⟨⟨_, _, rfl⟩, .inl ⟨congrFun hdocs c, rfl⟩⟩

end Items
end FreshCity
