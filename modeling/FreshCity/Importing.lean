import FreshCity.ZoneCreation

/-!
# The import of properties

`importprop` reads a file line by line and adds the property of a line before it looks at the next
one. A field that is not there is read past the end of the line, and of a line that is not outdoors
only four fields are looked at.
-/
namespace Imperative.Prog

/-- A run that ends and does not throw returns. -/
theorem ok_of_wp {σ ε α : Type} {x : Prog σ ε α} {Q : α → σ → Prop} {s : σ} (hx : Defined x s)
    (h : wp x Q (fun _ _ => False) s) : ∃ a t, x s = .ok a t ∧ Q a t := by
  cases hrun : x s with
  | ok a t => exact ⟨a, t, rfl, (wp_of_ok hrun).mp h⟩
  | error e t => exact ((wp_of_error hrun).mp h).elim
  | undefined => simp [Defined, hrun] at hx

end Imperative.Prog

namespace FreshCity
open Imperative Prog

/-- What a line says about a property. -/
structure ImportInfo where
  name : Text
  pos : Coordinate3D
  value : ℤ
  profit : ℤ
  deriving DecidableEq

/-- What becomes of a line: a field is read that is not there, a number is refused, nothing is
imported, or a property is. -/
inductive LineFate where
  | past
  | rejected
  | skipped
  | imported (info : ImportInfo)
  deriving DecidableEq

namespace Command

/-! ## Lines -/

/-- A field is read and converted. -/
def readField {α : Type} (platform : Platform) (line : Text) (i : ℕ) (parse : Text → Option α)
    (next : α → LineFate) : LineFate :=
  match (platform.tokenize line)[i]? with
  | none => .past
  | some t => (parse t).elim .rejected next

/-- The fields of a line are read in their order, up to the first that decides. -/
def fate (platform : Platform) (line : Text) : LineFate :=
  readField platform line 0 platform.lexicalCastFloat fun x =>
  readField platform line 1 platform.lexicalCastFloat fun y =>
  readField platform line 2 platform.lexicalCastFloat fun z =>
  readField platform line 3 platform.lexicalCastInt fun interior =>
  if interior ≠ 0 then .skipped else
  readField platform line 4 some fun name =>
  readField platform line 5 platform.lexicalCastInt fun value =>
  readField platform line 6 platform.lexicalCastInt fun profit =>
    .imported ⟨name, ⟨x, y, z⟩, value, profit⟩

/-- All seven fields are there and the numbers among them can be read. -/
def importable (platform : Platform) (line : Text) : Bool :=
  let fields := platform.tokenize line
  decide (7 ≤ fields.length) &&
    [0, 1, 2].all (fun i => (fields[i]?.bind platform.lexicalCastFloat).isSome) &&
    [3, 5, 6].all fun i => (fields[i]?.bind platform.lexicalCastInt).isSome

/-- The property that a line describes, if its interior is 0. -/
def described (platform : Platform) (line : Text) : Option ImportInfo := do
  let fields := platform.tokenize line
  let interior ← fields[3]?.bind platform.lexicalCastInt
  guard (interior = 0)
  let x ← fields[0]?.bind platform.lexicalCastFloat
  let y ← fields[1]?.bind platform.lexicalCastFloat
  let z ← fields[2]?.bind platform.lexicalCastFloat
  let name ← fields[4]?
  let value ← fields[5]?.bind platform.lexicalCastInt
  let profit ← fields[6]?.bind platform.lexicalCastInt
  pure ⟨name, ⟨x, y, z⟩, value, profit⟩

/-- A new property is constructed and added. -/
def addProperty (info : ImportInfo) : Game Unit := do
  let prop ← Property.ofNew info.name info.pos info.profit info.value
  let _ ← PropertyManager.add prop
  pure ()

/-- What is done with a line. -/
def runLine : LineFate → Game Unit
  | .past => undefinedBehaviour
  | .rejected => raise .badLexicalCast
  | .skipped => pure ()
  | .imported info => addProperty info

variable {platform : Platform} {line : Text} {s : Server}

theorem readField_run {α : Type} {i : ℕ} {parse : Text → Option α} {next : α → LineFate} :
    runLine (readField platform line i parse next) = (do
      let t ← tokenAt platform line i
      let a ← orRaise .badLexicalCast (parse t)
      runLine (next a)) := by
  rw [readField, tokenAt]
  cases (platform.tokenize line)[i]? with
  | none => rfl
  | some t =>
    change runLine ((parse t).elim .rejected next) =
      (do let a ← orRaise .badLexicalCast (parse t); runLine (next a))
    cases parse t <;> rfl

/-- A line is treated as its fields say. -/
theorem importLine_eq (line : Text) (s : Server) :
    importLine line s = runLine (fate s.platform line) s := by
  have hinterior : ∀ (interior : ℤ) (next : LineFate),
      runLine (if interior ≠ 0 then .skipped else next) = when (interior = 0) (runLine next) := by
    intro interior next
    by_cases hzero : interior = 0
    · rw [if_neg (not_not.mpr hzero), when_true hzero]
    · rw [if_pos hzero, when_false hzero]
      rfl
  simp only [fate, readField_run, hinterior]
  rfl

/-- A field that is there and can be converted leads on. -/
theorem readField_eq {α : Type} {i : ℕ} {parse : Text → Option α} {next : α → LineFate} {a : α}
    (h : (platform.tokenize line)[i]?.bind parse = some a) :
    readField platform line i parse next = next a := by
  obtain ⟨t, ht, ha⟩ := Option.bind_eq_some_iff.mp h
  rw [readField, ht]
  simp only [ha, Option.elim_some]

/-- A line that can be imported is, if it describes a property. -/
theorem fate_of_importable (h : importable platform line = true) :
    fate platform line = (described platform line).elim .skipped .imported := by
  simp only [importable, List.all_cons, List.all_nil, Bool.and_eq_true, Bool.and_true,
    decide_eq_true_eq, Option.isSome_iff_exists] at h
  obtain ⟨⟨hlength, ⟨x, hx⟩, ⟨y, hy⟩, z, hz⟩, ⟨interior, hinterior⟩, ⟨value, hvalue⟩, profit, hprofit⟩ := h
  have hname : (platform.tokenize line)[4]? = some (platform.tokenize line)[4] :=
    List.getElem?_eq_getElem (by omega)
  have hname' : (platform.tokenize line)[4]?.bind some = some (platform.tokenize line)[4] := by
    rw [hname]; rfl
  rw [fate, readField_eq hx, readField_eq hy, readField_eq hz, readField_eq hinterior]
  by_cases hzero : interior = 0
  · rw [if_neg (not_not.mpr hzero), readField_eq hname', readField_eq hvalue, readField_eq hprofit]
    simp [described, hx, hy, hz, hinterior, hname, hvalue, hprofit, hzero]
  · rw [if_pos hzero]
    simp [described, hinterior, hzero]

/-- The first line that is not skipped is refused because of a number. -/
def rejectsFirst (platform : Platform) (lines : List Text) : Bool :=
  (lines.find? fun line => decide (fate platform line ≠ .skipped)).any fun line =>
    decide (fate platform line = .rejected)

/-- All lines can be imported, or one is refused before anything is imported. -/
def importsWhole (platform : Platform) (lines : List Text) : Bool :=
  lines.all (importable platform) || rejectsFirst platform lines

end Command

/-! ## One property -/

/-- The members of a property that a line describes. -/
structure Property.MadeFrom (prop : Property) (info : ImportInfo) : Prop where
  name : prop.name = info.name
  pos : prop.pos = info.pos
  value : prop.value = info.value
  profit : prop.profit = info.profit

namespace Server

/-- The next object ids. -/
def nextOids (s : Server) (n : ℕ) : List OID :=
  (List.range n).map fun i => (s.env.genoid (s.genoids + i)).val

/-- The database takes what it is given, and so many object ids are new. -/
structure Accepts (s : Server) (n : ℕ) : Prop where
  collection : s.config.collection .property = true
  faults : ∀ f ∈ s.database.faults, f = .none
  distinct : (s.nextOids n).Nodup
  unregistered : ∀ o ∈ s.nextOids n, o ∉ s.properties
  unstored : ∀ o ∈ s.nextOids n, ∀ d ∈ s.database.docs .property, documentId d ≠ some o

/-- What constructing a property leaves alone. -/
structure Unaltered (s t : Server) : Prop where
  platform : t.platform = s.platform
  config : t.config = s.config
  env : t.env = s.env
  faults : ∀ f ∈ t.database.faults, f ∈ s.database.faults

/-- A property is stored and registered with the next object id. -/
structure Added (s t : Server) (prop : Property) : Prop where
  kept : s.Unaltered t
  genoids : t.genoids = s.genoids + 1
  uniqueid : prop.item.uniqueid = (s.env.genoid s.genoids).val
  id : documentId prop.item.rawdata = some prop.item.uniqueid
  properties : t.properties = s.properties.insert prop.item.uniqueid prop
  docs : t.database.docs .property = s.database.docs .property ++ [prop.item.rawdata]

variable {s t : Server} {n : ℕ} {info : ImportInfo} {prop : Property}

theorem nextOids_succ : s.nextOids (n + 1) = (s.env.genoid s.genoids).val ::
    (List.range n).map fun i => (s.env.genoid (s.genoids + 1 + i)).val := by
  rw [nextOids, List.range_succ_eq_map, List.map_cons, List.map_map, Nat.add_zero]
  congr 1
  refine List.map_congr_left fun i _ => ?_
  have hshift : s.genoids + (i + 1) = s.genoids + 1 + i := by omega
  rw [Function.comp_apply, Nat.succ_eq_add_one, hshift]

theorem Accepts.fewer (h : s.Accepts (n + 1)) : s.Accepts n := by
  have hsub : ∀ o ∈ s.nextOids n, o ∈ s.nextOids (n + 1) := by
    intro o ho
    obtain ⟨i, hi, rfl⟩ := List.mem_map.mp ho
    have hlt := List.mem_range.mp hi
    exact List.mem_map_of_mem (List.mem_range.mpr (by omega))
  refine ⟨h.collection, h.faults, ?_, fun o ho => h.unregistered o (hsub o ho),
    fun o ho => h.unstored o (hsub o ho)⟩
  have hnodup := h.distinct
  rw [nextOids, List.range_succ, List.map_append, List.nodup_append] at hnodup
  exact hnodup.1

/-- The other ids are still new. -/
theorem Accepts.added (h : s.Accepts (n + 1)) (ht : s.Added t prop) : t.Accepts n := by
  have hids : s.nextOids (n + 1) = prop.item.uniqueid :: t.nextOids n := by
    rw [nextOids_succ, ht.uniqueid, nextOids, ht.genoids, ht.kept.env]
  have hdistinct := h.distinct
  rw [hids, List.nodup_cons] at hdistinct
  have hne : ∀ o ∈ t.nextOids n, o ≠ prop.item.uniqueid := by
    rintro o ho rfl
    exact hdistinct.1 ho
  have hmem : ∀ o ∈ t.nextOids n, o ∈ s.nextOids (n + 1) := by
    intro o ho
    rw [hids]
    exact List.mem_cons_of_mem _ ho
  constructor
  · rw [ht.kept.config]
    exact h.collection
  · exact fun f hf => h.faults f (ht.kept.faults f hf)
  · exact hdistinct.2
  · intro o ho
    rw [ht.properties, AList.mem_insert, not_or]
    exact ⟨hne o ho, h.unregistered o (hmem o ho)⟩
  · intro o ho d hd
    rw [ht.docs, List.mem_append, List.mem_singleton] at hd
    rcases hd with hd | rfl
    · exact h.unstored o (hmem o ho) d hd
    · rw [ht.id]
      exact fun heq => hne o ho (Option.some.inj heq).symm

end Server

section Creation
open Server
variable {s : Server} {n : ℕ} {info : ImportInfo} {doc : Document} {id : OID}

theorem fault_eq_none {db : Database} (h : ∀ f ∈ db.faults, f = .none) : db.fault = .none := by
  rw [Database.fault]
  cases hfaults : db.faults with
  | nil => rfl
  | cons f faults => exact h f (hfaults ▸ List.mem_cons_self)

/-- A document with a new id is appended. -/
theorem afterInsert_new {db : Database} {c : Collection} (hfaults : ∀ f ∈ db.faults, f = .none)
    (hid : documentId doc = some id) (hnew : ∀ d ∈ db.docs c, documentId d ≠ some id) :
    db.afterInsert c doc = (db.next.setDocs c (db.docs c ++ [doc])).setError none := by
  rw [Database.afterInsert, fault_eq_none hfaults, Database.written, Database.insert, if_neg]
  · rfl
  · rw [Bool.not_eq_true, List.any_eq_false]
    intro d hd
    have hne := hnew d hd
    simp [hid, hne]
  · simp

/-- A database that takes what it is given stores a document with a new id, and finds it. -/
theorem create_returns {db : Database} {c : Collection} (hfaults : ∀ f ∈ db.faults, f = .none)
    (hid : documentId doc = some id) (hset : id.isSet = true)
    (hnew : ∀ d ∈ db.docs c, documentId d ≠ some id) :
    (ItemOp.create doc true).returns c {} db = true := by
  have hafter := afterInsert_new hfaults hid hnew
  have hnext : ∀ f ∈ db.next.faults, f = .none := fun f hf => hfaults f (List.mem_of_mem_tail hf)
  have hnext' : ∀ f ∈ db.next.next.faults, f = .none := fun f hf => hnext f (List.mem_of_mem_tail hf)
  have hrefuses : db.refusesInsert c doc = false := by
    have hfault : (db.afterInsert c doc).fault = .none := by
      rw [hafter]
      exact fault_eq_none hnext
    rw [Database.refusesInsert, fault_eq_none hfaults, hfault, hafter]
    rfl
  have hfound : (db.afterInsert c doc).next.found c (byId id) = doc := by
    have hfault : (db.afterInsert c doc).next.fault = .none := by
      rw [hafter]
      exact fault_eq_none hnext'
    have hdocs : (db.afterInsert c doc).next.next.docs c = db.docs c ++ [doc] := by
      rw [hafter]
      exact Function.update_self ..
    rw [Database.found, Database.afterFind, hfault]
    simp only [Fault.isThrow, Bool.false_eq_true, if_false, reduceCtorEq]
    rw [hdocs, List.find?_append, List.find?_eq_none.mpr]
    · simp [byId, hid]
    · intro d hd
      simpa [byId] using hnew d hd
  have hnonempty : doc ≠ [] := by
    rintro rfl
    cases hid
  rw [ItemOp.returns, ItemOp.accepted, hrefuses]
  simp only [hid, Option.any_some]
  rw [SaveableItem.refetches, hfound]
  simp [SaveableItem.isEmpty, hset, hnonempty]

/-- A document with a new id is stored and read back. -/
theorem create_ok (hfaults : ∀ f ∈ s.database.faults, f = .none) (hid : documentId doc = some id)
    (hset : id.isSet = true) (hnew : ∀ d ∈ s.database.docs .property, documentId d ≠ some id) :
    ∃ db trace, SaveableItem.create .property doc true ({}, s) =
        .ok () ({ rawdata := doc, uniqueid := id }, { s with database := db, trace := trace }) ∧
      db.docs .property = s.database.docs .property ++ [doc] ∧
      ∀ f ∈ db.faults, f ∈ s.database.faults := by
  have hreturns : (ItemOp.create doc true).returns .property {} s.database = true :=
    create_returns hfaults hid hset hnew
  have hreliable : s.database.Reliable := by
    intro f hf
    rw [hfaults f hf]
    rfl
  have hwp : wp (SaveableItem.create .property doc true) (fun _ q => ∃ db trace,
      q = ({ rawdata := doc, uniqueid := id }, { s with database := db, trace := trace }) ∧
        db.docs .property = s.database.docs .property ++ [doc] ∧
        ∀ f ∈ db.faults, f ∈ s.database.faults) (fun _ _ => False) ({}, s) := by
    refine wp_mono (wp_and (wp_createRead hreliable) (wp_and (wp_createItem hreliable) create_leaves))
      (fun _ q hq => ?_) (fun _ q hq => ?_)
    · obtain ⟨⟨rawdata, uniqueid⟩, t⟩ := q
      obtain ⟨⟨trace, rfl⟩, ⟨-, hholds⟩, -⟩ := hq
      obtain rfl : rawdata = doc := hholds.rawdata
      obtain rfl : id = uniqueid := Option.some.inj (hid.symm.trans hholds.id)
      refine ⟨_, trace, rfl, hholds.docs, fun f hf => ?_⟩
      have hf' : f ∈ (s.database.afterInsert .property rawdata).faults.tail.tail := hf
      rw [Database.faults_afterInsert] at hf'
      exact List.mem_of_mem_tail (List.mem_of_mem_tail (List.mem_of_mem_tail hf'))
    · have hthrown : (ItemOp.create doc true).returns .property {} s.database = false := hq.2.2.1
      cases hthrown.symm.trans hreturns
  obtain ⟨_, _, hrun, db, trace, rfl, hdocs, hfaults'⟩ := ok_of_wp (Total.defined _) hwp
  exact ⟨db, trace, hrun, hdocs, hfaults'⟩

/-- `_LoadData` of a property reads all members of its first document. -/
theorem loadData_document {prop : Property} {name : Text} {pos : Coordinate3D} {profit value now : ℤ}
    (hraw : prop.item.rawdata = Property.document id (s.platform.gbkToUTF8 name) pos profit value now)
    (hname : s.platform.utf8ToGBK (s.platform.gbkToUTF8 name) = name) :
    Property.loadData (prop, s) = .ok () ({ prop with
      owner := OID.unset, name := name, value := value, profit := profit, lastdraw := now, pos := pos },
      s) := by
  have hxy : (prop.item.rawdata.field? .xy).bind Bson.asArray = some [.number pos.x, .number pos.y] := by
    rw [hraw]; rfl
  have howner : (prop.item.rawdata.field? .owner).bind Bson.asOid = some OID.unset.data := by
    rw [hraw]; rfl
  have hname' : (prop.item.rawdata.field? .name).bind Bson.asString =
      some (s.platform.gbkToUTF8 name) := by rw [hraw]; rfl
  have hvalue : readInt (prop.item.rawdata.field? .value) = some value := by
    rw [hraw]; exact readInt_int value
  have hprofit : readInt (prop.item.rawdata.field? .profit) = some profit := by
    rw [hraw]; exact readInt_int profit
  have hlastdraw : readInt (prop.item.rawdata.field? .lastdraw) = some now := by
    rw [hraw]; exact readInt_int now
  have hz : (prop.item.rawdata.field? .z).bind Bson.asNumber = some pos.z := by rw [hraw]; rfl
  simp only [Property.loadData, Property.loadPos, elementAt, rethrowAs, check, handle_apply,
    bind_apply, self, shared, assign, gets_apply, modify_apply, hxy, howner, hname', hvalue, hprofit,
    hlastdraw, hz, orRaise_some, orUndefined_some, pure_apply, hname, List.getElem?_cons_zero,
    List.getElem?_cons_succ, Bson.asNumber]

/-- The first marker of a property is put up, and nothing else is done. -/
theorem reloadMarker_ok {prop : Property} (hpickup : prop.pickupid = 0) (hicon : prop.mapicon = none) :
    ∃ pickupid mapicon pickups streamer, Property.reloadMarker (prop, s) =
      .ok () ({ prop with pickupid := pickupid, mapicon := mapicon },
        { s with pickups := pickups, streamer := streamer }) := by
  have hwp : wp Property.reloadMarker (fun _ q => ∃ pickupid mapicon pickups streamer,
      q = ({ prop with pickupid := pickupid, mapicon := mapicon },
        { s with pickups := pickups, streamer := streamer })) (fun _ _ => False) (prop, s) := by
    simp only [Property.reloadMarker, PickupManager.create, PickupManager.add, PickupManager.destruct,
      createDynamicPickup, destroyDynamicPickup, createDynamicMapIcon, wp_bind, wp_self, wp_shared,
      wp_gets, wp_modify, wp_pure, wp_assign, wp_when, hpickup, hicon, Option.toList_none, forEach,
      ne_eq, not_true_eq_false, if_false, wp_ite]
    split <;> exact ⟨_, _, _, _, rfl⟩
  obtain ⟨_, _, hrun, pickupid, mapicon, pickups, streamer, rfl⟩ := ok_of_wp (Total.defined _) hwp
  exact ⟨pickupid, mapicon, pickups, streamer, hrun⟩

/-- The parts of the constructor, one after the other. -/
theorem ofNew_ok {t u : Server} {name : Text} {pos : Coordinate3D} {profit value : ℤ}
    {item : SaveableItem} {prop prop' : Property} (hcollection : s.config.collection .property = true)
    (hcreate : SaveableItem.create .property (Property.document (s.env.genoid s.genoids).val
      (s.platform.gbkToUTF8 name) pos profit value s.env.time) true
      ({}, { s with genoids := s.genoids + 1 }) = .ok () (item, t))
    (hload : Property.loadData ({ item := item }, t) = .ok () (prop, t))
    (hreload : Property.reloadMarker (prop, t) = .ok () (prop', u)) :
    Property.ofNew name pos profit value s = .ok prop' u := by
  have hlocal : withLocal { item := {} } (do
      let id ← shared genOID
      part (·.item) (fun it (q : Property) => { q with item := it }) (SaveableItem.create .property
        (Property.document id (s.platform.gbkToUTF8 name) pos profit value s.env.time) true)
      Property.loadData
      Property.reloadMarker) s = .ok ((), prop') u := by
    simp only [withLocal, genOID, shared, part, bind_apply, gets_apply, modify_apply, pure_apply,
      hcreate, hload, hreload]
  rw [Property.ofNew, SaveableItem.unsaved, configCollection]
  simp only [bind_apply, gets_apply, hcollection, raiseIf, Bool.not_true, Bool.false_eq_true, if_false,
    pure_apply]
  exact bind_ok s hlocal

/-- A property is registered under a free id. -/
theorem add_ok {prop : Property} (hfree : prop.item.uniqueid ∉ s.properties) :
    PropertyManager.add prop s =
      .ok true { s with properties := s.properties.insert prop.item.uniqueid prop } := by
  have hbody : PropertyManager.add prop s = (if prop.item.uniqueid ∈ s.properties then (do
      prop.destruct
      pure false) else (do
      modify fun s : Server => { s with properties := s.properties.insert prop.item.uniqueid prop }
      pure true)) s := rfl
  rw [hbody, if_neg hfree]
  rfl

/-- A property is constructed and added. -/
theorem addProperty_ok (h : s.Accepts (n + 1))
    (hname : s.platform.utf8ToGBK (s.platform.gbkToUTF8 info.name) = info.name) :
    ∃ t prop, Command.addProperty info s = .ok () t ∧ s.Added t prop ∧ prop.MadeFrom info := by
  let id := (s.env.genoid s.genoids).val
  let doc := Property.document id (s.platform.gbkToUTF8 info.name) info.pos info.profit info.value
    s.env.time
  have hid : documentId doc = some id := rfl
  have hmem : id ∈ s.nextOids (n + 1) := by
    rw [nextOids_succ]
    exact List.mem_cons_self
  have hset : id.isSet = true := (s.env.genoid s.genoids).property
  obtain ⟨db, trace, hcreate, hdocs, hfaults⟩ :=
    create_ok (s := { s with genoids := s.genoids + 1 }) h.faults hid hset (h.unstored id hmem)
  let t : Server := { s with genoids := s.genoids + 1, database := db, trace := trace }
  let prop : Property := { item := { rawdata := doc, uniqueid := id } }
  let loaded : Property := { prop with
    name := info.name, value := info.value, profit := info.profit, lastdraw := s.env.time, pos := info.pos }
  have hraw : prop.item.rawdata = doc := rfl
  have hload : Property.loadData (prop, t) = .ok () (loaded, t) := loadData_document hraw hname
  have hpickup : loaded.pickupid = 0 := rfl
  obtain ⟨pickupid, mapicon, pickups, streamer, hreload⟩ := reloadMarker_ok (s := t) hpickup rfl
  let shown : Property := { loaded with pickupid := pickupid, mapicon := mapicon }
  let u : Server := { t with pickups := pickups, streamer := streamer }
  have hnew : Property.ofNew info.name info.pos info.profit info.value s = .ok shown u :=
    ofNew_ok h.collection hcreate hload hreload
  have hfree : shown.item.uniqueid ∉ u.properties := h.unregistered id hmem
  let v : Server := { u with properties := u.properties.insert shown.item.uniqueid shown }
  have hadded : s.Added v shown := ⟨⟨rfl, rfl, rfl, hfaults⟩, rfl, rfl, hid, rfl, hdocs⟩
  refine ⟨v, shown, ?_, hadded, ⟨rfl, rfl, rfl, rfl⟩⟩
  exact (bind_ok s hnew).trans (bind_ok u (add_ok hfree))

end Creation

/-! ## Files -/

namespace Server

/-- Properties with these members are stored and registered, in this order and under new ids. -/
def AddedAll (s t : Server) (infos : List ImportInfo) : Prop :=
  ∃ props : List Property, List.Forall₂ Property.MadeFrom props infos ∧
    (props.map (·.item.uniqueid)).Nodup ∧ (∀ prop ∈ props, prop.item.uniqueid ∉ s.properties) ∧
    t.properties = props.foldl (fun m prop => m.insert prop.item.uniqueid prop) s.properties ∧
    t.database.docs .property = s.database.docs .property ++ props.map (·.item.rawdata)

variable {s t u : Server} {info : ImportInfo} {infos : List ImportInfo} {prop : Property}

theorem AddedAll.nil : s.AddedAll s [] :=
  ⟨[], .nil, List.nodup_nil, nofun, rfl, by simp⟩

/-- One property and then the others. -/
theorem Added.cons (h : s.Added t prop) (hfree : prop.item.uniqueid ∉ s.properties)
    (hshows : prop.MadeFrom info) (hrest : t.AddedAll u infos) : s.AddedAll u (info :: infos) := by
  obtain ⟨props, hprops, hnodup, hnew, hproperties, hdocs⟩ := hrest
  have hnew' : ∀ q ∈ props, q.item.uniqueid ≠ prop.item.uniqueid ∧ q.item.uniqueid ∉ s.properties := by
    intro q hq
    have habsent := hnew q hq
    rw [h.properties, AList.mem_insert, not_or] at habsent
    exact habsent
  refine ⟨prop :: props, .cons hshows hprops, ?_, ?_, ?_, ?_⟩
  · rw [List.map_cons, List.nodup_cons]
    refine ⟨fun hmem => ?_, hnodup⟩
    obtain ⟨q, hq, heq⟩ := List.mem_map.mp hmem
    exact (hnew' q hq).1 heq
  · intro q hq
    rcases List.mem_cons.mp hq with rfl | hq
    · exact hfree
    · exact (hnew' q hq).2
  · rw [hproperties, List.foldl_cons, h.properties]
  · rw [hdocs, h.docs, List.append_assoc]
    rfl

end Server

namespace Command
open Server
variable {platform : Platform} {s : Server} {line : Text} {lines : List Text} {info : ImportInfo}
  {o : OID}

/-- A field leads to an import only if it is there and can be converted. -/
theorem readField_imported {α : Type} {i : ℕ} {parse : Text → Option α} {next : α → LineFate}
    (h : readField platform line i parse next = .imported info) :
    ∃ t a, (platform.tokenize line)[i]? = some t ∧ parse t = some a ∧ next a = .imported info := by
  rw [readField] at h
  cases ht : (platform.tokenize line)[i]? with
  | none =>
    rw [ht] at h
    cases h
  | some t =>
    rw [ht] at h
    cases ha : parse t with
    | none => simp [ha] at h
    | some a => exact ⟨t, a, rfl, ha, by simpa [ha] using h⟩

/-- The name of a property that is imported is the fifth field. -/
theorem name_of_imported (h : fate platform line = .imported info) :
    (platform.tokenize line)[4]? = some info.name := by
  obtain ⟨_, x, -, -, h⟩ := readField_imported h
  obtain ⟨_, y, -, -, h⟩ := readField_imported h
  obtain ⟨_, z, -, -, h⟩ := readField_imported h
  obtain ⟨_, interior, -, -, h⟩ := readField_imported h
  split at h
  · cases h
  · obtain ⟨t, name, ht, hname, h⟩ := readField_imported h
    obtain ⟨_, value, -, -, h⟩ := readField_imported h
    obtain ⟨_, profit, -, -, h⟩ := readField_imported h
    obtain rfl := LineFate.imported.inj h
    exact ht.trans hname

/-- A registered property stays when a line is read. -/
theorem wp_importLine_keeps (ho : o ∈ s.properties) :
    wp (importLine line) (fun _ t => o ∈ t.properties) (fun _ t => o ∈ t.properties) s := by
  rw [wp, importLine_eq]
  change wp (runLine (fate s.platform line)) _ _ s
  cases fate s.platform line with
  | past => trivial
  | rejected => exact ho
  | skipped => exact ho
  | imported info =>
    have hframe : ∀ {K : List Kind} {α : Type} {x : Game α} (_ : Stays K x) (_ : Kind.properties ∉ K)
        {u : Server}, o ∈ u.properties → wp x (fun _ t => o ∈ t.properties) (fun _ t => o ∈ t.properties) u := by
      intro K α x hstay hK u hu
      refine hstay.invariant (fun k hk a b hab ha => ?_) hu
      rw [(Kind.frame hab).properties (by rintro rfl; exact hK hk)]
      exact ha
    have hnew : Stays [.output, .database, .counters, .streamer, .pickups, .insert .property]
        (Property.ofNew info.name info.pos info.profit info.value) := inferInstance
    rw [runLine, addProperty, wp_bind]
    refine wp_mono (hframe hnew (by simp) ho) (fun prop u hu => ?_) (fun _ _ ht => ht)
    have hdestruct : Stays [.streamer, .pickups] prop.destruct := inferInstance
    rw [wp_bind, PropertyManager.add, wp_bind, wp_gets, wp_ite]
    split
    · rw [wp_bind]
      exact hframe hdestruct (by simp) hu
    · exact (AList.mem_insert _).mpr (.inr hu)

/-- Lines that can be imported are, one after the other. -/
theorem forEach_importLine_ok (hplatform : s.platform = platform)
    (hall : ∀ line ∈ lines, importable platform line = true) (h : s.Accepts lines.length)
    (hnames : ∀ line ∈ lines, ∀ name ∈ (platform.tokenize line)[4]?,
      platform.utf8ToGBK (platform.gbkToUTF8 name) = name) :
    ∃ t, forEach importLine lines s = .ok () t ∧ s.AddedAll t (lines.filterMap (described platform)) := by
  induction lines generalizing s with
  | nil => exact ⟨s, rfl, .nil⟩
  | cons line lines ih =>
    have hfate := fate_of_importable (hall line List.mem_cons_self)
    have hall' : ∀ line ∈ lines, importable platform line = true :=
      fun l hl => hall l (List.mem_cons_of_mem _ hl)
    have hnames' := fun l (hl : l ∈ lines) => hnames l (List.mem_cons_of_mem _ hl)
    cases hdescribed : described platform line with
    | none =>
      rw [hdescribed] at hfate
      have hskip : importLine line s = .ok () s := by
        rw [importLine_eq, hplatform, hfate]
        rfl
      obtain ⟨t, ht, hadded⟩ := ih hplatform hall' h.fewer hnames'
      refine ⟨t, (bind_ok s hskip).trans ht, ?_⟩
      rwa [List.filterMap_cons_none hdescribed]
    | some info =>
      rw [hdescribed] at hfate
      have hname := hnames line List.mem_cons_self info.name (name_of_imported hfate)
      obtain ⟨t, prop, hadd, hadded, hshows⟩ := addProperty_ok h (hplatform ▸ hname)
      have hline : importLine line s = .ok () t := by
        rw [importLine_eq, hplatform, hfate]
        exact hadd
      have hfree : prop.item.uniqueid ∉ s.properties := by
        refine h.unregistered _ ?_
        rw [List.length_cons, nextOids_succ, hadded.uniqueid]
        exact List.mem_cons_self
      obtain ⟨u, hu, hrest⟩ :=
        ih (hadded.kept.platform.trans hplatform) hall' (h.added hadded) hnames'
      refine ⟨u, (bind_ok s hline).trans hu, ?_⟩
      rw [List.filterMap_cons_some hdescribed]
      exact hadded.cons hfree hshows hrest

/-- A file is refused as a whole exactly if a number is refused before anything is imported. -/
theorem forEach_importLine_fails_iff (hplatform : s.platform = platform)
    (h : s.Accepts lines.length) (hnames : ∀ line ∈ lines, ∀ name ∈ (platform.tokenize line)[4]?,
      platform.utf8ToGBK (platform.gbkToUTF8 name) = name) :
    (∃ e t, forEach importLine lines s = .error e t ∧ t.properties = s.properties ∧
      t.database.docs = s.database.docs) ↔ rejectsFirst platform lines = true := by
  induction lines generalizing s with
  | nil => simp [forEach, rejectsFirst]
  | cons line lines ih =>
    have hrun : forEach importLine (line :: lines) s =
        (runLine (fate platform line) >>= fun _ => forEach importLine lines) s := by
      rw [forEach, bind_apply, bind_apply, importLine_eq, hplatform]
    rw [hrun]
    cases hfate : fate platform line with
    | past =>
      refine iff_of_false ?_ (by simp [rejectsFirst, hfate])
      rintro ⟨e, t, ht, -⟩
      cases ht
    | rejected => exact iff_of_true ⟨_, s, rfl, rfl, rfl⟩ (by simp [rejectsFirst, hfate])
    | skipped =>
      have hrest : rejectsFirst platform (line :: lines) = rejectsFirst platform lines := by
        simp [rejectsFirst, hfate]
      rw [hrest]
      exact ih hplatform h.fewer fun l hl => hnames l (List.mem_cons_of_mem _ hl)
    | imported info =>
      refine iff_of_false ?_ (by simp [rejectsFirst, hfate])
      rintro ⟨e, u, hu, hsame, -⟩
      have hname := hnames line List.mem_cons_self info.name (name_of_imported hfate)
      obtain ⟨t, prop, hadd, hadded, -⟩ := addProperty_ok h (hplatform ▸ hname)
      have hfree : prop.item.uniqueid ∉ s.properties := by
        refine h.unregistered _ ?_
        rw [List.length_cons, nextOids_succ, hadded.uniqueid]
        exact List.mem_cons_self
      have hmem : prop.item.uniqueid ∈ t.properties := by
        rw [hadded.properties]
        exact (AList.mem_insert _).mpr (.inl rfl)
      have hrun' : forEach importLine lines t = .error e u := (bind_ok s hadd).symm.trans hu
      have hkeeps := wp_forEach (I := fun t : Server => prop.item.uniqueid ∈ t.properties)
        (J := fun _ (t : Server) => prop.item.uniqueid ∈ t.properties) (f := importLine) lines hmem
        fun _ _ _ ht => wp_importLine_keeps ht
      have hstays : prop.item.uniqueid ∈ u.properties := (wp_of_error hrun').mp hkeeps
      exact hfree (hsame ▸ hstays)

/-- If some line cannot be imported then the command throws, and no property was added. Otherwise it
adds the properties that the lines describe. -/
def ImportsAllOrNone (s : Server) (cmdline : Text) (lines : List Text) : Prop :=
  if lines.all (importable s.platform) = true then
    ∃ t, importProperty cmdline s = .ok () t ∧ s.AddedAll t (lines.filterMap (described s.platform))
  else ∃ e t, importProperty cmdline s = .error e t ∧ t.properties = s.properties ∧
    t.database.docs = s.database.docs

end Command

/-- An import is done as a whole or not at all exactly if all lines can be imported or one of them is
refused for a number in a field that is there, before anything is imported. -/
theorem import_whole_iff (s : Server) (cmdline : Text) (lines : List Text)
    (hfile : s.env.file cmdline = some lines) (haccepts : s.Accepts lines.length)
    (hnames : ∀ line ∈ lines, ∀ name ∈ (s.platform.tokenize line)[4]?,
      s.platform.utf8ToGBK (s.platform.gbkToUTF8 name) = name) :
    Command.ImportsAllOrNone s cmdline lines ↔ Command.importsWhole s.platform lines = true := by
  have hrun : Command.importProperty cmdline s = forEach Command.importLine lines s := by
    rw [Command.importProperty, bind_apply, gets_apply]
    simp only [hfile]
    rfl
  rw [Command.ImportsAllOrNone, hrun, Command.importsWhole, Bool.or_eq_true]
  split
  case isTrue hall =>
    rw [List.all_eq_true] at hall
    exact iff_of_true (Command.forEach_importLine_ok rfl hall haccepts hnames)
      (.inl (List.all_eq_true.mpr hall))
  case isFalse hbad =>
    rw [Command.forEach_importLine_fails_iff rfl haccepts hnames, or_iff_right hbad]

namespace Demo

/-- A shop outdoors. -/
def shopLine : Text := ascii "10.5,-20,3,0,shop,5000,120"

/-- A flat with an interior. -/
def flatLine : Text := ascii "1,2,3,4,flat,100,1"

/-- A line whose value is no number. -/
def brokenLine : Text := ascii "1,2,3,0,kiosk,cheap,1"

/-- A server where a file can be read, and the next object ids differ. -/
def importing (lines : List Text) : Server :=
  { initial with env := { env with
      genoid := fun n => if n = 0 then ⟨⟨51⟩, by decide⟩ else if n = 1 then ⟨⟨52⟩, by decide⟩
        else ⟨⟨53⟩, by decide⟩
      file := fun _ => some lines } }

theorem importing_accepts (lines : List Text) : (importing lines).Accepts 3 where
  collection := rfl
  faults _ hf := absurd hf List.not_mem_nil
  distinct := by
    have hids : (importing lines).nextOids 3 = [⟨51⟩, ⟨52⟩, ⟨53⟩] := rfl
    rw [hids]
    decide
  unregistered _ _ := AList.notMem_empty _
  unstored _ _ _ hd := absurd hd List.not_mem_nil

end Demo

/-- Two shops are imported, and a flat is not. -/
theorem shops_imported :
    Command.ImportsAllOrNone (Demo.importing [Demo.shopLine, Demo.flatLine, Demo.shopLine]) []
      [Demo.shopLine, Demo.flatLine, Demo.shopLine] :=
  (import_whole_iff _ [] _ rfl (Demo.importing_accepts _) (fun _ _ _ _ => rfl)).mpr
    (by decide +kernel)

/-- A property is added, and then the next line is refused. -/
theorem broken_line_imported_late :
    ¬∀ (s : Server) (cmdline : Text) (lines : List Text), s.env.file cmdline = some lines →
      s.Accepts lines.length → (∀ line ∈ lines, ∀ name ∈ (s.platform.tokenize line)[4]?,
        s.platform.utf8ToGBK (s.platform.gbkToUTF8 name) = name) →
      Command.ImportsAllOrNone s cmdline lines := by
  intro hall
  have hwhole := hall (Demo.importing [Demo.shopLine, Demo.brokenLine]) []
    [Demo.shopLine, Demo.brokenLine] rfl (Demo.importing_accepts _).fewer (fun _ _ _ _ => rfl)
  rw [Command.ImportsAllOrNone, if_neg (by decide +kernel)] at hwhole
  obtain ⟨e, t, ht, hsame, -⟩ := hwhole
  have hadded : (Command.importProperty []
      (Demo.importing [Demo.shopLine, Demo.brokenLine])).state?.any
        (fun t => t.properties.keys.isEmpty) = false := by decide +kernel
  rw [ht, Outcome.state?_error, Option.any_some, hsame] at hadded
  cases hadded

end FreshCity
