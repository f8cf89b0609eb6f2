import FreshCity.Natives

/-!
# The database and `SaveableItem`

An operation is recorded when it is issued, and then meets the next fault. A
write reports nothing by itself: `getLastError` asks afterwards, and is an
operation that can fail on its own after the write took effect.
-/
namespace FreshCity
open Imperative Prog

/-! ## Operations of the client -/

namespace Fault

def isThrow : Fault → Bool
  | throws _ => true
  | _ => false

/-- An exception is thrown where the operation meets it. -/
def meet : Fault → Game Fault
  | throws exn => raise exn
  | fault => pure fault

end Fault

namespace Database

/-- What the next operation runs into. -/
def fault (db : Database) : Fault := db.faults.headD .none

/-- The database once an operation has met its fault. -/
def next (db : Database) : Database := { db with faults := db.faults.tail }

def setDocs (db : Database) (c : Collection) (docs : List Document) : Database :=
  { db with docs := Function.update db.docs c docs }

def setError (db : Database) (e : Option Text) : Database := { db with lasterror := e }

/-- The documents that match are deleted from elsewhere. -/
def vanish (db : Database) (c : Collection) (q : Document → Bool) : Database :=
  db.setDocs c ((db.docs c).filter fun d => !q d)

end Database

def modifyDatabase (f : Database → Database) : Game Unit :=
  modify fun s => { s with database := f s.database }

/-- The next operation meets its fault. -/
def nextFault : Game Fault := do
  let fault ← gets (·.database.fault)
  modifyDatabase Database.next
  fault.meet

/-- Issue an operation. -/
def issue (e : Effect) : Game Fault := do
  emit e
  nextFault

/-- `_id` of a document. -/
def documentId (d : Document) : Option OID := ((d.field? ._id).bind Bson.asOid).map OID.mk

/-- The query `{ _id: id }`. -/
def byId (id : OID) (d : Document) : Bool := documentId d = some id

/-- The query for a text at the end of a path. -/
def byText (path : List Field) (text : Text) (d : Document) : Bool :=
  (d.at? path).bind Bson.asString = some text

/-- `findOne`. The document is empty if there is none. -/
def findOne (c : Collection) (q : Document → Bool) : Game Document := do
  let fault ← issue (.find c)
  when (fault = .vanished) (modifyDatabase fun db => db.vanish c q)
  gets fun s => ((s.database.docs c).find? q).getD []

def duplicateKey : Text := ascii "E11000 duplicate key error"

def conflictingModifier : Text := ascii "LEFT_SUBFIELD only supports Object"

namespace Database

/-- What the server does with an inserted document. -/
def insert (db : Database) (c : Collection) (doc : Document) : Database :=
  if (db.docs c).any fun d => (documentId d).isSome && documentId d = documentId doc then
    db.setError (some duplicateKey)
  else (db.setDocs c (db.docs c ++ [doc])).setError none

/-- Rewrite the first document a query finds. -/
def updateFirst (q : Document → Bool) (doc : Document) : List Document → List Document
  | [] => []
  | d :: ds => if q d then doc :: ds else d :: updateFirst q doc ds

/-- What the server does with `$set`. A document that is not there is not an error. -/
def update (db : Database) (c : Collection) (id : OID) (m : Modifier) : Database :=
  match (db.docs c).find? (byId id) with
  | none => db.setError none
  | some d =>
    match d.setAll m with
    | none => db.setError (some conflictingModifier)
    | some d' => (db.setDocs c (updateFirst (byId id) d' (db.docs c))).setError none

def remove (db : Database) (c : Collection) (id : OID) : Database :=
  (db.vanish c (byId id)).setError none

/-- The outcome of a write that met a fault. -/
def written (db : Database) (write : Database → Database) : Fault → Database
  | .error e => db.setError (some e)
  | _ => write db

/-- The outcome of an update that met a fault. -/
def updated (db : Database) (c : Collection) (id : OID) (m : Modifier) : Fault → Database
  | .vanished => (db.vanish c (byId id)).setError none
  | fault => db.written (fun db => db.update c id m) fault

end Database

def insert (c : Collection) (doc : Document) : Game Unit := do
  let fault ← issue (.insert c doc)
  modifyDatabase fun db => db.written (fun db => db.insert c doc) fault

def update (c : Collection) (id : OID) (m : Modifier) : Game Unit := do
  let fault ← issue (.update c id m)
  modifyDatabase fun db => db.updated c id m fault

def remove (c : Collection) (id : OID) : Game Unit := do
  let fault ← issue (.remove c id)
  modifyDatabase fun db => db.written (fun db => db.remove c id) fault

/-- `getLastError`. The text is empty if the last operation succeeded. -/
def getLastError : Game Text := do
  let _ ← nextFault
  gets fun s => s.database.lasterror.getD []

/-- `FETCH_ALL_FROM_DATABASE`: the body runs once for each document. Asking for the
next one can fail. -/
def fetchAllFromDatabase (c : Collection) (body : Document → Game Unit) : Game Unit := do
  configCollection c
  let _ ← issue (.queryAll c)
  let docs ← gets fun s => s.database.docs c
  forEach (fun doc => do
    let _ ← nextFault
    body doc) docs

/-! ## `SaveableItem` -/

namespace SaveableItem

/-- The constructors that look for a document. -/
def fetch (c : Collection) (q : Document → Bool) : Game SaveableItem := do
  configCollection c
  let raw ← findOne c q
  if raw.isEmpty then pure {} else
    let id ← orRaise .userException (documentId raw)
    pure { rawdata := raw, uniqueid := id }

/-- The constructor that does not look for a document. -/
def unsaved (c : Collection) : Game SaveableItem := do
  configCollection c
  pure {}

def refetch (c : Collection) : Method SaveableItem Unit := do
  let item ← self
  raiseIf (!item.uniqueid.isSet) (.runtimeError .objectDoesntExist)
  let raw ← shared (findOne c (byId item.uniqueid))
  assign fun it => { it with rawdata := raw }
  when raw.isEmpty do
    let e ← shared getLastError
    raise (.runtimeError (.emptyDocument e))

def initData (data : Document) : Method SaveableItem Unit := do
  let item ← self
  raiseIf (!item.isEmpty) (.runtimeError .dataAlreadyExists)
  assign fun it => { it with rawdata := data }
  let id ← orRaise .userException (documentId data)
  assign fun it => { it with uniqueid := id }

def create (c : Collection) (data : Document) (fetch : Bool) : Method SaveableItem Unit := do
  let item ← self
  raiseIf (!item.isEmpty) (.runtimeError .objectAlreadyExists)
  shared (insert c data)
  let e ← shared getLastError
  raiseIf (!e.isEmpty) (.runtimeError (.failedToInsert e))
  let id ← orRaise .userException (documentId data)
  assign fun it => { it with uniqueid := id }
  when fetch (refetch c)

def update (c : Collection) (m : Modifier) (refresh : Bool) : Method SaveableItem Unit := do
  let item ← self
  raiseIf (!item.uniqueid.isSet) (.runtimeError .objectDoesntExist)
  shared (FreshCity.update c item.uniqueid m)
  let e ← shared getLastError
  raiseIf (!e.isEmpty) (.runtimeError (.failedToUpdate e))
  when refresh (refetch c)

def destroy (c : Collection) : Method SaveableItem Unit := do
  let item ← self
  raiseIf (!item.uniqueid.isSet) (.runtimeError .objectDoesntExist)
  shared (FreshCity.remove c item.uniqueid)
  let e ← shared getLastError
  raiseIf (!e.isEmpty) (.runtimeError (.failedToRemove e))
  assign fun _ => {}

end SaveableItem

/-! ## Footprints -/

section Footprints
set_option synthInstance.maxSize 1000
variable {K : List Kind} {c : Collection}

instance {f : Fault} : Stays K f.meet := by
  cases f
  case throws e => exact within_raise e
  all_goals exact within_pure _

section Database
variable [Listed .database K]

instance {f : Database → Database} : Stays K (modifyDatabase f) :=
  stays_modify .database fun _ => ⟨_, rfl⟩

instance : Stays K nextFault := within_bind

theorem stays_issue (k : Kind) [Listed k K] (e : Effect) (h : e.kind = k) : Stays K (issue e) :=
  (stays_emit k e h).bind fun _ => inferInstance

instance {id : OID} {m : Modifier} [Listed (.update c) K] : Stays K (update c id m) :=
  (stays_issue (.update c) _ rfl).bind fun _ => inferInstance

instance {d : Document} [Listed (.insert c) K] : Stays K (insert c d) :=
  (stays_issue (.insert c) _ rfl).bind fun _ => inferInstance

instance {id : OID} [Listed (.remove c) K] : Stays K (remove c id) :=
  (stays_issue (.remove c) _ rfl).bind fun _ => inferInstance

instance : Stays K getLastError := within_bind

variable [Listed .output K]

instance {q : Document → Bool} : Stays K (findOne c q) :=
  (stays_issue .output _ rfl).bind fun _ => inferInstance

instance {body : Document → Game Unit} [hb : ∀ d, Stays K (body d)] :
    Stays K (fetchAllFromDatabase c body) :=
  within_bind (j := fun _ => (stays_issue .output _ rfl).bind fun _ => inferInstance)

instance {q : Document → Bool} : Stays K (SaveableItem.fetch c q) := by
  unfold SaveableItem.fetch; infer_instance

instance : MethodStays K (SaveableItem.refetch c) := by
  unfold SaveableItem.refetch; infer_instance

instance {d : Document} {r : Bool} [Listed (.insert c) K] :
    MethodStays K (SaveableItem.create c d r) := by
  unfold SaveableItem.create; infer_instance

instance {m : Modifier} {r : Bool} [Listed (.update c) K] :
    MethodStays K (SaveableItem.update c m r) := by
  unfold SaveableItem.update; infer_instance

instance [Listed (.remove c) K] : MethodStays K (SaveableItem.destroy c) := by
  unfold SaveableItem.destroy; infer_instance

end Database

instance : Stays K (SaveableItem.unsaved c) := within_bind

instance {d : Document} : MethodStays K (SaveableItem.initData d) := by
  unfold SaveableItem.initData; infer_instance

end Footprints
end FreshCity
