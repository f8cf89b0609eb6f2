import FreshCity.Registration

/-!
# The documents of races

A race is stored as one document with an array of its checkpoints. The encoder is part of
`Racing::Create` and the decoder is `_LoadData`. What the decoder makes of the encoder's document is
the race.
-/
namespace FreshCity
open Imperative Prog

namespace Racing
variable {platform : Platform} {s t : Server} {race fresh : Racing} {cps : List Coordinate3D}
  {p : ℤ}

/-! ## Decoding -/

/-- One element of the array that is stored. -/
def encodeCheckpoint (cp : Coordinate3D) : Bson Field :=
  .object [(.index 0, .number cp.x), (.index 1, .number cp.y), (.index 2, .number cp.z)]

/-- A checkpoint that is decoded goes to the end of the list. -/
theorem loadCheckpoint_encoded {cp : Coordinate3D} : loadCheckpoint (encodeCheckpoint cp) (race, s) =
    .ok () ({ race with checkpoints := race.checkpoints ++ [cp] }, s) := rfl

/-- The whole array goes to the end of the list, in its order. -/
theorem forEach_loadCheckpoint : forEach loadCheckpoint (cps.map encodeCheckpoint) (race, s) =
    .ok () ({ race with checkpoints := race.checkpoints ++ cps }, s) := by
  induction cps generalizing race with
  | nil =>
    rw [List.append_nil]
    rfl
  | cons cp cps ih =>
    have hrest := @ih { race with checkpoints := race.checkpoints ++ [cp] }
    simp only [List.append_assoc, List.singleton_append] at hrest
    exact (bind_ok _ loadCheckpoint_encoded).trans hrest

/-- `_LoadData` reads all members of the encoder's document, and appends to what is there. -/
theorem loadData_document {id creator : OID} {name : Text} {type : ℤ}
    (hraw : fresh.item.rawdata = document id (t.platform.gbkToUTF8 name) creator type cps)
    (hname : t.platform.utf8ToGBK (t.platform.gbkToUTF8 name) = name) :
    loadData (fresh, t) = .ok () ({ fresh with
      raceinfo := { creator := creator, name := name, type := type }
      checkpoints := fresh.checkpoints ++ cps }, t) := by
  have hname' : (fresh.item.rawdata.field? .name).bind Bson.asString =
      some (t.platform.gbkToUTF8 name) := by rw [hraw]; rfl
  have hcreator : (fresh.item.rawdata.field? .creator).bind Bson.asOid = some creator.data := by
    rw [hraw]; rfl
  have htype : readInt (fresh.item.rawdata.field? .type) = some type := by
    rw [hraw]; exact readInt_int type
  have hcps : (fresh.item.rawdata.field? .checkpoint).bind Bson.asArray =
      some (cps.map encodeCheckpoint) := by rw [hraw]; rfl
  have hload := @forEach_loadCheckpoint t { fresh with
    raceinfo := { creator := creator, name := name, type := type } } cps
  simp only [loadData, rethrowAs, check, handle_apply, bind_apply, self, shared, assign, gets_apply,
    modify_apply, hname', hcreator, htype, hcps, orRaise_some, pure_apply, hname]
  rw [hload]

/-! ## Encoding -/

/-- The races that were given to the database, the last first. -/
def submitted (trace : List Effect) : List Document :=
  trace.filterMap fun
    | .insert .racing doc => some doc
    | _ => none

/-- `Racing::Create` gets as far as the database. -/
def submits (race : Racing) : Bool :=
  decide (race.racedata.state = .building) && decide (2 ≤ race.checkpoints.length) &&
    race.item.isEmpty

/-- `_LoadData` of an object that has no checkpoints yet makes the race of the document. -/
def DecodedFrom (race : Racing) (platform : Platform) (doc : Document) : Prop :=
  ∀ (fresh : Racing) (t : Server), t.platform = platform → fresh.item.rawdata = doc →
    fresh.checkpoints = [] → ∃ loaded, loadData (fresh, t) = .ok () (loaded, t) ∧
      loaded.raceinfo = race.raceinfo ∧ loaded.checkpoints = race.checkpoints

theorem decodedFrom_document {id : OID}
    (hname : platform.utf8ToGBK (platform.gbkToUTF8 race.raceinfo.name) = race.raceinfo.name) :
    race.DecodedFrom platform (document id (platform.gbkToUTF8 race.raceinfo.name)
      race.raceinfo.creator race.raceinfo.type race.checkpoints) := by
  rintro fresh t rfl hraw hempty
  refine ⟨_, loadData_document hraw hname, rfl, ?_⟩
  rw [hempty]
  rfl

/-- A created item gives its document to the database, once. -/
theorem wp_createItem_submitted {item : SaveableItem} {doc : Document} :
    wp (SaveableItem.create .racing doc false)
      (fun _ q => item.isEmpty = true ∧ submitted q.2.trace = doc :: submitted s.trace)
      (fun _ q => submitted q.2.trace =
        if item.isEmpty = true then doc :: submitted s.trace else submitted s.trace) (item, s) := by
  simp only [SaveableItem.create, wp_bind, wp_self, wp_raiseIf, wp_shared, wp_insert,
    wp_getLastError, wp_orRaise, wp_assign]
  split
  case isTrue hexists =>
    rw [if_neg (by simpa using hexists)]
  case isFalse hempty =>
    have hempty' : item.isEmpty = true := by simpa using hempty
    rw [if_pos hempty']
    refine ⟨fun _ _ => rfl, fun _ => ⟨fun _ _ => rfl, fun _ => ?_⟩⟩
    split
    · rfl
    · exact ⟨fun _ _ => ⟨hempty', rfl⟩, fun _ => rfl⟩

/-- `Racing::Create` gives the database one document, of which `_LoadData` makes the race, or it
throws before. -/
theorem race_decoded_as_created (race : Racing) (s : Server)
    (hname : s.platform.utf8ToGBK (s.platform.gbkToUTF8 race.raceinfo.name) = race.raceinfo.name) :
    wp Racing.create
      (fun _ q => race.submits = true ∧ ∃ doc, submitted q.2.trace = doc :: submitted s.trace ∧
        race.DecodedFrom s.platform doc)
      (fun _ q => if race.submits = true then
          ∃ doc, submitted q.2.trace = doc :: submitted s.trace ∧ race.DecodedFrom s.platform doc
        else submitted q.2.trace = submitted s.trace) (race, s) := by
  have hdecoded : ∀ id, race.DecodedFrom s.platform (document id
      (s.platform.gbkToUTF8 race.raceinfo.name) race.raceinfo.creator race.raceinfo.type
      race.checkpoints) := fun _ => decodedFrom_document hname
  simp only [create, wp_bind, wp_self, wp_raiseIf, wp_shared, wp_gets, genOID, wp_modify, wp_pure,
    wp_part, wp_assign, submits]
  split
  case isTrue hstate => simp [hstate]
  case isFalse hstate =>
    split
    case isTrue hfew => simp [hfew]
    case isFalse hmany =>
      have hbuilding : race.racedata.state = .building := not_not.mp hstate
      have hlong : 2 ≤ race.checkpoints.length := by omega
      simp only [hbuilding, hlong, decide_true, Bool.true_and]
      refine wp_mono wp_createItem_submitted (fun _ q hq => ?_) (fun _ q hq => ?_)
      · exact ⟨hq.1, _, hq.2, hdecoded _⟩
      · split at hq
        case isTrue hempty =>
          rw [if_pos hempty]
          exact ⟨_, hq, hdecoded _⟩
        case isFalse hexists =>
          rw [if_neg hexists]
          exact hq

end Racing

namespace Demo

/-- A race in the air that is being built, with three checkpoints. -/
def airRace : Racing where
  racedata := { state := .building }
  checkpoints := [⟨1, 2, 3⟩, ⟨4, 5, 6⟩, ⟨1, 2, 3⟩]
  raceinfo := { creator := ⟨42⟩, name := ascii "circuit", type := 1 }

end Demo

/-- The three checkpoints are decoded in their order. -/
theorem air_race_decoded :
    wp Racing.create
      (fun _ q => Demo.airRace.submits = true ∧ ∃ doc,
        Racing.submitted q.2.trace = doc :: Racing.submitted Demo.initial.trace ∧
        Demo.airRace.DecodedFrom Demo.initial.platform doc)
      (fun _ q => if Demo.airRace.submits = true then
          ∃ doc, Racing.submitted q.2.trace = doc :: Racing.submitted Demo.initial.trace ∧
            Demo.airRace.DecodedFrom Demo.initial.platform doc
        else Racing.submitted q.2.trace = Racing.submitted Demo.initial.trace)
      (Demo.airRace, Demo.initial) :=
  Racing.race_decoded_as_created Demo.airRace Demo.initial rfl

end FreshCity
