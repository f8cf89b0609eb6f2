import FreshCity.Algorithms
import FreshCity.Database

/-!
# Waypoints

A waypoint is read from the database, by title or by id, or made on the spot.
-/
namespace FreshCity
open Imperative Prog

structure Waypoint where
  item : SaveableItem := {}
  waypoint : Coordinate5D

namespace Waypoint

/-- `Waypoint::_LoadData`. -/
def loadData (rawdata : Document) : Game Coordinate5D := rethrowAs .invalidWaypointDocument do
  let coordinate ← check ((rawdata.field? .xy).bind Bson.asArray)
  let x ← elementAt coordinate 0
  let x ← check x.asNumber
  let y ← elementAt coordinate 1
  let y ← check y.asNumber
  let z ← check ((rawdata.field? .z).bind Bson.asNumber)
  let world ← check (readInt (rawdata.field? .world))
  let interior ← check (readInt (rawdata.field? .interior))
  let facing ← check ((rawdata.field? .facing).bind Bson.asNumber)
  pure ⟨x, y, z, world, interior, facing⟩

def ofTitle (title : Text) : Game Waypoint := do
  let platform ← gets (·.platform)
  let item ← SaveableItem.fetch .waypoint (byText [.title] (platform.gbkToUTF8 title))
  let waypoint ← loadData item.rawdata
  pure { item := item, waypoint := waypoint }

def ofId (id : OID) : Game Waypoint := do
  let item ← SaveableItem.fetch .waypoint (byId id)
  let waypoint ← loadData item.rawdata
  pure { item := item, waypoint := waypoint }

def ofTarget (target : Coordinate5D) : Game Waypoint := do
  let item ← SaveableItem.unsaved .waypoint
  pure { item := item, waypoint := target }

def pos (w : Waypoint) : Coordinate3D := ⟨w.waypoint.x, w.waypoint.y, w.waypoint.z⟩

def applyToPlayer (w : Waypoint) (p : ℤ) : Game Unit := do
  native (.setPlayerVirtualWorld p w.waypoint.virtualworld)
  native (.setPlayerInterior p w.waypoint.interior)
  native (.setPlayerPos p w.pos)
  native (.setPlayerFacingAngle p w.waypoint.facingangle)

def applyToVehicle (w : Waypoint) (vid : ℤ) : Game Unit := do
  native (.setVehicleVirtualWorld vid w.waypoint.virtualworld)
  native (.linkVehicleToInterior vid w.waypoint.interior)
  native (.setVehiclePos vid w.pos)

def performTeleport (w : Waypoint) (p : ℤ) : Game Unit := do
  w.applyToPlayer p
  let env ← gets (·.env)
  when (env.seat p = 0) do
    w.applyToVehicle (env.vehicle p)
    native (.putPlayerInVehicle p (env.vehicle p) 0)

/-- The document `Waypoint::Create` inserts. -/
def document (w : Waypoint) (id creator : OID) (title : Text) : Document :=
  [(._id, .oid id.data),
   (.title, .string title),
   (.creator, .oid creator.data),
   (.xy, .array [.number w.waypoint.x, .number w.waypoint.y]),
   (.z, .number w.waypoint.z),
   (.world, .int w.waypoint.virtualworld),
   (.interior, .int w.waypoint.interior),
   (.facing, .number w.waypoint.facingangle)]

/-- `Waypoint::Create`. -/
def create (w : Waypoint) (title : Text) (creator : OID) : Game Waypoint := do
  let platform ← gets (·.platform)
  let id ← genOID
  let doc := w.document id creator (platform.gbkToUTF8 title)
  let (_, item) ← withLocal w.item (SaveableItem.create .waypoint doc false)
  pure { w with item := item }

end Waypoint

/-! ## Footprints -/

section Footprints
set_option synthInstance.maxSize 1000
variable {K : List Kind} {w : Waypoint}

instance {d : Document} : Stays K (Waypoint.loadData d) := by
  unfold Waypoint.loadData; infer_instance

section Natives
variable [Listed .output K]

instance {p : ℤ} : Stays K (w.applyToPlayer p) := by
  unfold Waypoint.applyToPlayer; infer_instance

instance {v : ℤ} : Stays K (w.applyToVehicle v) := by
  unfold Waypoint.applyToVehicle; infer_instance

instance {p : ℤ} : Stays K (w.performTeleport p) := by
  unfold Waypoint.performTeleport; infer_instance

variable [Listed .database K]

instance {title : Text} : Stays K (Waypoint.ofTitle title) := by
  unfold Waypoint.ofTitle; infer_instance

instance {id : OID} : Stays K (Waypoint.ofId id) := by
  unfold Waypoint.ofId; infer_instance

instance {title : Text} {creator : OID} [Listed (.insert .waypoint) K] [Listed .counters K] :
    Stays K (w.create title creator) := by
  unfold Waypoint.create; infer_instance

end Natives

instance {target : Coordinate5D} : Stays K (Waypoint.ofTarget target) := within_bind

end Footprints
end FreshCity
