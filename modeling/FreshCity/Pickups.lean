import FreshCity.GangZone
import FreshCity.Property
import FreshCity.Roles

/-!
# The effects of pickups
-/
namespace FreshCity
open Imperative Prog

/-- What both property markers do before they show a dialog. Looking again within
five seconds does nothing. -/
def viewProperty (o : OID) (p : ℤ) (show_ : Property → Game Unit) : Game Unit := do
  let now ← gets (·.env.time)
  let pr ← Profile.ref p
  let recent := pr.pvars.propertyLastviewtime.any fun t => decide (now - t < 5)
  when (!recent) do
    Profile.setVar p .propertyLastviewtime fun v => { v with propertyLastviewtime := some now }
    Profile.setVar p .propertyLastviewed fun v => { v with propertyLastviewed := some o }
    let prop ← propertyMgr o
    show_ prop

namespace PickupClass

/-- `TurfWarTrigger::Effect`. -/
def triggerTurfWar (z p : ℤ) : Game Unit := do
  let zone ← gangZoneMgr z
  let pr ← Profile.ref p
  when (pr.team ≠ zone.owner) do
    let team ← teamMgr zone.owner
    if !team.hasOnlineMember then sendClientMessage p .ownerTeamOffline
    else do
      let _ ← GangZoneItem.startWar z p
      pure ()

/-- `PropertyMarker_OnSale::Effect`. -/
def viewOnSale (o : OID) (p : ℤ) : Game Unit := viewProperty o p fun prop =>
  showDialog p .propertyOnSale (.propertyOnSale prop.name prop.value prop.profit)

/-- `PropertyMarker_Sold::Effect`. -/
def viewSold (o : OID) (p : ℤ) : Game Unit := viewProperty o p fun prop => do
  let pr ← Profile.ref p
  if prop.owner = pr.item.uniqueid then
    showDialog p .propertySold (.propertyOwned prop.name prop.value prop.profit)
  else showDialog p .propertyInfo (.propertyInfo prop.name prop.value prop.profit)

/-- `Effect`. -/
def effect (p : ℤ) : PickupClass → Game Unit
  | medical health => do
    Profile.giveHealth p health
    Profile.playSound p 5201
  | wealth money score => do
    Profile.giveMoney p money
    Profile.giveScore p score
    Profile.playSound p 5201
  | weapon weaponid ammo => do
    native (.givePlayerWeapon p weaponid ammo)
    Profile.playSound p 5201
  | turfWarTrigger z => triggerTurfWar z p
  | teleportTrigger waypoint => do
    let target ← Waypoint.ofId waypoint
    target.performTeleport p
  | propertyMarkerOnSale o => viewOnSale o p
  | propertyMarkerSold o => viewSold o p

end PickupClass

/-- `PickupManager::Exec`. -/
def PickupManager.exec (p itemid : ℤ) : Game Unit := do
  let item ← gets (·.pickups.lookup itemid)
  let item ← orRaise (.runtimeError .invalidObjectId) item
  let _ ← profileMgr p
  item.cls.effect p
  when item.disposable (PickupManager.remove itemid)

/-! ## Teleport triggers -/

/-- `CreateTeleportTrigger`. -/
def createTeleportTrigger (waypoint : OID) (pos : Coordinate3D) : Game Unit := do
  configCollection .tptrigger
  insert .tptrigger
    [(.waypoint, .oid waypoint.data),
     (.xy, .array [.number pos.x, .number pos.y]),
     (.z, .number pos.z)]
  let item ← PickupManager.create false (.teleportTrigger waypoint)
  let _ ← PickupManager.add item
  pure ()

/-- `LoadAllTeleportTriggerFromDatabase`. -/
def loadAllTeleportTriggerFromDatabase : Game Unit :=
  fetchAllFromDatabase .tptrigger fun doc => do
    let xy ← check ((doc.field? .xy).bind Bson.asArray)
    let waypoint ← check ((doc.field? .waypoint).bind Bson.asOid)
    let x ← elementAt xy 0
    let _ ← check x.asNumber
    let y ← elementAt xy 1
    let _ ← check y.asNumber
    let _ ← check ((doc.field? .z).bind Bson.asNumber)
    let item ← PickupManager.create false (.teleportTrigger ⟨waypoint⟩)
    let _ ← PickupManager.add item
    pure ()

/-! ## Footprints -/

section Footprints
set_option synthInstance.maxSize 1000
variable {K : List Kind} {z p : ℤ} {o : OID} {c : PickupClass}

section Output
variable [Listed .output K]

section View
variable [Listed (.setVar .propertyLastviewtime) K] [Listed (.setVar .propertyLastviewed) K]
  [Listed .profileVars K]

instance {f : Property → Game Unit} [∀ q, Stays K (f q)] : Stays K (viewProperty o p f) := by
  unfold viewProperty; infer_instance

instance : Stays K (PickupClass.viewOnSale o p) := by unfold PickupClass.viewOnSale; infer_instance

instance : Stays K (PickupClass.viewSold o p) := by unfold PickupClass.viewSold; infer_instance

end View

section Samp
variable [Listed .sampZones K]

section War
variable [Listed .zoneData K] [Listed (.createTimer .zone) K]

instance : Stays K (PickupClass.triggerTurfWar z p) := by
  unfold PickupClass.triggerTurfWar; infer_instance

variable [Listed .samp K] [Listed .profileGame K] [Listed .sampMoney K] [Listed .profileMoney K]
  [Listed .database K]
variable [Listed (.setVar .propertyLastviewtime) K] [Listed (.setVar .propertyLastviewed) K]
  [Listed .profileVars K]

instance : Stays K (c.effect p) := by cases c <;> unfold PickupClass.effect <;> infer_instance

instance [Listed .streamer K] [Listed .pickups K] : Stays K (PickupManager.exec p z) := by
  unfold PickupManager.exec; infer_instance

end War
end Samp

variable [Listed .database K] [Listed .streamer K] [Listed .pickups K]

instance {pos : Coordinate3D} [Listed (.insert .tptrigger) K] :
    Stays K (createTeleportTrigger o pos) := by unfold createTeleportTrigger; infer_instance

instance : Stays K loadAllTeleportTriggerFromDatabase := by
  unfold loadAllTeleportTriggerFromDatabase; infer_instance

end Output
end Footprints
end FreshCity
