import FreshCity.Profile

/-!
# Dialogs, pickups and areas

`DialogManager::Show`, and the managers of pickups and areas. An item that its
manager does not take is destroyed with the caller's pointer.
-/
namespace FreshCity
open Imperative Prog

/-! ## `DialogManager::Show` -/

namespace DialogId

/-- The dialogs that have a handler. -/
def isRegistered : DialogId → Bool
  | racingJoin => false
  | _ => true

end DialogId

def showDialog (p : ℤ) (dialog : DialogId) (content : Message) : Game Unit := do
  raiseIf (!dialog.isRegistered) (.runtimeError .unregisteredDialog)
  emit (.showDialog p dialog content)

/-! ## Pickups -/

namespace PickupManager

/-- The constructor of a pickup. -/
def create (disposable : Bool) (cls : PickupClass) : Game EffectiveItem := do
  let id ← createDynamicPickup
  pure { id := id, disposable := disposable, cls := cls }

def destruct (item : EffectiveItem) : Game Unit := destroyDynamicPickup item.id

/-- `PickupManager::Add`. -/
def add (item : EffectiveItem) : Game Bool := do
  let s ← gets id
  if item.id ∈ s.pickups then
    destruct item
    pure false
  else
    modify fun s => { s with pickups := s.pickups.insert item.id item }
    pure true

/-- `ItemManager::Remove`. -/
def remove (id : ℤ) : Game Unit := do
  let member ← gets (·.pickups.lookup id)
  modify fun s => { s with pickups := s.pickups.erase id }
  forEach destruct member.toList

end PickupManager

/-! ## Areas -/

namespace DynamicAreaManager

/-- The constructor of a gang zone's area. -/
def create (zoneid : ℤ) : Game GangZoneArea := do
  let id ← createDynamicRectangle
  pure { id := id, zoneid := zoneid }

def destruct (area : GangZoneArea) : Game Unit := destroyDynamicArea area.id

/-- `DynamicAreaManager::Add`. -/
def add (area : GangZoneArea) : Game Bool := do
  let s ← gets id
  if area.id ∈ s.areas then
    destruct area
    pure false
  else
    modify fun s => { s with areas := s.areas.insert area.id area }
    pure true

/-- `ItemManager::Remove`. -/
def remove (id : ℤ) : Game Unit := do
  let member ← gets (·.areas.lookup id)
  modify fun s => { s with areas := s.areas.erase id }
  forEach destruct member.toList

/-- `DynAreaMgr[id]`. -/
def get (id : ℤ) : Game GangZoneArea := do
  let member ← gets (·.areas.lookup id)
  getItem member

end DynamicAreaManager

/-! ## Footprints -/

section Footprints
variable {K : List Kind} {id : ℤ}

instance {p : ℤ} {d : DialogId} {m : Message} [Listed .output K] : Stays K (showDialog p d m) :=
  within_bind (j := fun _ => stays_emit .output _ rfl)

namespace PickupManager
variable {item : EffectiveItem} [Listed .streamer K]

instance {d : Bool} {c : PickupClass} : Stays K (create d c) := within_bind

instance : Stays K (destruct item) := by unfold destruct; infer_instance

variable [Listed .pickups K]

instance : Stays K (add item) :=
  (within_gets _).bind fun _ => within_ite
    (j := (stays_modify .pickups fun _ => ⟨_, rfl⟩).bind fun _ => within_pure _)

instance : Stays K (remove id) :=
  (within_gets _).bind fun _ => (stays_modify .pickups fun _ => ⟨_, rfl⟩).bind fun _ => inferInstance

end PickupManager

namespace DynamicAreaManager
variable {area : GangZoneArea}

instance : Stays K (get id) := within_bind

variable [Listed .streamer K]

instance {z : ℤ} : Stays K (create z) := within_bind

instance : Stays K (destruct area) := by unfold destruct; infer_instance

variable [Listed .areas K]

instance : Stays K (add area) :=
  (within_gets _).bind fun _ => within_ite
    (j := (stays_modify .areas fun _ => ⟨_, rfl⟩).bind fun _ => within_pure _)

instance : Stays K (remove id) :=
  (within_gets _).bind fun _ => (stays_modify .areas fun _ => ⟨_, rfl⟩).bind fun _ => inferInstance

end DynamicAreaManager
end Footprints
end FreshCity
