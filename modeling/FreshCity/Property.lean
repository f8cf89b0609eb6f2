import FreshCity.Items

/-!
# Properties and `PropertyManager`

A property shows a marker that says whether it is on sale. Its owner draws the
profit of whole days, and a sale draws first. What is called a day here and in the
modules about the trade is the unit the code counts by, of 1440 seconds.
-/
namespace FreshCity
open Imperative Prog

/-- `PropertyMgr[o]`. -/
def propertyMgr (o : OID) : Game Property := do
  let member ← gets (·.properties.lookup o)
  getItem member

namespace Property

/-- A property the caller holds a reference to. -/
def ref (o : OID) : Game Property := do
  let member ← gets (·.properties.lookup o)
  orUndefined member

def modifyProperty (o : OID) (g : Property → Property) : Game Unit :=
  modify fun s => { s with properties := s.properties.adjust o g }

/-- A method of the `SaveableItem` a registered property is. -/
def withItem {α : Type} (o : OID) (x : Method SaveableItem α) : Game α :=
  focus (fun s => (s.properties.lookup o).map (·.item))
    (fun it s => { s with properties := s.properties.adjust o fun prop => { prop with item := it } })
    x

/-- A method of a registered property. -/
def withProperty {α : Type} (o : OID) (x : Method Property α) : Game α :=
  focus (fun s => s.properties.lookup o)
    (fun prop s => { s with properties := s.properties.adjust o fun _ => prop }) x

/-- `Property::OnSale`. -/
def onSale (prop : Property) : Bool := !prop.owner.isSet

/-- The last part of `_LoadData`. -/
def loadPos (xy : List (Bson Field)) (z : Option (Bson Field)) : Method Property Unit := do
  let x ← elementAt xy 0
  let x ← check x.asNumber
  assign fun q => { q with pos := { q.pos with x := x } }
  let y ← elementAt xy 1
  let y ← check y.asNumber
  assign fun q => { q with pos := { q.pos with y := y } }
  let z ← check (z.bind Bson.asNumber)
  assign fun q => { q with pos := { q.pos with z := z } }

/-- `Property::_LoadData`. -/
def loadData : Method Property Unit := rethrowAs .invalidPropertyData do
  let prop ← self
  let platform ← shared (gets (·.platform))
  let xy ← check ((prop.item.rawdata.field? .xy).bind Bson.asArray)
  let owner ← check ((prop.item.rawdata.field? .owner).bind Bson.asOid)
  assign fun q => { q with owner := ⟨owner⟩ }
  let name ← check ((prop.item.rawdata.field? .name).bind Bson.asString)
  assign fun q => { q with name := platform.utf8ToGBK name }
  let value ← check (readInt (prop.item.rawdata.field? .value))
  assign fun q => { q with value := value }
  let profit ← check (readInt (prop.item.rawdata.field? .profit))
  assign fun q => { q with profit := profit }
  let lastdraw ← check (readInt (prop.item.rawdata.field? .lastdraw))
  assign fun q => { q with lastdraw := lastdraw }
  loadPos xy (prop.item.rawdata.field? .z)

/-- The marker of a property. -/
def marker (prop : Property) : PickupClass :=
  if prop.owner.isSet then .propertyMarkerSold prop.item.uniqueid
  else .propertyMarkerOnSale prop.item.uniqueid

/-- `Property::_ReloadMarker`. -/
def reloadMarker : Method Property Unit := do
  let prop ← self
  when (prop.pickupid ≠ 0) (shared (PickupManager.remove prop.pickupid))
  let item ← shared (PickupManager.create false prop.marker)
  let icon ← shared createDynamicMapIcon
  assign fun q => { q with mapicon := some icon }
  shared (forEach destroyDynamicMapIcon prop.mapicon.toList)
  assign fun q => { q with pickupid := item.id }
  let _ ← shared (PickupManager.add item)
  pure ()

/-- The constructor that is given the document. -/
def ofData (data : Document) : Game Property := do
  let item ← SaveableItem.unsaved .property
  let (_, item) ← withLocal item (SaveableItem.initData data)
  Prod.snd <$> withLocal { item := item } do
    loadData
    reloadMarker

/-- The document of a new property. -/
def document (id : OID) (name : Text) (pos : Coordinate3D) (profit value now : ℤ) : Document :=
  [(._id, .oid id.data),
   (.name, .string name),
   (.owner, .oid OID.unset.data),
   (.profit, .int profit),
   (.value, .int value),
   (.xy, .array [.number pos.x, .number pos.y]),
   (.z, .number pos.z),
   (.lastdraw, .int now)]

/-- The constructor of a new property. -/
def ofNew (name : Text) (pos : Coordinate3D) (profit value : ℤ) : Game Property := do
  let item ← SaveableItem.unsaved .property
  let platform ← gets (·.platform)
  let now ← gets (·.env.time)
  Prod.snd <$> withLocal { item := item } do
    let id ← shared genOID
    part (·.item) (fun it q => { q with item := it }) (SaveableItem.create .property
      (document id (platform.gbkToUTF8 name) pos profit value now) true)
    loadData
    reloadMarker

/-- The destructor, with that of the map icon. -/
def destruct (prop : Property) : Game Unit := do
  PickupManager.remove prop.pickupid
  forEach destroyDynamicMapIcon prop.mapicon.toList

/-! ## Members -/

/-- `Property::SetName`. -/
def setName (o : OID) (name : Text) : Game Unit := do
  let platform ← gets (·.platform)
  withItem o (SaveableItem.update .property [([.name], .string (platform.gbkToUTF8 name))] false)
  modifyProperty o fun prop => { prop with name := name }

/-- `Property::SetValue`. -/
def setValue (o : OID) (value : ℤ) : Game Unit := do
  withItem o (SaveableItem.update .property [([.value], .int value)] false)
  modifyProperty o fun prop => { prop with value := value }

/-- `Property::SetProfit`. -/
def setProfit (o : OID) (profit : ℤ) : Game Unit := do
  withItem o (SaveableItem.update .property [([.profit], .int profit)] false)
  modifyProperty o fun prop => { prop with profit := profit }

/-- The write of a new owner, in the database and in the property. -/
def writeOwner (o owner : OID) : Game Unit := do
  withItem o (SaveableItem.update .property [([.owner], .oid owner.data)] false)
  modifyProperty o fun prop => { prop with owner := owner }

/-! ## The trade -/

/-- What a draw at a time pays. -/
def earns (platform : Platform) (prop : Property) (now : ℤ) : ℤ :=
  platform.int (platform.int (Int.tdiv (now - prop.lastdraw) 1440) * prop.profit)

/-- `Property::Draw`. -/
def draw (o : OID) (p : ℤ) : Game ℤ := do
  let pr ← Profile.ref p
  let prop ← ref o
  let now ← gets (·.env.time)
  let platform ← gets (·.platform)
  let earns := earns platform prop now
  if pr.item.uniqueid ≠ prop.owner then pure 0
  else if earns = 0 then pure 0
  else
    withItem o (SaveableItem.update .property [([.lastdraw], .int now)] false)
    Profile.giveMoney p earns
    modifyProperty o fun prop => { prop with lastdraw := now }
    pure earns

/-- `Property::Purchase`. -/
def purchase (o : OID) (p : ℤ) : Game Unit := do
  let buyer ← Profile.ref p
  let prop ← ref o
  let platform ← gets (·.platform)
  raiseIf (!prop.onSale) (.runtimeError .notOnSale)
  raiseIf (buyer.gamedata.money < prop.value) (.runtimeError .notEnoughMoney)
  writeOwner o buyer.item.uniqueid
  Profile.giveMoney p (platform.int (prop.value * -1))
  withProperty o reloadMarker

/-- `Property::Sell`. -/
def sell (o : OID) (p : ℤ) : Game Unit := do
  let seller ← Profile.ref p
  let prop ← ref o
  raiseIf prop.onSale (.runtimeError .alreadyOnSale)
  raiseIf (seller.item.uniqueid ≠ prop.owner) (.runtimeError .notTheOwner)
  let _ ← draw o p
  writeOwner o OID.unset
  Profile.giveMoney p prop.value
  withProperty o reloadMarker

end Property

/-! ## `PropertyManager` -/

namespace PropertyManager

/-- `PropertyManager::Add`. -/
def add (prop : Property) : Game Bool := do
  let s ← gets id
  if prop.item.uniqueid ∈ s.properties then
    prop.destruct
    pure false
  else
    modify fun s => { s with properties := s.properties.insert prop.item.uniqueid prop }
    pure true

/-- `PropertyManager::Remove`. -/
def remove (o : OID) : Game Unit := do
  let member ← gets (·.properties.lookup o)
  modify fun s => { s with properties := s.properties.erase o }
  forEach Property.destruct member.toList

/-- `_members.clear`. -/
def clear : Game Unit := do
  let members ← gets (·.properties.values)
  modify fun s => { s with properties := ∅ }
  forEach Property.destruct members

/-- `PropertyManager::LoadAllFromDatabase`. -/
def loadAllFromDatabase : Game Unit := do
  emit (.reload .property)
  clear
  fetchAllFromDatabase .property fun doc => do
    let prop ← Property.ofData doc
    let _ ← add prop
    pure ()

end PropertyManager

/-! ## Footprints -/

section Footprints
set_option synthInstance.maxSize 1000
variable {K : List Kind} {o : OID} {p : ℤ}

instance : Stays K (propertyMgr o) := within_bind

namespace Property
variable {prop : Property}

instance : Stays K (ref o) := within_bind

instance {xy : List (Bson Field)} {z : Option (Bson Field)} : MethodStays K (loadPos xy z) := by
  unfold loadPos; infer_instance

instance : MethodStays K loadData := by unfold loadData; infer_instance

section Marker
variable [Listed .streamer K] [Listed .pickups K]

instance : MethodStays K reloadMarker := by unfold reloadMarker; infer_instance

instance {d : Document} : Stays K (ofData d) := by unfold ofData; infer_instance

instance {n : Text} {c : Coordinate3D} {a b : ℤ} [Listed .output K] [Listed .database K]
    [Listed .counters K] [Listed (.insert .property) K] : Stays K (ofNew n c a b) := by
  unfold ofNew; infer_instance

instance : Stays K prop.destruct := by unfold destruct; infer_instance

end Marker

section Members
variable [Listed .properties K]

instance {g : Property → Property} : Stays K (modifyProperty o g) :=
  stays_modify .properties fun _ => ⟨_, rfl⟩

instance {α : Type} {x : Method SaveableItem α} [h : MethodStays K x] : Stays K (withItem o x) :=
  stays_focus .properties (fun _ _ => ⟨_, rfl⟩) h

instance {α : Type} {x : Method Property α} [h : MethodStays K x] : Stays K (withProperty o x) :=
  stays_focus .properties (fun _ _ => ⟨_, rfl⟩) h

variable [Listed .output K] [Listed .database K] [Listed (.update .property) K]

instance {n : Text} : Stays K (setName o n) := by unfold setName; infer_instance

instance {v : ℤ} : Stays K (setValue o v) := by unfold setValue; infer_instance

instance {v : ℤ} : Stays K (setProfit o v) := by unfold setProfit; infer_instance

instance {w : OID} : Stays K (writeOwner o w) := by unfold writeOwner; infer_instance

variable [Listed .sampMoney K] [Listed .profileMoney K]

instance : Stays K (draw o p) := by unfold draw; infer_instance

variable [Listed .streamer K] [Listed .pickups K]

instance : Stays K (purchase o p) := by unfold purchase; infer_instance

instance : Stays K (sell o p) := by unfold sell; infer_instance

end Members
end Property

namespace PropertyManager
variable {prop : Property} [Listed .properties K] [Listed .streamer K] [Listed .pickups K]

instance : Stays K (add prop) :=
  (within_gets _).bind fun _ => within_ite
    (j := (stays_modify .properties fun _ => ⟨_, rfl⟩).bind fun _ => within_pure _)

instance : Stays K (remove o) :=
  (within_gets _).bind fun _ =>
    (stays_modify .properties fun _ => ⟨_, rfl⟩).bind fun _ => inferInstance

instance : Stays K clear :=
  (within_gets _).bind fun _ =>
    (stays_modify .properties fun _ => ⟨_, rfl⟩).bind fun _ => inferInstance

instance [Listed .output K] [Listed .database K] [Listed (.reload .property) K] :
    Stays K loadAllFromDatabase :=
  (stays_emit (.reload .property) _ rfl).bind fun _ => inferInstance

end PropertyManager
end Footprints
end FreshCity
