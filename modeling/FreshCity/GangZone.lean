import FreshCity.Items
import FreshCity.Team

/-!
# Gang zones, turf wars and `GangZoneManager`

A war is started by an attacker at the zone's trigger and ends by one of two
timers: the end timer, or the timeout timer that runs while none of the owner's
members has come to the zone.
-/
namespace FreshCity
open Imperative Prog

/-- The colour a zone flashes with during a war. -/
def colorRed : ℤ := -16776961

/-- `GangZoneMgr[z]`. -/
def gangZoneMgr (z : ℤ) : Game GangZoneItem := do
  let member ← gets (·.zones.lookup z)
  getItem member

namespace GangZoneManager

/-- `GangZoneManager::GetPointInWhichZone`. -/
def getPointInWhichZone (point : Coordinate3D) : Game ℤ := do
  let env ← gets (·.env)
  let members ← gets fun s => s.zones.entries
  let found ← findFirst (fun e => do
    let area ← DynamicAreaManager.get e.2.areaid
    pure (env.pointInArea area.id point)) members
  pure ((found.map Sigma.fst).getD (-1))

end GangZoneManager

namespace GangZoneItem

/-- A zone the caller holds a reference to. -/
def ref (z : ℤ) : Game GangZoneItem := do
  let member ← gets (·.zones.lookup z)
  orUndefined member

def modifyZone (z : ℤ) (g : GangZoneItem → GangZoneItem) : Game Unit :=
  modify fun s => { s with zones := s.zones.adjust z g }

/-- A method of the `SaveableItem` a registered zone is. -/
def withItem {α : Type} (z : ℤ) (x : Method SaveableItem α) : Game α :=
  focus (fun s => (s.zones.lookup z).map (·.item))
    (fun it s => { s with zones := s.zones.adjust z fun zone => { zone with item := it } }) x

/-! ## Construction -/

/-- `GangZoneItem::_LoadOwnerData`. -/
def loadOwnerData : Method GangZoneItem Unit := rethrowAs .invalidGangzoneData do
  let zone ← self
  let platform ← shared (gets (·.platform))
  let name ← check ((zone.item.rawdata.field? .name).bind Bson.asString)
  assign fun z => { z with name := platform.utf8ToGBK name }
  let owner ← check ((zone.item.rawdata.field? .owner).bind Bson.asOid)
  assign fun z => { z with owner := ⟨owner⟩ }
  let team ← shared (teamMgr ⟨owner⟩)
  assign fun z => { z with color := platform.int (team.color - 127) }
  let spawn ← check ((zone.item.rawdata.field? .spawn).bind Bson.asOid)
  assign fun z => { z with spawnpoint := ⟨spawn⟩ }
  shared (gangZoneShowForAll zone.zone (platform.int (team.color - 127)))

/-- The area and the trigger of a zone. -/
def placeArea : Method GangZoneItem Unit := do
  let zone ← self
  let area ← shared (DynamicAreaManager.create zone.zone)
  assign fun z => { z with areaid := area.id }
  let _ ← shared (DynamicAreaManager.add area)
  let trigger ← shared (PickupManager.create false (.turfWarTrigger zone.zone))
  assign fun z => { z with triggerid := trigger.id }
  let _ ← shared (PickupManager.add trigger)
  pure ()

/-- The members of a new zone. Those without an initialiser hold what was in memory. -/
def fresh (env : Env) (item : SaveableItem) (addr : ℕ) (zone : ℤ) : GangZoneItem where
  item := item
  addr := addr
  zone := zone
  areaid := env.uninitialised 0
  triggerid := env.uninitialised 1
  name := []
  owner := OID.unset
  color := env.uninitialised 2
  endtimerid := env.uninitialised 3
  timeouttimerid := env.uninitialised 4
  spawnpoint := OID.unset

/-- The rest of a constructor, once the zone's rectangle is there. If it throws, the
rectangle goes again, but not what was handed to the managers. -/
def construct (item : SaveableItem) (rest : Method GangZoneItem Unit) : Game GangZoneItem := do
  let env ← gets (·.env)
  let addr ← allocate
  let zone ← gangZoneCreate
  handle (Prod.snd <$> withLocal (fresh env item addr zone) rest) fun e => do
    gangZoneDestroy zone
    raise e

/-- The numbers `_InitArea` reads before it creates anything. -/
def readArea (rawdata : Document) : Game Unit := do
  let _ ← check ((rawdata.field? .minx).bind Bson.asNumber)
  let _ ← check ((rawdata.field? .miny).bind Bson.asNumber)
  let _ ← check ((rawdata.field? .maxx).bind Bson.asNumber)
  let _ ← check ((rawdata.field? .maxy).bind Bson.asNumber)
  let marker ← check ((rawdata.field? .trigger).bind asObj)
  let _ ← check ((Doc.field? marker .x).bind Bson.asNumber)
  let _ ← check ((Doc.field? marker .y).bind Bson.asNumber)
  let _ ← check ((Doc.field? marker .z).bind Bson.asNumber)
  pure ()

/-- `_InitArea` and `_LoadOwnerData`. -/
def build (item : SaveableItem) : Game GangZoneItem := do
  readArea item.rawdata
  construct item do
    placeArea
    loadOwnerData

/-- The constructor that looks for a name. -/
def ofName (name : Text) : Game GangZoneItem := do
  let platform ← gets (·.platform)
  let item ← SaveableItem.fetch .gangzone (byText [.name] (platform.gbkToUTF8 name))
  build item

/-- The constructor that is given the document. -/
def ofData (data : Document) : Game GangZoneItem := do
  let item ← SaveableItem.unsaved .gangzone
  let (_, item) ← withLocal item (SaveableItem.initData data)
  build item

/-- The document of a new zone. -/
def document (id : OID) (name : Text) (owner : OID) (min max : CoordinatePlane) (spawnpoint : OID)
    (trigger : Coordinate3D) : Document :=
  [(._id, .oid id.data),
   (.name, .string name),
   (.minx, .number min.x),
   (.miny, .number min.y),
   (.maxx, .number max.x),
   (.maxy, .number max.y),
   (.owner, .oid owner.data),
   (.spawn, .oid spawnpoint.data),
   (.trigger, .object
     [(.x, .number trigger.x),
      (.y, .number trigger.y),
      (.z, .number trigger.z)])]

/-- The constructor of a new zone. -/
def ofNew (name : Text) (owner : OID) (min max : CoordinatePlane) (spawnpoint : OID)
    (trigger : Coordinate3D) : Game GangZoneItem := do
  let item ← SaveableItem.unsaved .gangzone
  let platform ← gets (·.platform)
  construct item do
    let id ← shared genOID
    part (·.item) (fun it z => { z with item := it }) (SaveableItem.create .gangzone
      (document id (platform.gbkToUTF8 name) owner min max spawnpoint trigger) true)
    loadOwnerData
    placeArea

/-- The destructor, with that of the rectangle. -/
def destruct (zone : GangZoneItem) : Game Unit := do
  DynamicAreaManager.remove zone.areaid
  PickupManager.remove zone.triggerid
  gangZoneDestroy zone.zone

/-! ## Members -/

/-- `GangZoneItem::SetName`. -/
def setName (z : ℤ) (name : Text) : Game Unit := do
  let platform ← gets (·.platform)
  withItem z (SaveableItem.update .gangzone [([.name], .string (platform.gbkToUTF8 name))] false)
  modifyZone z fun zone => { zone with name := name }

/-- `GangZoneItem::SetOwner`. -/
def setOwner (z : ℤ) (owner : OID) : Game Unit := do
  withItem z (SaveableItem.update .gangzone [([.owner], .oid owner.data)] false)
  modifyZone z fun zone => { zone with owner := owner }

/-- `GangZoneItem::SetSpawnPoint`. -/
def setSpawnPoint (z : ℤ) (waypointid : OID) : Game Unit := do
  withItem z (SaveableItem.update .gangzone [([.spawn], .oid waypointid.data)] false)
  modifyZone z fun zone => { zone with spawnpoint := waypointid }

/-- `GangZoneItem::Redraw`. -/
def redraw (z : ℤ) : Game Unit := do
  let zone ← ref z
  let platform ← gets (·.platform)
  if zone.warinfo.inWar then gangZoneFlashForAll zone.zone (platform.int (colorRed - 127))
  else gangZoneShowForAll zone.zone zone.color

/-! ## Turf wars -/

/-- Create a war's timer. The delay is configured in minutes. -/
def createWarTimer (callback : TimerCallback) (delay : IntKey) : Game ℤ := do
  let minutes ← configInt delay
  let platform ← gets (·.platform)
  createTimer callback (dword (platform.int (minutes * 60000))) false

/-- Whether one of the players is in the zone. The scan stops at the first who is. -/
def memberInZone (zone : ℤ) (members : List ℤ) : Game Bool := do
  let found ← findFirst (fun q => do
    let _ ← profileMgr q
    let env ← gets (·.env)
    let inzone ← GangZoneManager.getPointInWhichZone (env.pos q)
    pure (decide (inzone = zone))) members
  pure found.isSome

/-- The part of `StartWar` after its two refusals. -/
def beginWar (z : ℤ) (zone : GangZoneItem) (attacker : OID) : Game Unit := do
  let team ← teamMgr attacker
  pushMessage (.startedTurfwar team.name)
  modifyZone z fun zone => { zone with warinfo := { zone.warinfo with attacker := attacker } }
  let endtimer ← createWarTimer (.endTurfWar zone.addr) .turfwarlast
  modifyZone z fun zone => { zone with endtimerid := endtimer }
  let owner ← teamMgr zone.owner
  let arrived ← memberInZone zone.zone owner.onlineplayers.keys
  when (!arrived) do
    let timeouttimer ← createWarTimer (.turfWarWaitTimeout zone.addr) .turfwartimeout
    modifyZone z fun zone => { zone with timeouttimerid := timeouttimer }
  modifyZone z fun zone => { zone with warinfo := { zone.warinfo with inWar := true } }
  redraw z

/-- `GangZoneItem::StartWar`. -/
def startWar (z p : ℤ) : Game Bool := do
  let zone ← ref z
  let attacker ← Profile.ref p
  if zone.warinfo.inWar then pure false
  else if attacker.team = zone.owner then pure false
  else
    beginWar z zone attacker.team
    pure true

/-- `GangZoneItem::CountEnemyKill`. -/
def countEnemyKill (z : ℤ) : Game Unit := modifyZone z fun zone =>
  if zone.warinfo.inWar then
    { zone with warinfo := { zone.warinfo with enemyKill := zone.warinfo.enemyKill + 1 } }
  else zone

/-- `GangZoneItem::CountMemberDeath`. -/
def countMemberDeath (z : ℤ) : Game Unit := modifyZone z fun zone =>
  if zone.warinfo.inWar then
    { zone with warinfo := { zone.warinfo with memberDeath := zone.warinfo.memberDeath + 1 } }
  else zone

/-- Whether the attacker wins when the war ends. -/
def attackerWins (zone : GangZoneItem) (causedbytimeout : Bool) : Bool :=
  causedbytimeout || decide (zone.warinfo.enemyKill < zone.warinfo.memberDeath)

/-- The announcement of the winner; an attacker who wins becomes the owner. -/
def announceWinner (z : ℤ) (zone : GangZoneItem) (attackerwins : Bool) : Game Unit :=
  if attackerwins then do
    let team ← teamMgr zone.warinfo.attacker
    pushMessage (.wonTurfwar team.name)
    setOwner z zone.warinfo.attacker
  else do
    let team ← teamMgr zone.owner
    pushMessage (.wonTurfwar team.name)

/-- `GangZoneItem::EndWar`. -/
def endWar (z : ℤ) (causedbytimeout : Bool) : Game Bool := do
  let zone ← ref z
  if zone.warinfo.inWar then
    when causedbytimeout (destroyTimer zone.endtimerid)
    announceWinner z zone (zone.attackerWins causedbytimeout)
    modifyZone z fun zone => { zone with warinfo := {} }
    redraw z
    pure (zone.attackerWins causedbytimeout)
  else pure false

/-- `GangZoneItem::MemberArrived`. -/
def memberArrived (z : ℤ) : Game Unit := do
  let zone ← ref z
  when (zone.timeouttimerid ≠ 0) do
    destroyTimer zone.timeouttimerid
    modifyZone z fun zone => { zone with timeouttimerid := 0 }

/-- `GangZoneItem::Destroy`. -/
def destroy (z : ℤ) : Game Unit := withItem z (SaveableItem.destroy .gangzone)

end GangZoneItem

/-! ## `GangZoneManager` -/

namespace GangZoneManager

/-- `GangZoneManager::Add`. -/
def add (zone : GangZoneItem) : Game Bool := do
  let s ← gets id
  if zone.zone ∈ s.zones then
    zone.destruct
    pure false
  else
    modify fun s => { s with zones := s.zones.insert zone.zone zone }
    pure true

/-- `ItemManager::Remove`. -/
def remove (z : ℤ) : Game Unit := do
  let member ← gets (·.zones.lookup z)
  modify fun s => { s with zones := s.zones.erase z }
  forEach GangZoneItem.destruct member.toList

/-- `_members.clear`. -/
def clear : Game Unit := do
  let members ← gets (·.zones.values)
  modify fun s => { s with zones := ∅ }
  forEach GangZoneItem.destruct members

/-- `GangZoneManager::LoadAllFromDatabase`. -/
def loadAllFromDatabase : Game Unit := do
  emit (.reload .gangzone)
  clear
  fetchAllFromDatabase .gangzone fun doc => do
    let zone ← GangZoneItem.ofData doc
    let _ ← add zone
    pure ()

end GangZoneManager

/-! ## `GangZoneArea` -/

namespace GangZoneArea

/-- What `OnPlayerEnter` and `OnPlayerExit` both show. -/
def announce (area : GangZoneArea) (p : ℤ) (text : ℤ → Text → Message) : Game GangZoneItem := do
  let zone ← gangZoneMgr area.zoneid
  let team ← teamMgr zone.owner
  sendClientMessage p (text team.color zone.name)
  pure zone

/-- `GangZoneArea::OnPlayerEnter`. -/
def onPlayerEnter (area : GangZoneArea) (p : ℤ) : Game Unit := do
  let zone ← area.announce p .enteredZone
  let pr ← Profile.ref p
  when (zone.warinfo.inWar ∧ pr.team = zone.owner) (GangZoneItem.memberArrived area.zoneid)

/-- `GangZoneArea::OnPlayerExit`. -/
def onPlayerExit (area : GangZoneArea) (p : ℤ) : Game Unit := do
  let _ ← area.announce p .leftZone
  pure ()

end GangZoneArea

/-! ## Footprints -/

section Footprints
set_option synthInstance.maxSize 1000
variable {K : List Kind} {z p : ℤ}

instance : Stays K (gangZoneMgr z) := within_bind

instance {q : Coordinate3D} : Stays K (GangZoneManager.getPointInWhichZone q) := by
  unfold GangZoneManager.getPointInWhichZone; infer_instance

namespace GangZoneItem
variable {zone : GangZoneItem} {item : SaveableItem}

instance : Stays K (ref z) := within_bind

instance {q : List ℤ} : Stays K (memberInZone z q) := by unfold memberInZone; infer_instance

theorem stays_createWarTimer [Listed .output K] [Listed (.createTimer .zone) K]
    {c : TimerCallback} (hc : c.target = .zone) {k : IntKey} : Stays K (createWarTimer c k) :=
  within_bind (j := fun _ => within_bind (j := fun _ => stays_createTimer .zone hc))

section Construction

instance {d : Document} : Stays K (readArea d) := by unfold readArea; infer_instance

variable [Listed .sampZones K] [Listed .output K]

instance : MethodStays K loadOwnerData := by unfold loadOwnerData; infer_instance

variable [Listed .counters K]

instance {rest : Method GangZoneItem Unit} [h : MethodStays K rest] :
    Stays K (construct item rest) := by unfold construct; infer_instance

variable [Listed .streamer K] [Listed .areas K] [Listed .pickups K]

instance : MethodStays K placeArea := by unfold placeArea; infer_instance

instance : Stays K (build item) := by unfold build; infer_instance

instance {d : Document} : Stays K (ofData d) := by unfold ofData; infer_instance

variable [Listed .database K]

instance {n : Text} : Stays K (ofName n) := by unfold ofName; infer_instance

instance {n : Text} {o w : OID} {a b : CoordinatePlane} {c : Coordinate3D}
    [Listed (.insert .gangzone) K] : Stays K (ofNew n o a b w c) := by
  unfold ofNew; infer_instance

end Construction

instance [Listed .sampZones K] [Listed .streamer K] [Listed .areas K] [Listed .pickups K] :
    Stays K zone.destruct := by unfold destruct; infer_instance

section Members
variable [Listed .zoneData K]

theorem stays_modifyZone {g : GangZoneItem → GangZoneItem} (hg : ∀ x, GangZoneItem.SameZone x (g x)) :
    Stays K (modifyZone z g) := stays_modify .zoneData fun _ => ⟨z, g, hg, rfl⟩

instance {g : GangZoneItem → Text} : Stays K (modifyZone z fun zone => { zone with name := g zone }) :=
  stays_modifyZone fun _ => by constructor <;> rfl

instance {g : GangZoneItem → OID} : Stays K (modifyZone z fun zone => { zone with owner := g zone }) :=
  stays_modifyZone fun _ => by constructor <;> rfl

instance {g : GangZoneItem → OID} :
    Stays K (modifyZone z fun zone => { zone with spawnpoint := g zone }) :=
  stays_modifyZone fun _ => by constructor <;> rfl

instance {g : GangZoneItem → TurfWarInfo} :
    Stays K (modifyZone z fun zone => { zone with warinfo := g zone }) :=
  stays_modifyZone fun _ => by constructor <;> rfl

instance {g : GangZoneItem → ℤ} :
    Stays K (modifyZone z fun zone => { zone with endtimerid := g zone }) :=
  stays_modifyZone fun _ => by constructor <;> rfl

instance {g : GangZoneItem → ℤ} :
    Stays K (modifyZone z fun zone => { zone with timeouttimerid := g zone }) :=
  stays_modifyZone fun _ => by constructor <;> rfl

instance {α : Type} {x : Method SaveableItem α} [h : MethodStays K x] : Stays K (withItem z x) :=
  stays_focus .zoneData (fun it _ => ⟨z, fun zone => { zone with item := it },
    fun _ => by constructor <;> rfl, rfl⟩) h

instance : Stays K (countEnemyKill z) :=
  stays_modifyZone fun _ => by split <;> constructor <;> rfl

instance : Stays K (countMemberDeath z) :=
  stays_modifyZone fun _ => by split <;> constructor <;> rfl

section Database
variable [Listed .output K] [Listed .database K]

instance [Listed (.remove .gangzone) K] : Stays K (destroy z) := by unfold destroy; infer_instance

variable [Listed (.update .gangzone) K]

instance {n : Text} : Stays K (setName z n) := by unfold setName; infer_instance

instance {o : OID} : Stays K (setOwner z o) := by unfold setOwner; infer_instance

instance {w : OID} : Stays K (setSpawnPoint z w) := by unfold setSpawnPoint; infer_instance

instance {b : Bool} : Stays K (announceWinner z zone b) := by
  unfold announceWinner; infer_instance

end Database

section War
variable [Listed .output K]

instance [Listed .destroyTimer K] : Stays K (memberArrived z) := by
  unfold memberArrived; infer_instance

variable [Listed .sampZones K]

instance : Stays K (redraw z) := by unfold redraw; infer_instance

instance {b : Bool} [Listed .destroyTimer K] [Listed .database K] [Listed (.update .gangzone) K] :
    Stays K (endWar z b) := by unfold endWar; infer_instance

variable [Listed (.createTimer .zone) K]

instance {o : OID} : Stays K (beginWar z zone o) := by
  have hend : ∀ a k, Stays K (createWarTimer (.endTurfWar a) k) := fun _ _ =>
    stays_createWarTimer rfl
  have htimeout : ∀ a k, Stays K (createWarTimer (.turfWarWaitTimeout a) k) := fun _ _ =>
    stays_createWarTimer rfl
  unfold beginWar; infer_instance

instance : Stays K (startWar z p) := by unfold startWar; infer_instance

end War
end Members
end GangZoneItem

namespace GangZoneManager
variable {zone : GangZoneItem}
variable [Listed .zones K] [Listed .sampZones K] [Listed .streamer K] [Listed .areas K]
  [Listed .pickups K]

instance : Stays K (add zone) :=
  (within_gets _).bind fun _ => within_ite
    (j := (stays_modify .zones fun _ => ⟨_, rfl⟩).bind fun _ => within_pure _)

instance : Stays K (remove z) :=
  (within_gets _).bind fun _ => (stays_modify .zones fun _ => ⟨_, rfl⟩).bind fun _ => inferInstance

instance : Stays K clear :=
  (within_gets _).bind fun _ => (stays_modify .zones fun _ => ⟨_, rfl⟩).bind fun _ => inferInstance

instance [Listed .output K] [Listed .database K] [Listed .counters K]
    [Listed (.reload .gangzone) K] : Stays K loadAllFromDatabase :=
  (stays_emit (.reload .gangzone) _ rfl).bind fun _ => inferInstance

end GangZoneManager

namespace GangZoneArea
variable {area : GangZoneArea} [Listed .output K]

instance {text : ℤ → Text → Message} : Stays K (area.announce p text) := by
  unfold announce; infer_instance

instance [Listed .zoneData K] [Listed .destroyTimer K] : Stays K (area.onPlayerEnter p) := by
  unfold onPlayerEnter; infer_instance

instance : Stays K (area.onPlayerExit p) := by unfold onPlayerExit; infer_instance

end GangZoneArea
end Footprints
end FreshCity
