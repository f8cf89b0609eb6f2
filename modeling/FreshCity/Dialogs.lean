import FreshCity.Pickups
import FreshCity.Racing

/-!
# Dialog responses

A client may answer with any dialog, item and text at any time: nothing ties a
response to a dialog that was shown.
-/
namespace FreshCity
open Imperative Prog

/-- `sscanf(inputtext, "%d", &zoneid)` into a variable that is not initialised. -/
def scanZone (inputtext : Text) : Game ℤ := do
  let env ← gets (·.env)
  pure ((scanInt inputtext).getD (env.uninitialised 5))

/-- The ids and names of all zones. -/
def zoneNames (s : Server) : List (ℤ × Text) := s.zones.entries.map fun e => (e.1, e.2.name)

namespace Dialog

/-! ## Teams, roles and accounts -/

/-- The change of team behind `DIALOG_TEAM_SELECT`. -/
def changeTeam (p : ℤ) (id : Text) : Game Unit := do
  let pr ← Profile.ref p
  let new ← orRaise .assertionException (OID.ofText id)
  when (pr.team ≠ new) do
    when pr.team.isSet do
      let _ ← teamMgr pr.team
      Team.quit pr.team p
    let _ ← teamMgr new
    Team.join new p

/-- `DIALOG_TEAM_SELECT`. -/
def teamSelect (p : ℤ) (inputtext : Text) : Game Unit := do
  let env ← gets (·.env)
  changeTeam p (env.stringOf inputtext 24)
  showDialog p .roleSelect .roleList

/-- The role at each place of the list. -/
def roleOf : ℤ → Option Role
  | 0 => some Role.assault
  | 1 => some Role.medic
  | 2 => some Role.mechanic
  | 3 => some Role.engineer
  | _ => none

/-- `DIALOG_ROLE_SELECT`. -/
def roleSelect (p listitem : ℤ) : Game Unit := do
  forEach (Profile.setRole p) (roleOf listitem).toList
  native (.spawnPlayer p)

/-- What a player reads of an exception. -/
def exceptionMessage (unknown : Message) : Exn → Message
  | .runtimeError text => .what text
  | _ => unknown

/-- The attempt to register; a failure is shown and not thrown. -/
def tryRegister (p : ℤ) (inputtext : Text) : Game Bool :=
  handle (do
      let env ← gets (·.env)
      Profile.create p (env.name p) inputtext
      sendClientMessage p .registered
      Profile.setSignedIn p true
      pure true) fun e => do
    sendClientMessage p (exceptionMessage .unknownRegisterError e)
    pure false

/-- `DIALOG_PROFILE_REGISTER`. -/
def profileRegister (p : ℤ) (inputtext : Text) : Game Unit := do
  if inputtext.isEmpty then
    sendClientMessage p .blankPassword
    showDialog p .profileRegister .enterPassword
  else
    let registered ← tryRegister p inputtext
    when (!registered) (showDialog p .profileRegister .enterPassword)

/-- `DIALOG_PROFILE_LOGIN`. -/
def profileLogin (p : ℤ) (inputtext : Text) : Game Unit := do
  let platform ← gets (·.platform)
  let pr ← Profile.ref p
  let accepted ← orUndefined (pr.authPassword platform inputtext)
  when (!accepted) do
    showDialog p .profileLogin .enterPasswordAgain
    raise (.runtimeError .wrongPassword)
  Profile.setSignedIn p true
  Profile.applyDataToPlayer p
  sendClientMessage p .loggedIn

/-- `DIALOG_PROFILE_SETTING`. -/
def profileSetting (p : ℤ) : ℤ → Game Unit
  | 0 => showDialog p .profileSettingNickname .enterNickname
  | 1 => do
    Profile.sync p
    sendClientMessage p .profileSynced
  | 2 => do
    native (.forceClassSelection p)
    native (.togglePlayerSpectating p true)
    native (.togglePlayerSpectating p false)
  | 3 => native (.setPlayerHealth p 0)
  | _ => pure ()

/-- `DIALOG_PROFILE_SETTING_NICKNAME`. -/
def profileSettingNickname (p : ℤ) (inputtext : Text) : Game Unit := do
  raiseIf inputtext.isEmpty (.runtimeError .blankNickname)
  Profile.setNickname p inputtext
  sendClientMessage p (.nicknameSet inputtext)

/-! ## Gang zones -/

/-- `DIALOG_GANGZONE_CHOOSETOSPAWN`. -/
def gangZoneChooseToSpawn (p : ℤ) (inputtext : Text) : Game Unit := do
  let zoneid ← scanZone inputtext
  let zone ← gangZoneMgr zoneid
  let sp ← Waypoint.ofId zone.spawnpoint
  sp.performTeleport p

/-- `DIALOG_GANGZONE_MAIN`. -/
def gangZoneMain (p : ℤ) : ℤ → Game Unit
  | 0 => do
    let pr ← Profile.ref p
    let team ← teamMgr pr.team
    raiseIf (team.leader ≠ pr.item.uniqueid) (.runtimeError .notTeamLeader)
    raiseIf pr.pvars.gzCreate.isSome (.runtimeError .alreadyCreatingZone)
    showDialog p .gangZoneCreate .nameGangZone
  | 1 => do
    let names ← gets zoneNames
    showDialog p .gangZoneRemove (.zoneList names)
  | _ => pure ()

/-- `DIALOG_GANGZONE_CREATE`. -/
def gangZoneCreate (p : ℤ) (inputtext : Text) : Game Unit := do
  raiseIf inputtext.isEmpty (.runtimeError .blankName)
  Profile.setVar p .gzCreate fun v => { v with gzCreate := some { name := inputtext } }
  sendClientMessage p .chooseCorners
  sendClientMessage p .zoneCreationMenu

/-- Change the data of the zone a player is creating. -/
def modifyCreation (p : ℤ) (f : GangZoneCreationInfo → GangZoneCreationInfo) : Game Unit :=
  Profile.modifyVars p fun q => { q.pvars with gzCreate := q.pvars.gzCreate.map f }

/-- `GangZoneCreationStep`. -/
def createMin : BitVec 32 := 1

def createMax : BitVec 32 := 2

def createSpawnpoint : BitVec 32 := 4

def createTrigger : BitVec 32 := 8

def lowerCorner (data : GangZoneCreationInfo) : CoordinatePlane :=
  ⟨if data.min.x > data.max.x then data.max.x else data.min.x,
   if data.min.y > data.max.y then data.max.y else data.min.y⟩

def upperCorner (data : GangZoneCreationInfo) : CoordinatePlane :=
  ⟨if data.min.x < data.max.x then data.max.x else data.min.x,
   if data.min.y < data.max.y then data.max.y else data.min.y⟩

/-- The creation of the zone, once every step is done. -/
def finishCreation (p : ℤ) (data : GangZoneCreationInfo) : Game Unit := do
  raiseIf (data.step ≠ 15) (.runtimeError .unfinishedSteps)
  let pr ← Profile.ref p
  let sp ← Waypoint.ofTarget data.spawnpoint
  let id ← genOID
  let sp ← sp.create (ascii "_gz_sp_" ++ id.str) pr.item.uniqueid
  let zone ← GangZoneItem.ofNew data.name pr.team (lowerCorner data) (upperCorner data)
    sp.item.uniqueid data.trigger
  let _ ← GangZoneManager.add zone
  Profile.delVar p fun v => { v with gzCreate := none }
  sendClientMessage p .zoneCreated

/-- `DIALOG_GANGZONE_CREATE_PROCESS`. -/
def gangZoneCreateProcess (p listitem : ℤ) : Game Unit := do
  let data ← Profile.getVar p (·.gzCreate)
  let env ← gets (·.env)
  match listitem with
  | 0 => modifyCreation p fun d =>
      { d with spawnpoint := Profile.detailedPos env p, step := d.step ||| createSpawnpoint }
  | 1 => modifyCreation p fun d =>
      { d with trigger := env.pos p, step := d.step ||| createTrigger }
  | 2 => finishCreation p data
  | 3 => Profile.delVar p fun v => { v with gzCreate := none }
  | _ => pure ()

/-- `DIALOG_GANGZONE_REMOVE`. -/
def gangZoneRemove (p : ℤ) (inputtext : Text) : Game Unit := do
  let zoneid ← scanZone inputtext
  let _ ← gangZoneMgr zoneid
  GangZoneItem.destroy zoneid
  GangZoneManager.remove zoneid
  sendClientMessage p .zoneRemoved

/-! ## Teleports -/

/-- The second choice of `DIALOG_TELEPORT_MAIN`. -/
def teleportViewNearby (p : ℤ) : Game Unit := do
  let env ← gets (·.env)
  configCollection .waypoint
  let _ ← issue (.queryAll .waypoint)
  let docs ← gets fun s =>
    (s.platform.near (env.pos p).x (env.pos p).y (s.database.docs .waypoint)).take 16
  let points ← orRaise .userException (docs.mapM fun doc => do
    let id ← documentId doc
    let title ← (doc.field? .title).bind Bson.asString
    pure (id, title))
  showDialog p .teleportNearby (.waypointList points)

/-- `DIALOG_TELEPORT_MAIN`. -/
def teleportMain (p : ℤ) : ℤ → Game Unit
  | 0 => showDialog p .teleportCreate .teleportName
  | 1 => showDialog p .teleportUse .teleportName
  | 2 => teleportViewNearby p
  | 3 => showDialog p .teleportCreateTrigger .teleportName
  | _ => pure ()

/-- `DIALOG_TELEPORT_CREATE`. -/
def teleportCreate (p : ℤ) (inputtext : Text) : Game Unit := do
  if inputtext.isEmpty then showDialog p .teleportCreate .teleportBlankName
  else
    let env ← gets (·.env)
    let create ← Waypoint.ofTarget (Profile.detailedPos env p)
    let pr ← Profile.ref p
    let _ ← create.create inputtext pr.item.uniqueid
    sendClientMessage p (.teleportCreated inputtext)

/-- `DIALOG_TELEPORT_USE`. -/
def teleportUse (p : ℤ) (inputtext : Text) : Game Unit := do
  if inputtext.isEmpty then showDialog p .teleportUse .teleportBlankName
  else
    let point ← Waypoint.ofTitle inputtext
    point.performTeleport p

/-- `DIALOG_TELEPORT_NEARBY`. -/
def teleportNearby (p : ℤ) (inputtext : Text) : Game Unit := do
  let env ← gets (·.env)
  let id ← orRaise .assertionException (OID.ofText (env.stringOf inputtext 24))
  let target ← Waypoint.ofId id
  target.performTeleport p

/-- `DIALOG_TELEPORT_CREATETRIGGER`. -/
def teleportCreateTrigger (p : ℤ) (inputtext : Text) : Game Unit := do
  let wp ← Waypoint.ofTitle inputtext
  let env ← gets (·.env)
  createTeleportTrigger wp.item.uniqueid (env.pos p)
  sendClientMessage p (.teleportTriggerCreated inputtext)

/-! ## The server and other players -/

/-- `DIALOG_SERVER_MAIN`. -/
def serverMain : ℤ → Game Unit
  | 0 => TeamManager.loadAllFromDatabase
  | 1 => GangZoneManager.loadAllFromDatabase
  | 2 => reloadConfig
  | 3 => PropertyManager.loadAllFromDatabase
  | _ => pure ()

/-- `DIALOG_PLAYER_MAIN`. -/
def playerMain (p listitem : ℤ) : Game Unit := do
  let target ← Profile.getVar p (·.playerLastclicked)
  let env ← gets (·.env)
  match listitem with
  | 0 => do
    let _ ← profileMgr target
    showDialog p .playerMessage (.messageTo (env.name target))
  | _ => pure ()

/-- `DIALOG_PLAYER_MESSAGE`. -/
def playerMessage (p : ℤ) (inputtext : Text) : Game Unit := do
  let target ← Profile.getVar p (·.playerLastclicked)
  let _ ← profileMgr target
  let env ← gets (·.env)
  sendClientMessage target (.messageFrom (env.name p) inputtext)
  sendClientMessage p .messageSent

/-! ## Properties -/

/-- `DIALOG_PROPERTY_ONSALE`. -/
def propertyOnSale (p : ℤ) : Game Unit := do
  let o ← Profile.getVar p (·.propertyLastviewed)
  let _ ← propertyMgr o
  Property.purchase o p
  sendClientMessage p .propertyPurchased

/-- `DIALOG_PROPERTY_SOLD`. -/
def propertySold (p listitem : ℤ) : Game Unit := do
  let o ← Profile.getVar p (·.propertyLastviewed)
  let _ ← propertyMgr o
  match listitem with
  | 0 => do
    let _ ← Property.draw o p
    pure ()
  | 1 => Property.sell o p
  | _ => pure ()

/-- `DIALOG_PROPERTY_MAIN`. -/
def propertyMain (p listitem : ℤ) : Game Unit :=
  when (listitem = 0) do
    let env ← gets (·.env)
    let info : PropertyCreateInfo :=
      { pos := env.pos p, value := env.uninitialised 6, profit := env.uninitialised 7 }
    Profile.setVar p .propertyCreation fun v => { v with propertyCreation := some info }
    showDialog p .propertyCreateName .propertyName

/-- Change the data of the property a player is creating. -/
def modifyPropertyCreation (p : ℤ) (f : PropertyCreateInfo → PropertyCreateInfo) : Game Unit :=
  Profile.modifyVars p fun q => { q.pvars with propertyCreation := q.pvars.propertyCreation.map f }

/-- `DIALOG_PROPERTY_CREATE_NAME`. -/
def propertyCreateName (p : ℤ) (inputtext : Text) : Game Unit := do
  let _ ← Profile.getVar p (·.propertyCreation)
  modifyPropertyCreation p fun info => { info with name := inputtext }
  showDialog p .propertyCreateValue .propertyValue

/-- `DIALOG_PROPERTY_CREATE_VALUE`. -/
def propertyCreateValue (p : ℤ) (inputtext : Text) : Game Unit := do
  let _ ← Profile.getVar p (·.propertyCreation)
  let platform ← gets (·.platform)
  let value ← orRaise .badLexicalCast (platform.lexicalCastInt inputtext)
  modifyPropertyCreation p fun info => { info with value := value }
  showDialog p .propertyCreateProfit .propertyProfit

/-- `DIALOG_PROPERTY_CREATE_PROFIT`. -/
def propertyCreateProfit (p : ℤ) (inputtext : Text) : Game Unit := do
  let info ← Profile.getVar p (·.propertyCreation)
  let platform ← gets (·.platform)
  let profit ← orRaise .badLexicalCast (platform.lexicalCastInt inputtext)
  modifyPropertyCreation p fun info => { info with profit := profit }
  let prop ← Property.ofNew info.name info.pos profit info.value
  let _ ← PropertyManager.add prop
  pure ()

/-! ## Races -/

/-- `DIALOG_RACING_MAIN`. -/
def racingMain (p : ℤ) : ℤ → Game Unit
  | 0 => showDialog p .racingStartName .raceName
  | 1 => showDialog p .racingCreateName .raceName
  | _ => pure ()

/-- `DIALOG_RACING_START_NAME`. -/
def racingStartName (p : ℤ) (inputtext : Text) : Game Unit := do
  let session ← Racing.ofName inputtext p
  let (_, session) ← owned session Racing.destruct (Racing.join p)
  let _ ← Racing.mgrAdd p session
  pure ()

/-- `DIALOG_RACING_CREATE_NAME`. -/
def racingCreateName (p : ℤ) (inputtext : Text) : Game Unit := do
  let pr ← Profile.ref p
  raiseIf pr.pvars.raceJoined.isSome (.runtimeError .alreadyInARace)
  let session ← Racing.ofNew inputtext p raceTypeNormal pr.item.uniqueid
  Profile.setVar p .raceCreate fun v => { v with raceCreate := some session }

/-! ## The table -/

/-- The dialogs whose handler also runs when the dialog was cancelled. -/
def mustResponse : DialogId → Bool
  | .teamSelect => true
  | .roleSelect => true
  | .profileRegister => true
  | .profileLogin => true
  | .gangZoneChooseToSpawn => true
  | .propertyInfo => true
  | _ => false

/-- The callback of each dialog. -/
def callback (p listitem : ℤ) (inputtext : Text) : DialogId → Game Unit
  | .racingJoin => raise (.runtimeError .unregisteredDialog)
  | .racingStartName => racingStartName p inputtext
  | .racingCreateName => racingCreateName p inputtext
  | .racingMain => racingMain p listitem
  | .propertyCreateProfit => propertyCreateProfit p inputtext
  | .propertyCreateValue => propertyCreateValue p inputtext
  | .propertyCreateName => propertyCreateName p inputtext
  | .propertyMain => propertyMain p listitem
  | .propertyInfo => pure ()
  | .propertySold => propertySold p listitem
  | .propertyOnSale => propertyOnSale p
  | .playerMessage => playerMessage p inputtext
  | .playerMain => playerMain p listitem
  | .serverMain => serverMain listitem
  | .teleportMain => teleportMain p listitem
  | .teleportCreate => teleportCreate p inputtext
  | .teleportUse => teleportUse p inputtext
  | .teleportNearby => teleportNearby p inputtext
  | .teleportCreateTrigger => teleportCreateTrigger p inputtext
  | .gangZoneMain => gangZoneMain p listitem
  | .gangZoneCreate => gangZoneCreate p inputtext
  | .gangZoneCreateProcess => gangZoneCreateProcess p listitem
  | .gangZoneRemove => gangZoneRemove p inputtext
  | .gangZoneChooseToSpawn => gangZoneChooseToSpawn p inputtext
  | .teamSelect => teamSelect p inputtext
  | .profileSettingNickname => profileSettingNickname p inputtext
  | .profileSetting => profileSetting p listitem
  | .profileRegister => profileRegister p inputtext
  | .profileLogin => profileLogin p inputtext
  | .roleSelect => roleSelect p listitem

end Dialog

namespace DialogId

/-- All dialogs, each at the place of its number. -/
def all : List DialogId :=
  [racingJoin, racingStartName, racingCreateName, racingMain,
   propertyCreateProfit, propertyCreateValue, propertyCreateName, propertyMain, propertyInfo,
   propertySold, propertyOnSale, playerMessage, playerMain, serverMain,
   teleportMain, teleportCreate, teleportUse, teleportNearby, teleportCreateTrigger,
   gangZoneMain, gangZoneCreate, gangZoneCreateProcess, gangZoneRemove, gangZoneChooseToSpawn,
   teamSelect, profileSettingNickname, profileSetting, profileRegister, profileLogin, roleSelect]

/-- The dialog with a number that a client sent. -/
def ofNumber (n : ℤ) : Option DialogId := if 0 ≤ n then all[n.toNat]? else none

end DialogId

/-- `DialogManager::Exec`. -/
def dialogMgrExec (p : ℤ) (response : Bool) (dialogid listitem : ℤ) (inputtext : Text) :
    Game Unit := do
  let dialog ← orRaise (.runtimeError .unregisteredDialog)
    ((DialogId.ofNumber dialogid).filter DialogId.isRegistered)
  when (Dialog.mustResponse dialog || response) do
    let _ ← profileMgr p
    Dialog.callback p listitem inputtext dialog

/-! ## Footprints -/

namespace Dialog

/-- The kinds of change the handler of each dialog makes. -/
def footprint (p : ℤ) : DialogId → List Kind
  | .racingJoin => []
  | .racingStartName => [.output, .samp, .database, .counters, .profileRace, .setVar .raceJoined,
      .races, .destroyTimer]
  | .racingCreateName => [.output, .counters, .profileVars, .setVar .raceCreate]
  | .racingMain => [.output]
  | .propertyCreateProfit => [.output, .database, .counters, .streamer, .profileVars, .pickups,
      .properties, .insert .property]
  | .propertyCreateValue => [.output, .profileVars]
  | .propertyCreateName => [.output, .profileVars]
  | .propertyMain => [.output, .profileVars, .setVar .propertyCreation]
  | .propertyInfo => []
  | .propertySold => [.output, .sampMoney, .database, .streamer, .profileMoney, .pickups, .properties,
      .update .property]
  | .propertyOnSale => [.output, .sampMoney, .database, .streamer, .profileMoney, .pickups, .properties,
      .update .property]
  | .playerMessage => [.output]
  | .playerMain => [.output]
  | .serverMain => [.output, .sampZones, .database, .streamer, .counters, .config, .teamIds,
      .insertTeam, .clearTeams, .zones, .areas, .pickups, .properties, .readConfig, .reload .team, .reload .gangzone,
      .reload .property]
  | .teleportMain => [.output, .database]
  | .teleportCreate => [.output, .database, .counters, .insert .waypoint]
  | .teleportUse => [.output, .database]
  | .teleportNearby => [.output, .database]
  | .teleportCreateTrigger => [.output, .database, .streamer, .pickups, .insert .tptrigger]
  | .gangZoneMain => [.output]
  | .gangZoneCreate => [.output, .profileVars, .setVar .gzCreate]
  | .gangZoneCreateProcess => [.output, .sampZones, .database, .streamer, .counters, .profileVars,
      .zones, .areas, .pickups, .insert .waypoint, .insert .gangzone]
  | .gangZoneRemove => [.output, .sampZones, .database, .streamer, .zones, .zoneData, .areas, .pickups,
      .remove .gangzone]
  | .gangZoneChooseToSpawn => [.output, .database]
  | .teamSelect => [.output, .sampTeam p, .profileTeam, .teamRoster]
  | .profileSettingNickname => [.output, .database, .profileItem, .profileGame, .update .profile]
  | .profileSetting => [.output, .database, .profileItem, .profileLoaded, .update .profile]
  | .profileRegister => [.output, .database, .counters, .createTimer .profile, .profileItem,
      .profileLoaded, .profileSignIn, .insert .profile, .update .profile]
  | .profileLogin => [.output, .samp, .sampMoney, .createTimer .profile, .profileLoaded,
      .profileSignIn, .profileGame, .profileMoney]
  | .roleSelect => [.output, .streamer, .profileRole]

set_option synthInstance.maxSize 1000

/-- The handler of each dialog stays within its footprint. -/
theorem stays_callback (p listitem : ℤ) (inputtext : Text) (d : DialogId) :
    Stays (footprint p d) (callback p listitem inputtext d) := by
  cases d <;> simp only [callback, footprint]
  case racingJoin => exact within_raise _
  case racingStartName => unfold racingStartName; infer_instance
  case racingCreateName => unfold racingCreateName; infer_instance
  case racingMain => unfold racingMain; split <;> infer_instance
  case propertyCreateProfit =>
    unfold propertyCreateProfit modifyPropertyCreation; infer_instance
  case propertyCreateValue =>
    unfold propertyCreateValue modifyPropertyCreation; infer_instance
  case propertyCreateName =>
    unfold propertyCreateName modifyPropertyCreation; infer_instance
  case propertyMain => unfold propertyMain; infer_instance
  case propertyInfo => exact within_pure _
  case propertySold =>
    unfold propertySold
    refine within_bind (j := fun o => within_bind (j := fun _ => ?_))
    split <;> infer_instance
  case propertyOnSale => unfold propertyOnSale; infer_instance
  case playerMessage => unfold playerMessage; infer_instance
  case playerMain =>
    unfold playerMain
    refine within_bind (j := fun _ => within_bind (j := fun _ => ?_))
    split <;> infer_instance
  case serverMain => unfold serverMain; split <;> infer_instance
  case teleportMain =>
    unfold teleportMain
    split
    case h_3 =>
      unfold teleportViewNearby
      exact within_bind (j := fun _ => within_bind (j := fun _ =>
        (stays_issue .output _ rfl).bind fun _ => inferInstance))
    all_goals infer_instance
  case teleportCreate => unfold teleportCreate; infer_instance
  case teleportUse => unfold teleportUse; infer_instance
  case teleportNearby => unfold teleportNearby; infer_instance
  case teleportCreateTrigger => unfold teleportCreateTrigger; infer_instance
  case gangZoneMain => unfold gangZoneMain; split <;> infer_instance
  case gangZoneCreate => unfold gangZoneCreate; infer_instance
  case gangZoneCreateProcess =>
    unfold gangZoneCreateProcess finishCreation modifyCreation
    refine within_bind (j := fun _ => within_bind (j := fun _ => ?_))
    split <;> infer_instance
  case gangZoneRemove => unfold gangZoneRemove scanZone; infer_instance
  case gangZoneChooseToSpawn => unfold gangZoneChooseToSpawn scanZone; infer_instance
  case teamSelect => unfold teamSelect changeTeam; infer_instance
  case profileSettingNickname => unfold profileSettingNickname; infer_instance
  case profileSetting => unfold profileSetting; split <;> infer_instance
  case profileRegister => unfold profileRegister tryRegister; infer_instance
  case profileLogin => unfold profileLogin; infer_instance
  case roleSelect => unfold roleSelect; infer_instance

end Dialog
end FreshCity
