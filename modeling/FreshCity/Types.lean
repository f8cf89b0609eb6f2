import FreshCity.Imperative.Document

/-!
# Values, exceptions and outputs of the gamemode

Strings are byte strings. An object id of the database is twelve bytes and is
unset when they are all zero. Coordinates are exact rationals: nothing here
depends on how a `float` rounds.
-/
namespace FreshCity
open Imperative

/-- A `std::string`. -/
abbrev Text : Type := List UInt8

/-- The bytes of an ASCII literal. -/
def ascii (s : String) : Text := s.toList.map fun c => c.toNat.toUInt8

/-- `mongo::OID`. -/
structure OID where
  data : BitVec 96
  deriving DecidableEq

namespace OID

def unset : OID := ⟨0⟩

def isSet (o : OID) : Bool := o ≠ unset

/-- A generated object id. -/
def generated : { o : OID // o.isSet } := ⟨⟨1⟩, by decide⟩

end OID

structure CoordinatePlane where
  x : ℚ
  y : ℚ
  deriving DecidableEq

structure Coordinate3D where
  x : ℚ
  y : ℚ
  z : ℚ
  deriving DecidableEq

structure Coordinate5D where
  x : ℚ
  y : ℚ
  z : ℚ
  virtualworld : ℤ
  interior : ℤ
  facingangle : ℚ
  deriving DecidableEq

/-- The collections whose names the configuration gives under `Database`. -/
inductive Collection where
  | profile | team | gangzone | property | waypoint | racing | tptrigger
  deriving DecidableEq

/-- The field names of the documents. -/
inductive Field where
  | _id | auth | logname | password | ip | time | deleted | archive | gtasa | reginfo | nickname
  | banned | mgmtlevel | attribute | health | armour | weapon | id | ammo | skin | color
  | fightingstyle | money | score | geo | coordinate | height | direction | interior | world
  | name | leader | minx | miny | maxx | maxy | owner | spawn | trigger | x | y | z | xy
  | profit | value | lastdraw | creator | type | checkpoint | title | facing | waypoint
  | index (i : ℕ)
  deriving DecidableEq

abbrev Document : Type := Doc Field

/-- `elem.Obj()`. -/
abbrev asObj : Bson Field → Option Document := Bson.asObject .index

/-- The writes of a `$set`. -/
abbrev Modifier : Type := List (List Field × Bson Field)

inductive IntKey where
  | autosave | killinterval | turfwarlast | turfwartimeout | wealthpickupmoney | wealthpickupscore
  deriving DecidableEq

inductive FloatKey where
  | weapondropradius | distance | medicalpickup
  deriving DecidableEq

/-- The configuration file as far as the gamemode reads it. A key that is missing
or malformed has no value. -/
structure Config where
  collection : Collection → Bool
  int : IntKey → Option ℤ
  float : FloatKey → Option ℚ

/-! ## Exceptions -/

/-- The texts of the `std::runtime_error`s. -/
inductive ErrorText where
  | objectDoesntExist
  | emptyDocument (lasterror : Text)
  | dataAlreadyExists
  | objectAlreadyExists
  | failedToInsert (lasterror : Text)
  | failedToUpdate (lasterror : Text)
  | failedToRemove (lasterror : Text)
  | noSuchNode
  | unregisteredCommand
  | needRegistered
  | needSignedIn
  | donotRegistered
  | donotSignedIn
  | needLevel (level : ℤ)
  | unregisteredDialog
  | invalidObjectId
  | alreadyOnThisTeam
  | alreadyOnAnotherTeam
  | notOnThisTeam
  | invalidGangzoneData
  | invalidPlayerProfile
  | incompleteGamingRecord
  | noRole
  | keyDoesntExist
  | invalidPropertyData
  | notOnSale
  | notEnoughMoney
  | alreadyOnSale
  | notTheOwner
  | invalidRacingDocument
  | notBuilding
  | tooFewCheckpoints
  | notReadyToJoin
  | alreadyInARace
  | notInTheRace
  | notReadyToStart
  | invalidWaypointDocument
  | incorrectFacingAngle
  | skillNeedsTarget
  | skillCoolingDown
  | notInVehicle
  | inVehicle
  | wrongPassword
  | notTeamLeader
  | alreadyCreatingZone
  | notCreatingZone
  | blankName
  | blankPassword
  | unfinishedSteps
  | blankNickname
  | usageGoto
  | usageGet
  | noSuchFile
  deriving DecidableEq

/-- The exceptions that occur, by the types the handlers tell apart. -/
inductive Exn where
  | runtimeError (what : ErrorText)
  | userException
  | assertionException
  | badLexicalCast
  | dbException
  deriving DecidableEq

/-! ## Outputs -/

/-- The callbacks that report an exception to the player, each with a text of its own
for those without one. -/
inductive Reporter where
  | commandText | keyStateChange | dialogResponse | death | spawn | enterDynamicArea
  | leaveDynamicArea | pickUpPickup | clickMap | clickPlayer | enterRaceCheckpoint
  deriving DecidableEq

/-- What a player reads: chat lines, dialog contents and system messages. -/
inductive Message where
  | what (text : ErrorText)
  | unknownError (callback : Reporter)
  | connectError
  | welcome
  | welcomeBack
  | enterPassword
  | enterPasswordAgain
  | registered
  | unknownRegisterError
  | blankPassword
  | loggedIn
  | youAreBanned
  | connected (name : Text)
  | disconnected (name : Text)
  | skillPerformed
  | draggedByAssault
  | roleIntroduction
  | roleList
  | teamList (teams : List (OID × Text))
  | zoneList (zones : List (ℤ × Text))
  | waypointList (points : List (OID × Text))
  | joinedTeam (name : Text)
  | quitTeam (name : Text)
  | enteredZone (color : ℤ) (name : Text)
  | leftZone (color : ℤ) (name : Text)
  | startedTurfwar (team : Text)
  | wonTurfwar (team : Text)
  | ownerTeamOffline
  | killStreak (kills : ℤ)
  | chat (teamcolor : ℤ) (team : Text) (color : ℤ) (nickname : Text) (text : Text)
  | nameGangZone
  | chooseCorners
  | zoneRangeChosen
  | zoneCreationMenu
  | zoneMenu
  | zoneCreated
  | zoneRemoved
  | serverMenu
  | teleportMenu
  | teleportName
  | teleportBlankName
  | teleportCreated (title : Text)
  | teleportTriggerCreated (title : Text)
  | playerMenu
  | messageTo (name : Text)
  | messageFrom (name : Text) (text : Text)
  | messageSent
  | profileMenu
  | enterNickname
  | profileSynced
  | nicknameSet (nickname : Text)
  | propertyOnSale (name : Text) (value : ℤ) (profit : ℤ)
  | propertyOwned (name : Text) (value : ℤ) (profit : ℤ)
  | propertyInfo (name : Text) (value : ℤ) (profit : ℤ)
  | propertyPurchased
  | propertyMenu
  | propertyName
  | propertyValue
  | propertyProfit
  | raceMenu
  | raceName
  | raceCountDownBegins
  | raceCountDown (seconds : ℤ)
  | raceStarts
  | raceFinished (usedtime : ℤ) (rank : ℤ)
  | raceEnds
  deriving DecidableEq

/-- The dialogs, in the order of `enum DialogID`. -/
inductive DialogId where
  | racingJoin | racingStartName | racingCreateName | racingMain
  | propertyCreateProfit | propertyCreateValue | propertyCreateName | propertyMain | propertyInfo
  | propertySold | propertyOnSale | playerMessage | playerMain | serverMain
  | teleportMain | teleportCreate | teleportUse | teleportNearby | teleportCreateTrigger
  | gangZoneMain | gangZoneCreate | gangZoneCreateProcess | gangZoneRemove | gangZoneChooseToSpawn
  | teamSelect | profileSettingNickname | profileSetting | profileRegister | profileLogin
  | roleSelect
  deriving DecidableEq

/-- The keys of the player variables. -/
inductive VarKey where
  | gzCreate | playerLastclicked | propertyLastviewtime | propertyLastviewed | propertyCreation
  | raceJoined | raceCreate
  deriving DecidableEq

/-- Callback functions given to `CreateTimer`, with the object they are given.
Objects are known by the address they were allocated at. -/
inductive TimerCallback where
  | endTurfWar (zone : ℕ)
  | turfWarWaitTimeout (zone : ℕ)
  | autoSaveProfile (profile : ℕ)
  | changeWeather
  | changeTime
  | raceCountDown (race : ℕ)
  deriving DecidableEq

/-- Which of its objects a timer points at. -/
inductive TimerTarget where
  | zone | profile | race | nothing
  deriving DecidableEq

def TimerCallback.target : TimerCallback → TimerTarget
  | endTurfWar _ => .zone
  | turfWarWaitTimeout _ => .zone
  | autoSaveProfile _ => .profile
  | changeWeather => .nothing
  | changeTime => .nothing
  | raceCountDown _ => .race

/-- A race checkpoint as SA-MP shows it. -/
structure RaceCheckpoint where
  type : ℤ
  pos : Coordinate3D
  next : Coordinate3D
  size : ℚ
  deriving DecidableEq

/-- Natives of SA-MP and of the streamer that are called for their effect on the game alone. -/
inductive Native where
  | setGameModeText
  | addPlayerClass (model : ℤ)
  | streamerOnPlayerConnect (player : ℤ)
  | streamerOnPlayerDisconnect (player reason : ℤ)
  | sendDeathMessage (killer killee weapon : ℤ)
  | kick (player : ℤ)
  | spawnPlayer (player : ℤ)
  | setPlayerPos (player : ℤ) (pos : Coordinate3D)
  | setPlayerFacingAngle (player : ℤ) (angle : ℚ)
  | setPlayerCameraPos (player : ℤ) (pos : Coordinate3D)
  | setPlayerCameraLookAt (player : ℤ) (pos : Coordinate3D)
  | setPlayerVirtualWorld (player world : ℤ)
  | setPlayerInterior (player interior : ℤ)
  | setPlayerHealth (player : ℤ) (health : ℚ)
  | setPlayerArmour (player : ℤ) (armour : ℚ)
  | setPlayerFightingStyle (player style : ℤ)
  | givePlayerWeapon (player weapon ammo : ℤ)
  | playerPlaySound (player sound : ℤ) (pos : Coordinate3D)
  | setPlayerChatBubble (player : ℤ) (text : Text)
  | forceClassSelection (player : ℤ)
  | togglePlayerSpectating (player : ℤ) (toggle : Bool)
  | togglePlayerControllable (player : ℤ) (toggle : Bool)
  | createVehicle (model : ℤ) (pos : Coordinate3D) (angle : ℚ)
  | linkVehicleToInterior (vehicle interior : ℤ)
  | setVehicleVirtualWorld (vehicle world : ℤ)
  | setVehiclePos (vehicle : ℤ) (pos : Coordinate3D)
  | putPlayerInVehicle (player vehicle seat : ℤ)
  | addVehicleComponent (vehicle component : ℤ)
  | repairVehicle (vehicle : ℤ)
  | setWeather (weather : ℤ)
  | setWorldTime (hour : ℤ)
  deriving DecidableEq

/-- What a callback does to the world outside the gamemode's own objects, in the
order it does it: natives, messages, database operations and timers. `reload` and
`setVar` mark the entry into `LoadAllFromDatabase` and into `Profile::SetVar`. -/
inductive Effect where
  | native (n : Native)
  | message (player : ℤ) (m : Message)
  | messageToAll (m : Message)
  | systemMessage (m : Message)
  | showDialog (player : ℤ) (dialog : DialogId) (content : Message)
  | setPlayerTeam (player team : ℤ)
  | resetPlayerMoney (player : ℤ)
  | givePlayerMoney (player money : ℤ)
  | setPlayerScore (player score : ℤ)
  | setPlayerColor (player color : ℤ)
  | setPlayerRaceCheckpoint (player : ℤ) (checkpoint : RaceCheckpoint)
  | disablePlayerRaceCheckpoint (player : ℤ)
  | gangZoneShowForAll (zone color : ℤ)
  | gangZoneFlashForAll (zone color : ℤ)
  | find (c : Collection)
  | queryAll (c : Collection)
  | insert (c : Collection) (doc : Document)
  | update (c : Collection) (id : OID) (m : Modifier)
  | remove (c : Collection) (id : OID)
  | readConfig
  | reload (c : Collection)
  | setVar (player : ℤ) (key : VarKey)
  | createTimer (handle : ℤ) (callback : TimerCallback)
  | destroyTimer (handle : ℤ)

end FreshCity
