import FreshCity.Commands

/-!
# Callbacks and timers

Most callbacks report an exception to their player. `OnPlayerConnect` and
`OnPlayerDisconnect` turn it into their result, and `OnPlayerText` and the timer
callbacks let it go.
-/
namespace FreshCity
open Imperative Prog

def invalidPlayerId : ℤ := 65535

/-- `catch(std::runtime_error&)` and `catch(...)` around the body of a callback. -/
def reported (p : ℤ) (callback : Reporter) (x : Game Unit) : Game Unit :=
  handle x fun e => sendClientMessage p (Dialog.exceptionMessage (.unknownError callback) e)

/-! ## Connecting and leaving -/

/-- What a new player sees, by whether the name is registered and banned. -/
def greet (p : ℤ) : Game Unit := do
  let player ← Profile.ref p
  let env ← gets (·.env)
  if player.item.isEmpty then do
    Profile.setColor p env.randomColor
    showDialog p .profileRegister .enterPassword
  else if player.auth.banned then do
    sendClientMessage p .youAreBanned
    native (.kick p)
  else showDialog p .profileLogin .welcomeBack

/-- What `OnPlayerConnect` does once there is a profile. -/
def startSession (p : ℤ) : Game Unit := do
  let _ ← profileMgr p
  Profile.setSignedIn p false
  greet p
  setPlayerTeam p noTeam
  let env ← gets (·.env)
  sendClientMessageToAll (.connected (env.name p))
  native (.sendDeathMessage invalidPlayerId p 200)

/-- The body of `OnPlayerConnect`. -/
def connectPlayer (p : ℤ) : Game Unit := do
  native (.streamerOnPlayerConnect p)
  sendClientMessage p .welcome
  let _ ← profileMgrAdd p
  startSession p

def onPlayerConnect (p : ℤ) : Game Bool :=
  handle (do connectPlayer p; pure true) fun _ => do
    sendClientMessage p .connectError
    pure false

/-- A player who has a team leaves it. -/
def leaveTeam (p : ℤ) : Game Unit := do
  let player ← Profile.ref p
  when player.team.isSet do
    let _ ← teamMgr player.team
    Team.quit player.team p

/-- What `OnPlayerDisconnect` does once the profile is saved. -/
def endSession (p : ℤ) : Game Unit := do
  leaveTeam p
  let env ← gets (·.env)
  sendClientMessageToAll (.disconnected (env.name p))
  native (.sendDeathMessage invalidPlayerId p 201)
  profileMgrRemove p

/-- The body of `OnPlayerDisconnect`. The reason 0 is a timeout. -/
def disconnectPlayer (p reason : ℤ) : Game Unit := do
  native (.streamerOnPlayerDisconnect p reason)
  let player ← profileMgr p
  when (reason ≠ 0 ∧ player.auth.signedin) (Profile.sync p)
  endSession p

def onPlayerDisconnect (p reason : ℤ) : Game Bool :=
  handle (do disconnectPlayer p reason; pure true) fun _ => pure false

/-! ## Starting the gamemode -/

/-- What `OnGameModeInit` loads. -/
def loadGameMode : Game Unit := do
  TeamManager.loadAllFromDatabase
  GangZoneManager.loadAllFromDatabase
  loadAllTeleportTriggerFromDatabase
  PropertyManager.loadAllFromDatabase
  let _ ← profileMgrAdd (-1)
  let _ ← createTimer .changeWeather 300000 true
  let _ ← createTimer .changeTime 60000 true
  pure ()

@[irreducible] def onGameModeInit : Game Bool := do
  native .setGameModeText
  forEach (fun i : ℕ => native (.addPlayerClass (i + 1))) (List.range 298)
  handle loadGameMode fun _ => pure ()
  pure true

/-! ## Playing -/

def onPlayerRequestClass (p : ℤ) : Game Bool := do
  native (.setPlayerPos p ⟨1497.07, -689.485, 94.956⟩)
  native (.setPlayerFacingAngle p 180.86)
  native (.setPlayerCameraPos p ⟨1497.81, -707.83, 99.69⟩)
  native (.setPlayerCameraLookAt p ⟨1493.39, -686.97, 98.35⟩)
  pure true

def onPlayerCommandText (p : ℤ) (cmdtext : Text) : Game Bool := do
  let platform ← gets (·.platform)
  let c ← orUndefined (scanCommand platform cmdtext)
  reported p .commandText (cmdMgrExec p c.1 c.2)
  pure true

def keyFire : BitVec 32 := 4

def keyAction : BitVec 32 := 1

def keyNo : BitVec 32 := 131072

/-- `KEY_PRESSED`. -/
def keyPressed (newkeys oldkeys x : BitVec 32) : Bool :=
  newkeys &&& x = x && oldkeys &&& x ≠ x

/-- Whom a skill is used on. -/
def skillTarget (p : ℤ) (role : Role) : Game ℤ :=
  if role.musthavetarget then do
    let target ← gets fun s => s.env.target p
    raiseIf (target = invalidPlayerId) (.runtimeError .skillNeedsTarget)
    let _ ← profileMgr target
    pure target
  else pure p

def useSkill (p : ℤ) : Game Unit := do
  let now ← gets (·.env.time)
  let role ← Profile.getRole p
  raiseIf (!role.canPerformSkill now) (.runtimeError .skillCoolingDown)
  let target ← skillTarget p role
  role.performSpecialSkill p target
  sendClientMessage p .skillPerformed

def onPlayerKeyStateChange (p : ℤ) (newkeys oldkeys : BitVec 32) : Game Bool := do
  reported p .keyStateChange do
    let _ ← profileMgr p
    let env ← gets (·.env)
    when ((keyPressed newkeys oldkeys keyFire ∨ keyPressed newkeys oldkeys keyAction) ∧
        env.inVehicle p) (native (.addVehicleComponent (env.vehicle p) 1010))
    when (keyPressed newkeys oldkeys keyNo) (useSkill p)
  pure true

def onDialogResponse (p dialogid response listitem : ℤ) (inputtext : Text) : Game Bool := do
  reported p .dialogResponse (dialogMgrExec p (decide (response = 1)) dialogid listitem inputtext)
  pure true

/-! ## Deaths -/

/-- A weapon a dead player drops. -/
def dropWeapon (w : ℤ × ℤ) : Game Unit := do
  let item ← PickupManager.create true (.weapon w.1 w.2)
  let _ ← PickupManager.add item
  pure ()

/-- The pickup for a streak of kills. -/
def streakReward (kills : ℤ) : Game (Option EffectiveItem) :=
  if kills = 1 then pure none
  else if kills = 2 then do
    let health ← configFloat .medicalpickup
    some <$> PickupManager.create true (.medical health)
  else if kills = 3 then some <$> PickupManager.create true (.weapon 16 3)
  else if kills = 4 then do
    let money ← configInt .wealthpickupmoney
    let score ← configInt .wealthpickupscore
    some <$> PickupManager.create true (.wealth money score)
  else some <$> PickupManager.create true (.weapon 38 15)

/-- Both counters of a war, by the teams of the dead player and of the killer. -/
def countDeath (p killerid zoneid : ℤ) : Game Unit := do
  let zone ← gangZoneMgr zoneid
  let player ← Profile.ref p
  let killer ← Profile.ref killerid
  when (player.team = zone.owner ∧ killer.team = zone.warinfo.attacker)
    (GangZoneItem.countMemberDeath zoneid)
  when (player.team = zone.warinfo.attacker ∧ killer.team = zone.owner)
    (GangZoneItem.countEnemyKill zoneid)

/-- The message of a streak, and the war at the place of the death. -/
def reportKill (p killerid kills : ℤ) : Game Unit := do
  let env ← gets (·.env)
  when (kills > 1) (pushMessage (.killStreak kills))
  when (env.inAnyArea p) do
    let zoneid ← GangZoneManager.getPointInWhichZone (env.pos p)
    when (zoneid ≠ -1) (countDeath p killerid zoneid)

/-- What a kill brings. The pickup of a streak is handed to no manager and goes with
the block's last pointer. -/
def rewardKiller (p killerid : ℤ) : Game Unit := do
  let _ ← profileMgr killerid
  Profile.giveScore killerid 1
  Profile.giveMoney killerid 1000
  let distance ← configFloat .distance
  let _ ← generateDirectionalPoint killerid distance
  let kills ← Profile.killCounter killerid
  let reward ← streakReward kills
  ensure (reportKill p killerid kills) (forEach PickupManager.destruct reward.toList)

def playerDeath (p killerid : ℤ) : Game Unit := do
  let _ ← profileMgr p
  let role ← Profile.getRole p
  role.onDeath p
  let env ← gets (·.env)
  let _ ← configFloat .weapondropradius
  forEach dropWeapon (Profile.weapons env p)
  when (killerid ≠ invalidPlayerId) (rewardKiller p killerid)

def onPlayerDeath (p killerid reason : ℤ) : Game Bool := do
  givePlayerMoney p (-500)
  native (.sendDeathMessage killerid p reason)
  reported p .death (playerDeath p killerid)
  pure true

/-! ## Spawning and talking -/

/-- The ids and names of all teams. -/
def teamNames (s : Server) : List (OID × Text) := s.teams.members.entries.map fun e => (e.1, e.2.name)

def onPlayerRequestSpawn (p : ℤ) : Game Bool := do
  let teams ← gets teamNames
  showDialog p .teamSelect (.teamList teams)
  pure false

def onPlayerSpawn (p : ℤ) : Game Bool := do
  reported p .spawn do
    let _ ← profileMgr p
    let role ← Profile.getRole p
    role.onSpawn p
    let zones ← gets (·.zones.keys)
    forEach GangZoneItem.redraw zones
    let names ← gets zoneNames
    showDialog p .gangZoneChooseToSpawn (.zoneList names)
  pure true

def onPlayerText (p : ℤ) (text : Text) : Game Bool := do
  native (.setPlayerChatBubble p text)
  let player ← profileMgr p
  let team ← teamMgr player.team
  sendClientMessageToAll (.chat team.color team.name player.gamedata.color
    player.gamedata.nickname text)
  pure false

/-! ## Areas, pickups and clicks -/

def onPlayerEnterDynamicArea (p areaid : ℤ) : Game Unit :=
  reported p .enterDynamicArea do
    let area ← DynamicAreaManager.get areaid
    let _ ← profileMgr p
    area.onPlayerEnter p

def onPlayerLeaveDynamicArea (p areaid : ℤ) : Game Unit :=
  reported p .leaveDynamicArea do
    let area ← DynamicAreaManager.get areaid
    let _ ← profileMgr p
    area.onPlayerExit p

/-- The streamer gives the id of its own item for the pickup, or 0. -/
def onPlayerPickUpPickup (p : ℤ) : Game Bool := do
  reported p .pickUpPickup do
    let streamerid ← gets (·.env.pickedUp)
    when (streamerid ≠ 0) (PickupManager.exec p streamerid)
  pure true

/-- A corner of the zone a player is creating: first the one, then the other. -/
def chooseCorner (p : ℤ) (data : GangZoneCreationInfo) (corner : CoordinatePlane) : Game Unit :=
  if data.step &&& Dialog.createMin ≠ Dialog.createMin then
    Dialog.modifyCreation p fun d => { d with min := corner, step := d.step ||| Dialog.createMin }
  else when (data.step &&& Dialog.createMax ≠ Dialog.createMax) do
    Dialog.modifyCreation p fun d => { d with max := corner, step := d.step ||| Dialog.createMax }
    sendClientMessage p .zoneRangeChosen

def onPlayerClickMap (p : ℤ) (corner : CoordinatePlane) : Game Bool := do
  reported p .clickMap do
    let _ ← profileMgr p
    let creating ← Profile.hasVar p (·.gzCreate)
    when creating do
      let data ← Profile.getVar p (·.gzCreate)
      chooseCorner p data corner
  pure true

def onPlayerClickPlayer (p clickedplayerid : ℤ) : Game Bool := do
  reported p .clickPlayer do
    let _ ← profileMgr p
    Profile.setVar p .playerLastclicked fun v => { v with playerLastclicked := some clickedplayerid }
    if p ≠ clickedplayerid then showDialog p .playerMain .playerMenu
    else showDialog p .profileSetting .profileMenu
  pure true

def onPlayerEnterRaceCheckpoint (p : ℤ) : Game Bool := do
  reported p .enterRaceCheckpoint do
    let player ← profileMgr p
    when player.pvars.raceJoined.isSome do
      let k ← Profile.getVar p (·.raceJoined)
      let _ ← racingMgr k
      Racing.playerReachCheckpoint k p
  pure true

/-! ## Timers -/

/-- The key of the object at an address. A timer may point at one that is gone. -/
def keyAt {α : Type} (m : Map ℤ α) (address : α → ℕ) (a : ℕ) : Option ℤ :=
  (m.entries.find? fun e => address e.2 = a).map Sigma.fst

namespace TimerCallback

def run : TimerCallback → Game Unit
  | endTurfWar a => do
    let z ← gets fun s => keyAt s.zones (·.addr) a
    let z ← orUndefined z
    let _ ← GangZoneItem.endWar z false
    pure ()
  | turfWarWaitTimeout a => do
    let z ← gets fun s => keyAt s.zones (·.addr) a
    let z ← orUndefined z
    let _ ← GangZoneItem.endWar z true
    pure ()
  | autoSaveProfile a => do
    let p ← gets fun s => keyAt s.profiles (·.addr) a
    let p ← orUndefined p
    Profile.sync p
    sendClientMessage p .profileSynced
  | changeWeather => do
    let env ← gets (·.env)
    native (.setWeather env.randomWeather)
  | changeTime => do
    let time ← gets fun s => s.platform.int (s.worldtime + 1)
    modify fun s => { s with worldtime := time }
    native (.setWorldTime (Int.tmod time 24))
  | raceCountDown a => do
    let k ← gets fun s => keyAt s.races (·.addr) a
    let k ← orUndefined k
    Racing.countDown k

end TimerCallback

/-- A timer that fires once is spent before its callback runs; one that repeats is due
again after its period. -/
def rearm (tm : Timer) : Game Unit :=
  if tm.repeats then modify fun s => { s with timers := s.timers.map fun u =>
    { u with due := if u.handle = tm.handle then u.due + u.period else u.due } }
  else modify fun s => { s with timers := s.timers.filter fun u => u.handle ≠ tm.handle }

/-- The timer with a handle fires, if it is still pending. -/
def fireTimer (handle : ℤ) : Game Unit := do
  let tm ← gets fun s => s.timers.find? fun u => u.handle = handle
  match tm with
  | none => pure ()
  | some tm => do
    rearm tm
    tm.callback.run

/-! ## Operations that no callback reaches -/

/-- `RacingMgr[k].Quit(ProfileMgr[p])`. -/
def raceQuit (k p : ℤ) : Game Unit := do
  let _ ← racingMgr k
  let _ ← profileMgr p
  Racing.quit k p

/-! ## Footprints -/

section Footprints
set_option synthInstance.maxSize 3000
variable {K : List Kind} {p : ℤ}

section Output
variable [Listed .output K]

instance {c : Reporter} {x : Game Unit} [Stays K x] : Stays K (reported p c x) := by
  unfold reported; infer_instance

section Profiles
variable [Listed (.sampTeam p) K]

section Connect
variable [Listed .samp K] [Listed .profileGame K]

instance : Stays K (greet p) := by unfold greet; infer_instance

variable [Listed .profileSignIn K] [Listed (.createTimer .profile) K]

instance : Stays K (startSession p) := by unfold startSession; infer_instance

instance [Listed .database K] [Listed .streamer K] [Listed .destroyTimer K] [Listed .counters K]
    [Listed (.insertProfile p) K] : Stays K (connectPlayer p) := by
  unfold connectPlayer; infer_instance

end Connect

section Disconnect
variable [Listed .profileTeam K] [Listed .teamRoster K]

instance : Stays K (leaveTeam p) := by unfold leaveTeam; infer_instance

variable [Listed .streamer K] [Listed .destroyTimer K] [Listed (.eraseProfile p) K]

instance : Stays K (endSession p) := by unfold endSession; infer_instance

instance {n : ℤ} [Listed .database K] [Listed (.update .profile) K] [Listed .profileItem K]
    [Listed .profileLoaded K] : Stays K (disconnectPlayer p n) := by
  unfold disconnectPlayer; infer_instance

end Disconnect
end Profiles

section Death
variable [Listed .streamer K] [Listed .pickups K]

instance {w : ℤ × ℤ} : Stays K (dropWeapon w) := by unfold dropWeapon; infer_instance

instance {n : ℤ} : Stays K (streakReward n) := by unfold streakReward; infer_instance

variable [Listed .zoneData K]

instance {q z : ℤ} : Stays K (countDeath p q z) := by unfold countDeath; infer_instance

instance {q n : ℤ} : Stays K (reportKill p q n) := by unfold reportKill; infer_instance

variable [Listed .samp K] [Listed .profileGame K] [Listed .sampMoney K] [Listed .profileMoney K]
  [Listed .profileKills K]

instance {q : ℤ} : Stays K (rewardKiller p q) := by unfold rewardKiller; infer_instance

instance {q : ℤ} [Listed .profileRole K] : Stays K (playerDeath p q) := by
  unfold playerDeath; infer_instance

end Death

instance {data : GangZoneCreationInfo} {c : CoordinatePlane} [Listed .profileVars K] :
    Stays K (chooseCorner p data c) := by unfold chooseCorner Dialog.modifyCreation; infer_instance

section Load
variable [Listed .sampZones K] [Listed .streamer K] [Listed .database K] [Listed .counters K]
  [Listed (.insertProfile (-1)) K] [Listed .teamIds K] [Listed .insertTeam K] [Listed .clearTeams K]
  [Listed .zones K] [Listed .areas K] [Listed .pickups K]
  [Listed .properties K] [Listed .destroyTimer K] [Listed (.createTimer .nothing) K]
  [Listed (.reload .team) K] [Listed (.reload .gangzone) K] [Listed (.reload .property) K]

instance : Stays K loadGameMode := by
  have hweather : Stays K (createTimer .changeWeather 300000 true) :=
    stays_createTimer .nothing rfl
  have htime : Stays K (createTimer .changeTime 60000 true) := stays_createTimer .nothing rfl
  unfold loadGameMode; infer_instance

end Load

instance {q : ℤ} [Listed .samp K] [Listed .profileRace K] [Listed .races K] :
    Stays K (raceQuit q p) := by unfold raceQuit; infer_instance

end Output

instance {r : Role} : Stays K (skillTarget p r) := by unfold skillTarget; infer_instance

instance [Listed .output K] [Listed .streamer K] [Listed .profileRole K] : Stays K (useSkill p) := by
  unfold useSkill; infer_instance

theorem stays_rearm {tm : Timer} [Listed .rearmTimer K] [Listed .destroyTimer K] :
    Stays K (rearm tm) := by
  unfold rearm
  exact within_ite (i := stays_modify .rearmTimer fun _ => ⟨_, rfl⟩)
    (j := stays_modify .destroyTimer fun _ => ⟨_, rfl⟩)

/-- The kinds of change the callback of each timer makes. -/
def TimerCallback.footprint : TimerCallback → List Kind
  | endTurfWar _ => [.output, .sampZones, .database, .zoneData, .destroyTimer, .update .gangzone]
  | turfWarWaitTimeout _ =>
    [.output, .sampZones, .database, .zoneData, .destroyTimer, .update .gangzone]
  | autoSaveProfile _ => [.output, .database, .profileItem, .profileLoaded, .update .profile]
  | changeWeather => [.output]
  | changeTime => [.output, .counters]
  | raceCountDown _ => [.output, .samp, .races, .profileRace, .destroyTimer]

theorem TimerCallback.stays_run (c : TimerCallback) : Stays c.footprint c.run := by
  cases c <;> simp only [run, footprint]
  case changeTime =>
    exact within_bind (j := fun _ =>
      (stays_modify .counters fun s => ⟨_, _, _, le_rfl, rfl⟩).bind fun _ => inferInstance)
  all_goals infer_instance

end Footprints

end FreshCity
