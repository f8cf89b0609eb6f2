import FreshCity.Items

/-!
# Races and `RacingManager`

A race is kept under the id of the player who started it. It is joined, counted
down, run over its checkpoints and removed when the last racer finishes. A race
under construction is a player variable.
-/
namespace FreshCity
open Imperative Prog

/-! ## The variable `race_joined` -/

namespace Profile

def setRaceJoined (p starter : ℤ) : Game Unit := do
  emit (.setVar p .raceJoined)
  modifyRace p fun _ => some starter

def delRaceJoined (p : ℤ) : Game Unit := modifyRace p fun _ => none

end Profile

/-- `RacingMgr[k]`. -/
def racingMgr (k : ℤ) : Game Racing := do
  let member ← gets (·.races.lookup k)
  getItem member

namespace Racing

/-- A race the caller holds a reference to. -/
def ref (k : ℤ) : Game Racing := do
  let member ← gets (·.races.lookup k)
  orUndefined member

def modifyRace (k : ℤ) (g : Racing → Racing) : Game Unit :=
  modify fun s => { s with races := s.races.adjust k g }

def modifyData (k : ℤ) (g : RaceData → RaceData) : Game Unit :=
  modifyRace k fun race => { race with racedata := g race.racedata }

def modifyRacer (k p : ℤ) (g : RacerInfo → RacerInfo) : Game Unit :=
  modifyRace k fun race => { race with racers := race.racers.adjust p g }

/-- A method of a registered race. -/
def withRace {α : Type} (k : ℤ) (x : Method Racing α) : Game α :=
  focus (fun s => s.races.lookup k)
    (fun race s => { s with races := s.races.adjust k fun _ => race }) x

/-! ## Construction -/

/-- One element of the array of checkpoints. -/
def loadCheckpoint (e : Bson Field) : Method Racing Unit := do
  let single ← check (asObj e)
  let x ← check ((Doc.field? single (.index 0)).bind Bson.asNumber)
  let y ← check ((Doc.field? single (.index 1)).bind Bson.asNumber)
  let z ← check ((Doc.field? single (.index 2)).bind Bson.asNumber)
  assign fun race => { race with checkpoints := race.checkpoints ++ [⟨x, y, z⟩] }

/-- `Racing::_LoadData`. -/
def loadData : Method Racing Unit := rethrowAs .invalidRacingDocument do
  let race ← self
  let platform ← shared (gets (·.platform))
  let name ← check ((race.item.rawdata.field? .name).bind Bson.asString)
  assign fun r => { r with raceinfo := { r.raceinfo with name := platform.utf8ToGBK name } }
  let creator ← check ((race.item.rawdata.field? .creator).bind Bson.asOid)
  assign fun r => { r with raceinfo := { r.raceinfo with creator := ⟨creator⟩ } }
  let type ← check (readInt (race.item.rawdata.field? .type))
  assign fun r => { r with raceinfo := { r.raceinfo with type := type } }
  let cps ← check ((race.item.rawdata.field? .checkpoint).bind Bson.asArray)
  forEach loadCheckpoint cps

/-- The constructor that looks for a name. -/
def ofName (name : Text) (starter : ℤ) : Game Racing := do
  let platform ← gets (·.platform)
  let item ← SaveableItem.fetch .racing (byText [.name] (platform.gbkToUTF8 name))
  let addr ← allocate
  Prod.snd <$> withLocal { item := item, addr := addr } do
    loadData
    assign fun r => { r with racedata := { r.racedata with state := .joining, starter := starter } }

/-- The constructor of a new race. -/
def ofNew (name : Text) (starter : ℤ) (type : ℤ) (creator : OID) : Game Racing := do
  let item ← SaveableItem.unsaved .racing
  let addr ← allocate
  pure {
    item := item
    addr := addr
    raceinfo := { name := name, creator := creator, type := type }
    racedata := { state := .building, starter := starter } }

/-- The destructor. -/
def destruct (race : Racing) : Game Unit := do
  when (race.racedata.countdowntimerid ≠ 0) (destroyTimer race.racedata.countdowntimerid)
  forEach (fun q => do
    native (.togglePlayerControllable q true)
    disablePlayerRaceCheckpoint q
    let _ ← profileMgr q
    Profile.delRaceJoined q) race.racers.keys

/-! ## Building -/

/-- `Racing::AppendCheckpoint`. -/
def appendCheckpoint (pos : Coordinate3D) : Method Racing Unit := do
  let race ← self
  raiseIf (race.racedata.state ≠ .building) (.runtimeError .notBuilding)
  assign fun r => { r with checkpoints := r.checkpoints ++ [pos] }

/-- The document `Racing::Create` inserts. -/
def document (id : OID) (name : Text) (creator : OID) (type : ℤ) (cps : List Coordinate3D) :
    Document :=
  [(._id, .oid id.data),
   (.name, .string name),
   (.creator, .oid creator.data),
   (.type, .int type),
   (.checkpoint, .array (cps.map fun cp =>
     .object [(.index 0, .number cp.x), (.index 1, .number cp.y), (.index 2, .number cp.z)]))]

/-- `Racing::Create`. -/
def create : Method Racing Unit := do
  let race ← self
  raiseIf (race.racedata.state ≠ .building) (.runtimeError .notBuilding)
  raiseIf (race.checkpoints.length < 2) (.runtimeError .tooFewCheckpoints)
  let platform ← shared (gets (·.platform))
  let id ← shared genOID
  part (·.item) (fun it r => { r with item := it }) (SaveableItem.create .racing
    (document id (platform.gbkToUTF8 race.raceinfo.name) race.raceinfo.creator race.raceinfo.type
      race.checkpoints) false)
  assign fun r => { r with racedata := { r.racedata with state := .joining } }

/-! ## Joining and leaving -/

/-- The type SA-MP shows a checkpoint with: on the ground or in the air, and the last
one apart. -/
def checkpointType (race : Racing) (finish : Bool) : ℤ :=
  if race.raceinfo.type ≠ raceTypeAir then (if finish then 1 else 0) else (if finish then 4 else 3)

/-- `boost::unordered_map::insert` of a new racer: one who is there already is left alone. -/
def insertRacer (race : Racing) (p : ℤ) : Racing :=
  if p ∈ race.racers then race else { race with racers := race.racers.insert p {} }

/-- `Racing::Join`. -/
def join (p : ℤ) : Method Racing Unit := do
  let race ← self
  raiseIf (race.racedata.state ≠ .joining) (.runtimeError .notReadyToJoin)
  let joined ← shared (Profile.hasVar p (·.raceJoined))
  raiseIf joined (.runtimeError .alreadyInARace)
  assign fun r => r.insertRacer p
  shared (Profile.setRaceJoined p race.racedata.starter)
  let startcp ← orUndefined race.checkpoints[0]?
  let nextcp ← orUndefined race.checkpoints[1]?
  let startpoint ← shared (Waypoint.ofTarget ⟨startcp.x, startcp.y, startcp.z, 0, 0, 0⟩)
  -- the checkpoint is shown at the height of the next one
  shared (setPlayerRaceCheckpoint p
    ⟨race.checkpointType false, ⟨startcp.x, startcp.y, nextcp.z⟩, nextcp, 10⟩)
  shared (startpoint.performTeleport p)

/-- `Racing::Quit`. -/
def quit (k p : ℤ) : Game Unit := do
  let race ← ref k
  raiseIf (p ∉ race.racers) (.runtimeError .notInTheRace)
  modifyRace k fun race => { race with racers := race.racers.erase p }
  Profile.delRaceJoined p
  disablePlayerRaceCheckpoint p
  modifyData k fun d => { d with waitingplayer := d.waitingplayer - 1 }

/-! ## `RacingManager` -/

/-- `ItemManager::Add`. -/
def mgrAdd (k : ℤ) (race : Racing) : Game Bool := do
  let s ← gets id
  if k ∈ s.races then
    race.destruct
    pure false
  else
    modify fun s => { s with races := s.races.insert k race }
    pure true

/-- `ItemManager::Remove`. -/
def mgrRemove (k : ℤ) : Game Unit := do
  let member ← gets (·.races.lookup k)
  modify fun s => { s with races := s.races.erase k }
  forEach destruct member.toList

/-! ## Running -/

/-- `Racing::Ready`. -/
def ready (k : ℤ) : Game Unit := do
  let race ← ref k
  raiseIf (race.racedata.state ≠ .joining) (.runtimeError .notReadyToStart)
  forEach (fun q => do
    sendClientMessage q .raceCountDownBegins
    native (.togglePlayerControllable q false)) race.racers.keys
  let timer ← createTimer (.raceCountDown race.addr) 1000 true
  modifyData k fun d => { d with countdowntimerid := timer, state := .ready }

/-- `Racing::Finish`. -/
def finish (k : ℤ) : Game Unit := do
  let race ← ref k
  when (race.racedata.state = .inProgress) do
    forEach (fun q => sendClientMessage q .raceEnds) race.racers.keys
    mgrRemove race.racedata.starter

/-- `Racing::PlayerFinish`. -/
def playerFinish (k p : ℤ) : Game Unit := do
  let race ← ref k
  when (race.racedata.state = .inProgress) do
    let _ ← orUndefined (race.racers.lookup p)
    let now ← gets (·.env.time)
    let waiting := race.racedata.waitingplayer - 1
    let usedtime := now - race.racedata.start
    let rank := (race.racers.keys.length : ℤ) - waiting
    modifyData k fun d => { d with waitingplayer := waiting }
    modifyRacer k p fun info => { info with usedtime := usedtime, sessionrank := rank }
    disablePlayerRaceCheckpoint p
    sendClientMessage p (.raceFinished usedtime rank)
    when (waiting = 0) (finish k)

/-- Show a racer the checkpoint at an index that is not past the last. -/
def showCheckpoint (race : Racing) (p : ℤ) (cp : ℕ) : Game Unit := do
  let currentcp ← orUndefined race.checkpoints[cp]?
  if cp = race.checkpoints.length - 1 then
    setPlayerRaceCheckpoint p ⟨race.checkpointType true, currentcp, ⟨0, 0, 0⟩, 10⟩
  else do
    let nextcp ← orUndefined race.checkpoints[cp + 1]?
    setPlayerRaceCheckpoint p ⟨race.checkpointType false, currentcp, nextcp, 10⟩

/-- `Racing::PlayerReachCheckpoint`. -/
def playerReachCheckpoint (k p : ℤ) : Game Unit := do
  let race ← ref k
  when (race.racedata.state = .inProgress) do
    let info ← orRaise (.runtimeError .notInTheRace) (race.racers.lookup p)
    modifyRacer k p fun info => { info with currentcp := info.currentcp + 1 }
    if info.currentcp + 1 = race.checkpoints.length then playerFinish k p
    else showCheckpoint race p (info.currentcp + 1).toNat

/-- `Racing::Start`. -/
def start (k : ℤ) : Game Unit := do
  let race ← ref k
  raiseIf (race.racedata.state ≠ .ready) (.runtimeError .notReadyToStart)
  modifyData k fun d => { d with state := .inProgress }
  forEach (fun q => do
    sendClientMessage q .raceStarts
    playerReachCheckpoint k q
    native (.togglePlayerControllable q true)) race.racers.keys
  let race ← ref k
  let now ← gets (·.env.time)
  modifyData k fun d => { d with start := now, waitingplayer := race.racers.keys.length }

/-- `Racing::CountDown`. -/
def countDown (k : ℤ) : Game Unit := do
  let race ← ref k
  raiseIf (race.racedata.state ≠ .ready) (.runtimeError .notReadyToStart)
  if race.racedata.countdown = 0 then
    when (race.racedata.countdowntimerid ≠ 0) (destroyTimer race.racedata.countdowntimerid)
    modifyData k fun d => { d with countdowntimerid := 0 }
    start k
  else
    forEach (fun q => sendClientMessage q (.raceCountDown race.racedata.countdown)) race.racers.keys
    modifyData k fun d => { d with countdown := d.countdown - 1 }

/-! ## Footprints -/

section Footprints
set_option synthInstance.maxSize 1000
variable {K : List Kind} {k p : ℤ} {race : Racing}

instance : Stays K (racingMgr k) := within_bind

instance {n : ℤ} [Listed (.setVar .raceJoined) K] [Listed .profileRace K] :
    Stays K (Profile.setRaceJoined p n) :=
  (stays_emit (.setVar .raceJoined) _ rfl).bind fun _ => inferInstance

instance [Listed .profileRace K] : Stays K (Profile.delRaceJoined p) := by
  unfold Profile.delRaceJoined; infer_instance

instance : Stays K (ref k) := within_bind

instance {e : Bson Field} : MethodStays K (loadCheckpoint e) := by
  unfold loadCheckpoint; infer_instance

instance : MethodStays K loadData := by unfold loadData; infer_instance

instance {pos : Coordinate3D} : MethodStays K (appendCheckpoint pos) := by
  unfold appendCheckpoint; infer_instance

instance {n : Text} {q w : ℤ} {o : OID} [Listed .counters K] : Stays K (ofNew n q w o) := by
  unfold ofNew; infer_instance

section Output
variable [Listed .output K]

instance {cp : ℕ} [Listed .samp K] : Stays K (race.showCheckpoint p cp) := by
  unfold showCheckpoint; infer_instance

section Database
variable [Listed .counters K] [Listed .database K]

instance {n : Text} {q : ℤ} : Stays K (ofName n q) := by unfold ofName; infer_instance

instance [Listed (.insert .racing) K] : MethodStays K create := by unfold create; infer_instance

end Database

section Membership
variable [Listed .samp K] [Listed .profileRace K]

instance [Listed (.setVar .raceJoined) K] : MethodStays K (join p) := by unfold join; infer_instance

instance [Listed .destroyTimer K] : Stays K race.destruct := by unfold destruct; infer_instance

end Membership

variable [Listed .races K]

instance {g : Racing → Racing} : Stays K (modifyRace k g) :=
  stays_modify .races fun _ => ⟨_, rfl⟩

instance {g : RaceData → RaceData} : Stays K (modifyData k g) := by
  unfold modifyData; infer_instance

instance {g : RacerInfo → RacerInfo} : Stays K (modifyRacer k p g) := by
  unfold modifyRacer; infer_instance

instance {α : Type} {x : Method Racing α} [h : MethodStays K x] : Stays K (withRace k x) :=
  stays_focus .races (fun _ _ => ⟨_, rfl⟩) h

instance [Listed (.createTimer .race) K] : Stays K (ready k) := by
  have htimer : ∀ a, Stays K (createTimer (.raceCountDown a) 1000 true) := fun _ =>
    stays_createTimer .race rfl
  unfold ready; infer_instance

variable [Listed .samp K] [Listed .profileRace K]

instance : Stays K (quit k p) := by unfold quit; infer_instance

variable [Listed .destroyTimer K]

instance : Stays K (mgrAdd k race) :=
  (within_gets _).bind fun _ => within_ite
    (j := (stays_modify .races fun _ => ⟨_, rfl⟩).bind fun _ => within_pure _)

instance : Stays K (mgrRemove k) :=
  (within_gets _).bind fun _ => (stays_modify .races fun _ => ⟨_, rfl⟩).bind fun _ => inferInstance

instance : Stays K (finish k) := by unfold finish; infer_instance

instance : Stays K (playerFinish k p) := by unfold playerFinish; infer_instance

instance : Stays K (playerReachCheckpoint k p) := by unfold playerReachCheckpoint; infer_instance

instance : Stays K (start k) := by unfold start; infer_instance

instance : Stays K (countDown k) := by unfold countDown; infer_instance

end Output
end Footprints
end Racing
end FreshCity
