import FreshCity.Dialogs

/-!
# Commands

The command table gives each command a level and flags, and `CommandManager::Exec`
checks both before it runs the command. What a command opens a dialog for is
checked nowhere else.
-/
namespace FreshCity
open Imperative Prog

/-- The commands, by the names of their callbacks. -/
inductive CommandId where
  | getVehicle | teleportMain | goToPlayer | getPlayer | serverMgmt | gangZoneMain | createGangZone
  | propertyMain | importProperty | racingMain | createRaceAppendCP | createRaceDone | raceStart
  | raceJoin
  deriving DecidableEq

/-! ## `CommandRequirement` -/

def needRegistered : BitVec 32 := 1

def needSignedIn : BitVec 32 := 2

def donotRegistered : BitVec 32 := 4

def donotSignedIn : BitVec 32 := 8

namespace CommandId

def all : List CommandId :=
  [getVehicle, teleportMain, goToPlayer, getPlayer, serverMgmt, gangZoneMain, createGangZone,
   propertyMain, importProperty, racingMain, createRaceAppendCP, createRaceDone, raceStart, raceJoin]

def name : CommandId → Text
  | getVehicle => ascii "v"
  | teleportMain => ascii "tp"
  | goToPlayer => ascii "goto"
  | getPlayer => ascii "get"
  | serverMgmt => ascii "s"
  | gangZoneMain => ascii "gz"
  | createGangZone => ascii "gzc"
  | propertyMain => ascii "p"
  | importProperty => ascii "importprop"
  | racingMain => ascii "r"
  | createRaceAppendCP => ascii "rcacp"
  | createRaceDone => ascii "rcf"
  | raceStart => ascii "rstart"
  | raceJoin => ascii "rjoin"

def reqlevel : CommandId → ℤ
  | getVehicle => 0
  | teleportMain => 0
  | goToPlayer => 0
  | getPlayer => 1
  | racingMain => 0
  | raceJoin => 0
  | _ => 65535

def flags : CommandId → BitVec 32
  | getVehicle => 0
  | goToPlayer => 0
  | _ => needSignedIn

def ofName (cmd : Text) : Option CommandId := all.find? fun c => c.name = cmd

end CommandId

namespace Command

/-! ## Callbacks -/

/-- `v`. -/
def getVehicle (p : ℤ) (cmdline : Text) : Game Unit := do
  let env ← gets (·.env)
  let mid := (scanInt cmdline).getD (-1)
  let pos := env.pos p
  native (.createVehicle mid { pos with z := pos.z + 1 / 2 } (env.facing p))
  native (.linkVehicleToInterior env.newVehicle (env.interior p))
  native (.setVehicleVirtualWorld env.newVehicle (env.world p))
  native (.putPlayerInVehicle p env.newVehicle 0)

/-- `tp`. -/
def teleportMain (p : ℤ) (cmdline : Text) : Game Unit :=
  if cmdline ≠ [] then do
    let point ← Waypoint.ofTitle cmdline
    point.performTeleport p
  else showDialog p .teleportMain .teleportMenu

/-- `goto`. -/
def goToPlayer (p : ℤ) (cmdline : Text) : Game Unit := do
  let env ← gets (·.env)
  let targetid := (scanInt cmdline).getD (-1)
  raiseIf (!env.connected targetid) (.runtimeError .usageGoto)
  let _ ← profileMgr targetid
  let point ← Waypoint.ofTarget (Profile.detailedPos env targetid)
  point.performTeleport p

/-- `get`. -/
def getPlayer (p : ℤ) (cmdline : Text) : Game Unit := do
  let env ← gets (·.env)
  let targetid := (scanInt cmdline).getD (-1)
  raiseIf (!env.connected targetid) (.runtimeError .usageGet)
  let point ← Waypoint.ofTarget (Profile.detailedPos env p)
  point.performTeleport targetid

/-- `gzc`. -/
def createGangZone (p : ℤ) : Game Unit := do
  let creating ← Profile.hasVar p (·.gzCreate)
  raiseIf (!creating) (.runtimeError .notCreatingZone)
  showDialog p .gangZoneCreateProcess .zoneCreationMenu

/-- A token of a line. Nothing checks that the iterator is still in the line. -/
abbrev tokenAt (platform : Platform) (line : Text) (i : ℕ) : Game Text :=
  orUndefined (platform.tokenize line)[i]?

/-- The property on a line, once its position is read. -/
def importAt (platform : Platform) (line : Text) (pos : Coordinate3D) : Game Unit := do
  let name ← tokenAt platform line 4
  let value ← tokenAt platform line 5
  let value ← orRaise .badLexicalCast (platform.lexicalCastInt value)
  let profit ← tokenAt platform line 6
  let profit ← orRaise .badLexicalCast (platform.lexicalCastInt profit)
  let prop ← Property.ofNew name pos profit value
  let _ ← PropertyManager.add prop
  pure ()

/-- One line of the file `importprop` reads. -/
def importLine (line : Text) : Game Unit := do
  let platform ← gets (·.platform)
  let x ← tokenAt platform line 0
  let x ← orRaise .badLexicalCast (platform.lexicalCastFloat x)
  let y ← tokenAt platform line 1
  let y ← orRaise .badLexicalCast (platform.lexicalCastFloat y)
  let z ← tokenAt platform line 2
  let z ← orRaise .badLexicalCast (platform.lexicalCastFloat z)
  let interior ← tokenAt platform line 3
  let interior ← orRaise .badLexicalCast (platform.lexicalCastInt interior)
  when (interior = 0) (importAt platform line ⟨x, y, z⟩)

/-- `importprop`. -/
def importProperty (cmdline : Text) : Game Unit := do
  let env ← gets (·.env)
  let lines ← orRaise (.runtimeError .noSuchFile) (env.file cmdline)
  forEach importLine lines

/-- A method of the race a player is building. -/
def withRaceCreate {α : Type} (p : ℤ) (x : Method Racing α) : Game α := do
  let _ ← Profile.getVar p (·.raceCreate)
  focus (fun s => (s.profiles.lookup p).bind (·.pvars.raceCreate))
    (fun race s => { s with profiles := s.profiles.adjust p fun q =>
      { q with pvars := { q.pvars with raceCreate := some race } } }) x

/-- `rcacp`. -/
def createRaceAppendCP (p : ℤ) : Game Unit := do
  let env ← gets (·.env)
  withRaceCreate p (Racing.appendCheckpoint (env.pos p))

/-- `rcf`. A race that was never joined has nothing to undo when it is deleted. -/
def createRaceDone (p : ℤ) : Game Unit := do
  withRaceCreate p Racing.create
  Profile.delVar p fun v => { v with raceCreate := none }

/-- `rstart`. -/
def raceStart (p : ℤ) : Game Unit := do
  let _ ← racingMgr p
  Racing.ready p

/-- `rjoin`. -/
def raceJoin (p : ℤ) (cmdline : Text) : Game Unit := do
  let starter := (scanInt cmdline).getD (-1)
  let _ ← racingMgr starter
  Racing.withRace starter (Racing.join p)

/-- The callback of each command. -/
def run (p : ℤ) (cmdline : Text) : CommandId → Game Unit
  | .getVehicle => getVehicle p cmdline
  | .teleportMain => teleportMain p cmdline
  | .goToPlayer => goToPlayer p cmdline
  | .getPlayer => getPlayer p cmdline
  | .serverMgmt => showDialog p .serverMain .serverMenu
  | .gangZoneMain => showDialog p .gangZoneMain .zoneMenu
  | .createGangZone => createGangZone p
  | .propertyMain => showDialog p .propertyMain .propertyMenu
  | .importProperty => importProperty cmdline
  | .racingMain => showDialog p .racingMain .raceMenu
  | .createRaceAppendCP => createRaceAppendCP p
  | .createRaceDone => createRaceDone p
  | .raceStart => raceStart p
  | .raceJoin => raceJoin p cmdline

end Command

/-! ## `CommandManager::Exec` -/

/-- `MATCHREQ`. -/
def matchReq (flags req : BitVec 32) : Bool := flags &&& req = req

/-- The checks `Exec` makes before it runs a command. -/
def CommandId.require (c : CommandId) (player : Profile) : Game Unit := do
  when (c.flags ≠ 0) do
    raiseIf (matchReq c.flags needRegistered ∧ player.item.isEmpty) (.runtimeError .needRegistered)
    raiseIf (matchReq c.flags needSignedIn ∧ !player.auth.signedin) (.runtimeError .needSignedIn)
    raiseIf (matchReq c.flags donotRegistered ∧ !player.item.isEmpty)
      (.runtimeError .donotRegistered)
    raiseIf (matchReq c.flags donotSignedIn ∧ player.auth.signedin) (.runtimeError .donotSignedIn)
  raiseIf (c.reqlevel > player.auth.adminlevel) (.runtimeError (.needLevel c.reqlevel))

/-- Whether the checks let a player through. -/
def CommandId.accepts (c : CommandId) (player : Profile) : Bool :=
  !(matchReq c.flags needRegistered && player.item.isEmpty) &&
    !(matchReq c.flags needSignedIn && !player.auth.signedin) &&
    !(matchReq c.flags donotRegistered && !player.item.isEmpty) &&
    !(matchReq c.flags donotSignedIn && player.auth.signedin) &&
    decide (c.reqlevel ≤ player.auth.adminlevel)

theorem CommandId.wp_require {c : CommandId} {player : Profile} {Q : Unit → Server → Prop}
    {E : Exn → Server → Prop} {s : Server} (hQ : c.accepts player = true → Q () s)
    (hE : ∀ e, E e s) : wp (c.require player) Q E s := by
  by_cases h0 : c.flags = 0
  · have hno : ∀ req ∈ [needRegistered, needSignedIn, donotRegistered, donotSignedIn],
        matchReq c.flags req = false := by simp [h0, matchReq, needRegistered, needSignedIn,
          donotRegistered, donotSignedIn]
    simp only [require, h0, ne_eq, not_true_eq_false, wp_bind, wp_when, wp_raiseIf, if_false]
    split
    · exact hE _
    · exact hQ (by grind [accepts])
  · simp only [require, ne_eq, h0, not_false_eq_true, wp_bind, wp_when, wp_raiseIf, if_true]
    repeat' split
    all_goals first
      | exact hE _
      | exact hQ (by grind [accepts])

def cmdMgrExec (p : ℤ) (cmd cmdline : Text) : Game Unit := do
  let command ← orRaise (.runtimeError .unregisteredCommand) (CommandId.ofName cmd)
  let player ← profileMgr p
  command.require player
  Command.run p cmdline command

/-! ## Footprints -/

namespace Command

/-- The kinds of change each command makes. -/
def footprint : CommandId → List Kind
  | .teleportMain => [.output, .database]
  | .importProperty => [.output, .database, .counters, .streamer, .pickups, .properties,
      .insert .property]
  | .createRaceAppendCP => [.profileVars]
  | .createRaceDone => [.output, .database, .counters, .profileVars, .insert .racing]
  | .raceStart => [.output, .races, .createTimer .race]
  | .raceJoin => [.output, .samp, .profileRace, .races, .setVar .raceJoined]
  | _ => [.output]

set_option synthInstance.maxSize 1000

instance {K : List Kind} {α : Type} {p : ℤ} {x : Method Racing α} [Listed .profileVars K]
    [h : MethodStays K x] : Stays K (withRaceCreate p x) :=
  within_bind (j := fun _ => stays_focus .profileVars (fun race _ =>
    ⟨p, fun q => { q.pvars with raceCreate := some race }, rfl⟩) h)

section Import
variable {K : List Kind} {line : Text} [Listed .output K] [Listed .database K] [Listed .counters K]
  [Listed .streamer K] [Listed .pickups K] [Listed .properties K] [Listed (.insert .property) K]

instance {platform : Platform} {pos : Coordinate3D} : Stays K (importAt platform line pos) := by
  unfold importAt; infer_instance

instance : Stays K (importLine line) := by unfold importLine; infer_instance

end Import

/-- The callback of each command stays within its footprint. -/
theorem stays_run (p : ℤ) (cmdline : Text) (c : CommandId) :
    Stays (footprint c) (run p cmdline c) := by
  cases c <;> simp only [run, footprint]
  case getVehicle => unfold getVehicle; infer_instance
  case teleportMain => unfold teleportMain; infer_instance
  case goToPlayer => unfold goToPlayer; infer_instance
  case getPlayer => unfold getPlayer; infer_instance
  case createGangZone => unfold createGangZone; infer_instance
  case importProperty => unfold importProperty; infer_instance
  case createRaceAppendCP => unfold createRaceAppendCP; infer_instance
  case createRaceDone => unfold createRaceDone; infer_instance
  case raceStart => unfold raceStart; infer_instance
  case raceJoin => unfold raceJoin; infer_instance
  all_goals infer_instance

end Command

instance {K : List Kind} {c : CommandId} {player : Profile} : Stays K (c.require player) := by
  unfold CommandId.require; infer_instance

end FreshCity
