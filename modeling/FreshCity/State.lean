import FreshCity.Imperative.Map
import FreshCity.Imperative.Program
import FreshCity.Types

/-!
# Objects and managers

Every object lives in the manager that owns it and is reached by its key there.
Objects that timers point at also carry the address they were allocated at, so
that a left-over object and its successor under the same key can be told apart.
A callback runs in an environment that answers its reads: the clock, what SA-MP
says of the players, and the faults of the database.
-/
namespace FreshCity
open Imperative

/-! ## The surroundings -/

/-- Code outside the repository whose answers do not change over time: the code
pages of Windows, the ids SA-MP and the streamer choose for a new item given the
ids in use, the arithmetic of `int`, the functions of Boost and the order in which
`$near` puts documents. Exact arithmetic is `int = id`; in any case a number is
wrapped once, and two numbers become the same `int` where their difference becomes
zero. What `lexical_cast<int>` returns is an `int`. A `float` stands for its value as a rational; for an infinity or
a NaN, which nothing computes with, it is any rational. A query answers with documents
of its collection. -/
structure Platform where
  gbkToUTF8 : Text → Text := id
  utf8ToGBK : Text → Text := id
  streamerId : List ℤ → ℤ
  gangZoneId : List ℤ → ℤ
  int : ℤ → ℤ := id
  int_int : ∀ n, int (int n) = int n := by exact fun _ => rfl
  int_eq_int : ∀ m n, int m = int n ↔ int (m - n) = 0 := by exact fun _ _ => sub_eq_zero.symm
  sin : ℚ → ℚ := fun _ => 0
  cos : ℚ → ℚ := fun _ => 0
  lexicalCastInt : Text → Option ℤ
  lexicalCastInt_fits : ∀ t n, lexicalCastInt t = some n → -2147483648 ≤ n ∧ n < 2147483648
  lexicalCastFloat : Text → Option ℚ
  toLower : Text → Text
  tokenize : Text → List Text
  near : ℚ → ℚ → List Document → List Document
  near_subset : ∀ x y docs, near x y docs ⊆ docs

namespace Platform
variable (platform : Platform) (m n : ℤ)

@[simp] theorem int_zero : platform.int 0 = 0 := by
  rw [← sub_self (0 : ℤ)]
  exact (platform.int_eq_int 0 0).mp rfl

/-- A sum is its first part exactly if this is an `int` and the second comes to nothing. -/
theorem int_add_eq_iff : platform.int (m + n) = m ↔ platform.int m = m ∧ platform.int n = 0 := by
  have hdiff : platform.int (m + n) = platform.int m ↔ platform.int n = 0 := by
    rw [platform.int_eq_int, add_sub_cancel_left]
  constructor
  · intro h
    have hm : platform.int m = m := by rw [← h, platform.int_int]
    exact ⟨hm, hdiff.mp (h.trans hm.symm)⟩
  · rintro ⟨hm, hn⟩
    exact (hdiff.mpr hn).trans hm

end Platform

/-- What one database operation runs into: nothing, an exception, an error that is
reported afterwards, or a document that is no longer there. -/
inductive Fault where
  | none
  | throws (e : Exn)
  | error (lasterror : Text)
  | vanished
  deriving DecidableEq

/-- The answers one callback gets to its reads. `genoid` numbers the object ids it
generates, `beyond` is the memory after the terminator of a C string and
`uninitialised` is what variables hold that are never written. -/
structure Env where
  time : ℤ := 0
  clock : ℤ := 0
  faults : List Fault := []
  genoid : ℕ → { o : OID // o.isSet } := fun _ => OID.generated
  beyond : ℕ → UInt8 := fun _ => 0
  uninitialised : ℕ → ℤ := fun _ => 0
  configFile : Option Config := none
  file : Text → Option (List Text) := fun _ => none
  name : ℤ → Text := fun _ => []
  ip : ℤ → Text := fun _ => []
  connected : ℤ → Bool := fun _ => false
  pos : ℤ → Coordinate3D := fun _ => ⟨0, 0, 0⟩
  facing : ℤ → ℚ := fun _ => 0
  world : ℤ → ℤ := fun _ => 0
  interior : ℤ → ℤ := fun _ => 0
  health : ℤ → ℚ := fun _ => 0
  armour : ℤ → ℚ := fun _ => 0
  skin : ℤ → ℤ := fun _ => 0
  fightingStyle : ℤ → ℤ := fun _ => 0
  weapon : ℤ → ℕ → ℤ × ℤ := fun _ _ => (0, 0)
  inVehicle : ℤ → Bool := fun _ => false
  vehicle : ℤ → ℤ := fun _ => 0
  seat : ℤ → ℤ := fun _ => -1
  newVehicle : ℤ := 1
  target : ℤ → ℤ := fun _ => 65535
  inAnyArea : ℤ → Bool := fun _ => false
  pointInArea : ℤ → Coordinate3D → Bool := fun _ _ => false
  pickedUp : ℤ := 0
  randomColor : ℤ := 0
  randomWeather : ℤ := 0

/-- The documents, the faults still to come, and the answer to `getLastError`. -/
structure Database where
  docs : Collection → List Document := fun _ => []
  faults : List Fault := []
  lasterror : Option Text := none

/-- What SA-MP holds for the gamemode. Of a gang zone it holds the colour it was
last shown or flashed with. -/
structure Samp where
  team : ℤ → ℤ := fun _ => 255
  money : ℤ → ℤ := fun _ => 0
  score : ℤ → ℤ := fun _ => 0
  color : ℤ → ℤ := fun _ => 0
  raceCheckpoint : ℤ → Option RaceCheckpoint := fun _ => none
  zoneColor : ℤ → Option ℤ := fun _ => none
  zones : List ℤ := []

/-- The ids of the live streamed items. -/
structure Streamer where
  pickups : List ℤ := []
  areas : List ℤ := []
  mapicons : List ℤ := []
  objects : List ℤ := []

/-- A timer that has been created and neither destroyed nor, if it fires once, fired. -/
structure Timer where
  handle : ℤ
  callback : TimerCallback
  period : ℤ
  repeats : Bool
  due : ℤ
  deriving DecidableEq

/-! ## Objects -/

/-- `SaveableItem` without its collection, which the class of the item fixes. -/
structure SaveableItem where
  rawdata : Document := []
  uniqueid : OID := OID.unset

namespace SaveableItem

def isEmpty (item : SaveableItem) : Bool := item.rawdata.isEmpty

end SaveableItem

structure RacerInfo where
  currentcp : ℤ := 0
  usedtime : ℤ := 0
  sessionrank : ℤ := 0
  deriving DecidableEq

inductive RaceState where
  | none | building | joining | ready | inProgress | finished
  deriving DecidableEq

structure RaceData where
  start : ℤ := 0
  state : RaceState := .none
  countdowntimerid : ℤ := 0
  waitingplayer : ℤ := 0
  countdown : ℤ := 5
  starter : ℤ := -1
  deriving DecidableEq

/-- `Racing::Type::AIR`; every other type is driven. -/
def raceTypeAir : ℤ := 1

def raceTypeNormal : ℤ := 0

structure RaceInfo where
  creator : OID := OID.unset
  name : Text := []
  type : ℤ := raceTypeNormal
  deriving DecidableEq

structure Racing where
  item : SaveableItem := {}
  addr : ℕ := 0
  racedata : RaceData := {}
  checkpoints : List Coordinate3D := []
  racers : Map ℤ RacerInfo := ∅
  raceinfo : RaceInfo := {}

structure GangZoneCreationInfo where
  name : Text
  min : CoordinatePlane := ⟨0, 0⟩
  max : CoordinatePlane := ⟨0, 0⟩
  spawnpoint : Coordinate5D := ⟨0, 0, 0, 0, 0, 0⟩
  trigger : Coordinate3D := ⟨0, 0, 0⟩
  step : BitVec 32 := 0
  deriving DecidableEq

/-- A new `PropertyCreateInfo` leaves `value` and `profit` uninitialised. -/
structure PropertyCreateInfo where
  name : Text := []
  value : ℤ
  profit : ℤ
  pos : Coordinate3D
  deriving DecidableEq

/-- `Profile::_pvars`. Every key is only ever used at one type. -/
structure PVars where
  gzCreate : Option GangZoneCreationInfo := none
  playerLastclicked : Option ℤ := none
  propertyLastviewtime : Option ℤ := none
  propertyLastviewed : Option OID := none
  propertyCreation : Option PropertyCreateInfo := none
  raceJoined : Option ℤ := none
  raceCreate : Option Racing := none

structure AuthData where
  passwordhash : Text := []
  adminlevel : ℤ := 0
  deleted : Bool := false
  banned : Bool := false
  signedin : Bool := false
  autosavetimer : ℤ := 0
  deriving DecidableEq

structure KillCounter where
  lastkill : ℤ := 0
  counter : ℤ := 0
  deriving DecidableEq

structure GameData where
  nickname : Text := []
  money : ℤ := 0
  score : ℤ := 0
  color : ℤ := 0
  deriving DecidableEq

inductive RoleClass where
  | assault | medic | mechanic | engineer
  deriving DecidableEq

/-- `Profile::Role` and its subclasses; only an engineer holds an object. -/
structure Role where
  cls : RoleClass
  skilllastuse : ℤ := 0
  timelimit : ℤ
  musthavetarget : Bool
  obj : Option ℤ := none
  deriving DecidableEq

structure Profile where
  item : SaveableItem
  addr : ℕ
  gamearchive : Document := []
  team : OID := OID.unset
  auth : AuthData := {}
  killcounter : KillCounter := {}
  role : Option Role := none
  pvars : PVars := {}
  gamedata : GameData := {}

/-- The members `_LoadMemberData` writes, taken from another profile. -/
def Profile.takeLoaded (q pr : Profile) : Profile :=
  { q with
    gamearchive := pr.gamearchive
    auth := { q.auth with
      passwordhash := pr.auth.passwordhash
      adminlevel := pr.auth.adminlevel
      deleted := pr.auth.deleted
      banned := pr.auth.banned }
    gamedata := { q.gamedata with nickname := pr.gamedata.nickname } }

/-- What only a player's own session writes is unset in a profile nobody used yet. -/
structure Profile.IsNew (pr : Profile) : Prop where
  team : pr.team = OID.unset
  signedin : pr.auth.signedin = false
  autosavetimer : pr.auth.autosavetimer = 0
  raceJoined : pr.pvars.raceJoined = none
  money : pr.gamedata.money = 0

structure Team where
  item : SaveableItem
  name : Text := []
  onlineplayers : Map ℤ OID := ∅
  ingameteamid : ℤ
  color : ℤ := 0
  leader : OID := OID.unset

structure TurfWarInfo where
  inWar : Bool := false
  attacker : OID := OID.unset
  memberDeath : ℤ := 0
  enemyKill : ℤ := 0
  deriving DecidableEq

structure GangZoneItem where
  item : SaveableItem
  addr : ℕ
  zone : ℤ
  areaid : ℤ
  triggerid : ℤ
  name : Text
  owner : OID
  color : ℤ
  endtimerid : ℤ
  timeouttimerid : ℤ
  spawnpoint : OID
  warinfo : TurfWarInfo := {}

/-- What a zone is told from other zones by. -/
structure GangZoneItem.SameZone (x y : GangZoneItem) : Prop where
  addr : y.addr = x.addr
  zone : y.zone = x.zone
  areaid : y.areaid = x.areaid
  triggerid : y.triggerid = x.triggerid

/-- A streamed rectangle that belongs to a gang zone. -/
structure GangZoneArea where
  id : ℤ
  zoneid : ℤ
  deriving DecidableEq

inductive PickupClass where
  | medical (health : ℚ)
  | wealth (money score : ℤ)
  | weapon (weaponid ammo : ℤ)
  | turfWarTrigger (zoneid : ℤ)
  | teleportTrigger (waypoint : OID)
  | propertyMarkerOnSale (property : OID)
  | propertyMarkerSold (property : OID)
  deriving DecidableEq

/-- `EffectiveItem` with the class that gives its effect. -/
structure EffectiveItem where
  id : ℤ
  disposable : Bool
  cls : PickupClass
  deriving DecidableEq

structure Property where
  item : SaveableItem
  owner : OID := OID.unset
  name : Text := []
  value : ℤ := 0
  profit : ℤ := 0
  lastdraw : ℤ := 0
  pickupid : ℤ := 0
  pos : Coordinate3D := ⟨0, 0, 0⟩
  mapicon : Option ℤ := none

structure IdentifierAllocator where
  max : ℤ
  count : ℤ := 0
  returned : List ℤ := []
  deriving DecidableEq

structure TeamManager where
  members : Map OID Team := ∅
  idgen : IdentifierAllocator := { max := 255 }

/-! ## The server -/

/-- Everything the gamemode keeps between two callbacks, and what it has done to
its surroundings in the one that is running. -/
structure Server where
  platform : Platform
  config : Config
  database : Database := {}
  profiles : Map ℤ Profile := ∅
  teams : TeamManager := {}
  zones : Map ℤ GangZoneItem := ∅
  areas : Map ℤ GangZoneArea := ∅
  pickups : Map ℤ EffectiveItem := ∅
  properties : Map OID Property := ∅
  races : Map ℤ Racing := ∅
  timers : List Timer := []
  nexthandle : ℤ := 1
  nextaddr : ℕ := 0
  worldtime : ℤ := 11
  samp : Samp := {}
  streamer : Streamer := {}
  env : Env := {}
  genoids : ℕ := 0
  trace : List Effect := []

/-- Programs of the gamemode. -/
abbrev Game : Type → Type := Prog Server Exn

/-- Methods of an object of type `τ` that is not, or not only, in a manager. -/
abbrev Method (τ : Type) : Type → Type := Prog (τ × Server) Exn

end FreshCity
