import FreshCity.Footprints

/-!
# Natives, timers and the configuration

Each native records itself, and the ones whose effect SA-MP remembers also
change what it holds. Timers get handles that are nonzero and never used twice.
-/
namespace FreshCity
open Imperative Prog

/-! ## Outputs -/

def emit (e : Effect) : Game Unit := modify fun s => { s with trace := e :: s.trace }

def native (n : Native) : Game Unit := emit (.native n)

def sendClientMessage (p : ℤ) (m : Message) : Game Unit := emit (.message p m)

def sendClientMessageToAll (m : Message) : Game Unit := emit (.messageToAll m)

/-- `SystemMessageQueue::PushMessage`. -/
def pushMessage (m : Message) : Game Unit := emit (.systemMessage m)

def setPlayerTeam (p team : ℤ) : Game Unit := do
  emit (.setPlayerTeam p team)
  modify fun s => { s with samp := { s.samp with team := Function.update s.samp.team p team } }

def resetPlayerMoney (p : ℤ) : Game Unit := do
  emit (.resetPlayerMoney p)
  modify fun s => { s with samp := { s.samp with money := Function.update s.samp.money p 0 } }

def givePlayerMoney (p money : ℤ) : Game Unit := do
  emit (.givePlayerMoney p money)
  modify fun s => { s with samp := { s.samp with
    money := Function.update s.samp.money p (s.platform.int (s.samp.money p + money)) } }

def setPlayerScore (p score : ℤ) : Game Unit := do
  emit (.setPlayerScore p score)
  modify fun s => { s with samp := { s.samp with score := Function.update s.samp.score p score } }

def setPlayerColor (p color : ℤ) : Game Unit := do
  emit (.setPlayerColor p color)
  modify fun s => { s with samp := { s.samp with color := Function.update s.samp.color p color } }

def setPlayerRaceCheckpoint (p : ℤ) (cp : RaceCheckpoint) : Game Unit := do
  emit (.setPlayerRaceCheckpoint p cp)
  modify fun s => { s with samp := { s.samp with
    raceCheckpoint := Function.update s.samp.raceCheckpoint p (some cp) } }

def disablePlayerRaceCheckpoint (p : ℤ) : Game Unit := do
  emit (.disablePlayerRaceCheckpoint p)
  modify fun s => { s with samp := { s.samp with
    raceCheckpoint := Function.update s.samp.raceCheckpoint p none } }

/-- The constructor of `GangZone`. -/
def gangZoneCreate : Game ℤ := do
  let id ← gets fun s => s.platform.gangZoneId s.samp.zones
  modify fun s => { s with samp := { s.samp with
    zones := id :: s.samp.zones
    zoneColor := Function.update s.samp.zoneColor id none } }
  pure id

/-- The destructor of `GangZone`. -/
def gangZoneDestroy (id : ℤ) : Game Unit :=
  modify fun s => { s with samp := { s.samp with
    zones := s.samp.zones.erase id
    zoneColor := Function.update s.samp.zoneColor id none } }

def gangZoneShowForAll (id color : ℤ) : Game Unit := do
  emit (.gangZoneShowForAll id color)
  modify fun s => { s with samp := { s.samp with
    zoneColor := Function.update s.samp.zoneColor id (some color) } }

def gangZoneFlashForAll (id color : ℤ) : Game Unit := do
  emit (.gangZoneFlashForAll id color)
  modify fun s => { s with samp := { s.samp with
    zoneColor := Function.update s.samp.zoneColor id (some color) } }

/-! ## Streamed items -/

def createDynamicPickup : Game ℤ := do
  let id ← gets fun s => s.platform.streamerId s.streamer.pickups
  modify fun s => { s with streamer := { s.streamer with pickups := id :: s.streamer.pickups } }
  pure id

def destroyDynamicPickup (id : ℤ) : Game Unit :=
  modify fun s => { s with streamer := { s.streamer with pickups := s.streamer.pickups.erase id } }

def createDynamicRectangle : Game ℤ := do
  let id ← gets fun s => s.platform.streamerId s.streamer.areas
  modify fun s => { s with streamer := { s.streamer with areas := id :: s.streamer.areas } }
  pure id

def destroyDynamicArea (id : ℤ) : Game Unit :=
  modify fun s => { s with streamer := { s.streamer with areas := s.streamer.areas.erase id } }

def createDynamicMapIcon : Game ℤ := do
  let id ← gets fun s => s.platform.streamerId s.streamer.mapicons
  modify fun s => { s with streamer := { s.streamer with mapicons := id :: s.streamer.mapicons } }
  pure id

def destroyDynamicMapIcon (id : ℤ) : Game Unit :=
  modify fun s => { s with streamer := { s.streamer with mapicons := s.streamer.mapicons.erase id } }

def createDynamicObject : Game ℤ := do
  let id ← gets fun s => s.platform.streamerId s.streamer.objects
  modify fun s => { s with streamer := { s.streamer with objects := id :: s.streamer.objects } }
  pure id

def destroyDynamicObject (id : ℤ) : Game Unit :=
  modify fun s => { s with streamer := { s.streamer with objects := s.streamer.objects.erase id } }

/-! ## Timers -/

/-- The conversion of an `int` to `unsigned long`. -/
def dword (n : ℤ) : ℤ := n % 4294967296

/-- `CreateTimer`. -/
def createTimer (callback : TimerCallback) (period : ℤ) (repeats : Bool) : Game ℤ := do
  let handle ← gets (·.nexthandle)
  emit (.createTimer handle callback)
  modify fun s => { s with
    timers := ⟨s.nexthandle, callback, period, repeats, s.env.clock + period⟩ :: s.timers
    nexthandle := s.nexthandle + 1 }
  pure handle

/-- `DestroyTimer`. A handle that is not pending is ignored. -/
def destroyTimer (handle : ℤ) : Game Unit := do
  emit (.destroyTimer handle)
  modify fun s => { s with timers := s.timers.filter fun t => t.handle ≠ handle }

/-! ## Configuration, addresses and object ids -/

/-- `CONFIG_INT`. -/
def configInt (k : IntKey) : Game ℤ := do
  let value ← gets fun s => s.config.int k
  orRaise (.runtimeError .noSuchNode) value

/-- `CONFIG_FLOAT`. -/
def configFloat (k : FloatKey) : Game ℚ := do
  let value ← gets fun s => s.config.float k
  orRaise (.runtimeError .noSuchNode) value

/-- `CONFIG_STRING` of a collection's name. -/
def configCollection (c : Collection) : Game Unit := do
  let known ← gets fun s => s.config.collection c
  raiseIf (!known) (.runtimeError .noSuchNode)

/-- `ReloadConfig`. A file that cannot be read leaves the old values. -/
def reloadConfig : Game Unit := do
  emit .readConfig
  let file ← gets fun s => s.env.configFile
  let config ← orRaise (.runtimeError .noSuchFile) file
  modify fun s => { s with config := config }

/-- `new`: the address of a new object. -/
def allocate : Game ℕ := do
  let a ← gets (·.nextaddr)
  modify fun s => { s with nextaddr := s.nextaddr + 1 }
  pure a

/-- `mongo::OID::gen`. -/
def genOID : Game OID := do
  let id ← gets fun s => (s.env.genoid s.genoids).val
  modify fun s => { s with genoids := s.genoids + 1 }
  pure id

/-! ## Footprints -/

section Footprints
variable {K : List Kind}

theorem stays_emit (k : Kind) [Listed k K] (e : Effect) (h : e.kind = k) : Stays K (emit e) := by
  refine stays_modify k fun s => ?_
  subst h
  cases e <;> exact ⟨_, rfl, rfl⟩

section Output
variable [Listed .output K]

instance {n : Native} : Stays K (native n) := stays_emit .output _ rfl

instance {p : ℤ} {m : Message} : Stays K (sendClientMessage p m) := stays_emit .output _ rfl

instance {m : Message} : Stays K (sendClientMessageToAll m) := stays_emit .output _ rfl

instance {m : Message} : Stays K (pushMessage m) := stays_emit .output _ rfl

instance {p team : ℤ} [Listed (.sampTeam p) K] : Stays K (setPlayerTeam p team) :=
  (stays_emit .output _ rfl).bind fun _ => stays_modify (.sampTeam p) fun _ => ⟨_, rfl⟩

instance {p : ℤ} [Listed .sampMoney K] : Stays K (resetPlayerMoney p) :=
  (stays_emit .output _ rfl).bind fun _ => stays_modify .sampMoney fun _ => ⟨_, rfl⟩

instance {p money : ℤ} [Listed .sampMoney K] : Stays K (givePlayerMoney p money) :=
  (stays_emit .output _ rfl).bind fun _ => stays_modify .sampMoney fun _ => ⟨_, rfl⟩

section Samp
variable [Listed .samp K]

instance {p score : ℤ} : Stays K (setPlayerScore p score) :=
  (stays_emit .output _ rfl).bind fun _ => stays_modify .samp fun _ => ⟨_, _, _, rfl⟩

instance {p color : ℤ} : Stays K (setPlayerColor p color) :=
  (stays_emit .output _ rfl).bind fun _ => stays_modify .samp fun _ => ⟨_, _, _, rfl⟩

instance {p : ℤ} {cp : RaceCheckpoint} : Stays K (setPlayerRaceCheckpoint p cp) :=
  (stays_emit .output _ rfl).bind fun _ => stays_modify .samp fun _ => ⟨_, _, _, rfl⟩

instance {p : ℤ} : Stays K (disablePlayerRaceCheckpoint p) :=
  (stays_emit .output _ rfl).bind fun _ => stays_modify .samp fun _ => ⟨_, _, _, rfl⟩

end Samp

section Zones
variable [Listed .sampZones K]

instance {id color : ℤ} : Stays K (gangZoneShowForAll id color) :=
  (stays_emit .output _ rfl).bind fun _ => stays_modify .sampZones fun _ => ⟨_, _, rfl⟩

instance {id color : ℤ} : Stays K (gangZoneFlashForAll id color) :=
  (stays_emit .output _ rfl).bind fun _ => stays_modify .sampZones fun _ => ⟨_, _, rfl⟩

end Zones
end Output

instance [Listed .sampZones K] : Stays K gangZoneCreate :=
  (within_gets _).bind fun _ =>
    (stays_modify .sampZones fun _ => ⟨_, _, rfl⟩).bind fun _ => within_pure _

instance [Listed .sampZones K] {id : ℤ} : Stays K (gangZoneDestroy id) :=
  stays_modify .sampZones fun _ => ⟨_, _, rfl⟩

section Streamer
variable [Listed .streamer K]

theorem stays_streamer {f : Server → Streamer} :
    Stays K (modify fun s => { s with streamer := f s }) := stays_modify .streamer fun _ => ⟨_, rfl⟩

instance : Stays K createDynamicPickup :=
  (within_gets _).bind fun _ => stays_streamer.bind fun _ => within_pure _

instance {id : ℤ} : Stays K (destroyDynamicPickup id) := stays_streamer

instance : Stays K createDynamicRectangle :=
  (within_gets _).bind fun _ => stays_streamer.bind fun _ => within_pure _

instance {id : ℤ} : Stays K (destroyDynamicArea id) := stays_streamer

instance : Stays K createDynamicMapIcon :=
  (within_gets _).bind fun _ => stays_streamer.bind fun _ => within_pure _

instance {id : ℤ} : Stays K (destroyDynamicMapIcon id) := stays_streamer

instance : Stays K createDynamicObject :=
  (within_gets _).bind fun _ => stays_streamer.bind fun _ => within_pure _

instance {id : ℤ} : Stays K (destroyDynamicObject id) := stays_streamer

end Streamer

section Timers
variable [Listed .output K]

theorem stays_createTimer (target : TimerTarget) [Listed (.createTimer target) K]
    {c : TimerCallback} (hc : c.target = target) {period : ℤ} {r : Bool} :
    Stays K (createTimer c period r) :=
  (within_gets _).bind fun _ => (stays_emit .output _ rfl).bind fun _ =>
    (stays_modify (.createTimer target) fun _ => ⟨_, hc, rfl, rfl⟩).bind fun _ => within_pure _

instance [Listed .destroyTimer K] {handle : ℤ} : Stays K (destroyTimer handle) :=
  (stays_emit .output _ rfl).bind fun _ => stays_modify .destroyTimer fun _ => ⟨_, rfl⟩

end Timers

instance (k : IntKey) : Stays K (configInt k) := within_bind

instance (k : FloatKey) : Stays K (configFloat k) := within_bind

instance (c : Collection) : Stays K (configCollection c) := within_bind

instance [Listed .readConfig K] [Listed .config K] : Stays K reloadConfig :=
  (stays_emit .readConfig _ rfl).bind fun _ => (within_gets _).bind fun _ =>
    (within_orRaise _ _).bind fun _ => stays_modify .config fun _ => ⟨_, rfl⟩

instance [Listed .counters K] : Stays K allocate :=
  (within_gets _).bind fun _ =>
    (stays_modify .counters fun _ => ⟨_, _, _, Nat.le_succ _, rfl⟩).bind fun _ => within_pure _

instance [Listed .counters K] : Stays K genOID :=
  (within_gets _).bind fun _ =>
    (stays_modify .counters fun _ => ⟨_, _, _, le_rfl, rfl⟩).bind fun _ => within_pure _

end Footprints
end FreshCity
