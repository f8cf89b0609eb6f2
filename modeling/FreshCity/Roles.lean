import FreshCity.Profile

/-!
# Roles

The four roles differ in their limits, their weapons and their skill.
-/
namespace FreshCity
open Imperative Prog

namespace Role

/-! ## Constructors -/

def assault : Role := { cls := .assault, timelimit := 60, musthavetarget := true }

def medic : Role := { cls := .medic, timelimit := 60, musthavetarget := true }

def mechanic : Role := { cls := .mechanic, timelimit := 180, musthavetarget := false }

def engineer : Role := { cls := .engineer, timelimit := 60, musthavetarget := false }

/-! ## Methods -/

/-- `Role::CanPerformSkill`. -/
def canPerformSkill (r : Role) (now : ℤ) : Bool := decide (now - r.skilllastuse ≥ r.timelimit)

/-- Health, armour and weapons at a spawn. -/
def equip (p : ℤ) (armour : ℚ) (weapons : List (ℤ × ℤ)) : Game Unit := do
  sendClientMessage p .roleIntroduction
  native (.setPlayerHealth p 100)
  native (.setPlayerArmour p armour)
  forEach (fun w => native (.givePlayerWeapon p w.1 w.2)) weapons

/-- `OnSpawn`. -/
def onSpawn (r : Role) (p : ℤ) : Game Unit :=
  match r.cls with
  | .assault => equip p 100 [(24, 100), (25, 100), (29, 100)]
  | .medic => equip p 0 [(23, 100), (32, 100)]
  | .mechanic => equip p 0 [(9, 1), (25, 100), (28, 100)]
  | .engineer => equip p 0 [(16, 3), (25, 100), (22, 100)]

/-- `_obj.reset`: the old object goes. -/
def resetObject (p : ℤ) (obj : Option ℤ) : Game Unit := do
  let pr ← Profile.ref p
  Profile.modifyRole p fun q => q.role.map fun r => { r with obj := obj }
  forEach destroyDynamicObject (pr.role.bind (·.obj)).toList

/-- `OnDeath`. -/
def onDeath (r : Role) (p : ℤ) : Game Unit :=
  when (r.cls = .engineer) (resetObject p none)

/-- `Role::PerformSpecialSkill`. -/
def recordUse (p : ℤ) : Game Unit := do
  let now ← gets (·.env.time)
  Profile.modifyRole p fun q => q.role.map fun r => { r with skilllastuse := now }

/-- What the skill does before its use is recorded. -/
def skill (r : Role) (p target : ℤ) : Game Unit :=
  match r.cls with
  | .assault => do
    let pos ← generateDirectionalPoint p (5 / 2)
    native (.setPlayerPos target pos)
    sendClientMessage target .draggedByAssault
  | .medic => Profile.giveHealth target 50
  | .mechanic => do
    let env ← gets (·.env)
    raiseIf (!env.inVehicle p) (.runtimeError .notInVehicle)
    native (.repairVehicle (env.vehicle p))
  | .engineer => do
    let env ← gets (·.env)
    raiseIf (env.inVehicle p) (.runtimeError .inVehicle)
    let _ ← generateDirectionalPoint p 10
    let obj ← createDynamicObject
    resetObject p (some obj)

/-- `PerformSpecialSkill`. -/
def performSpecialSkill (r : Role) (p target : ℤ) : Game Unit := do
  r.skill p target
  recordUse p

/-! ## Footprints -/

section Footprints
variable {K : List Kind} {r : Role} {p t : ℤ}

instance {a : ℚ} {ws : List (ℤ × ℤ)} [Listed .output K] : Stays K (equip p a ws) := by
  unfold equip; infer_instance

instance [Listed .output K] : Stays K (r.onSpawn p) := by
  unfold onSpawn; cases r.cls <;> infer_instance

section Object
variable [Listed .profileRole K]

instance : Stays K (recordUse p) := by unfold recordUse; infer_instance

variable [Listed .streamer K]

instance {o : Option ℤ} : Stays K (resetObject p o) := by unfold resetObject; infer_instance

instance : Stays K (r.onDeath p) := by unfold onDeath; infer_instance

variable [Listed .output K]

instance : Stays K (r.skill p t) := by
  unfold skill; cases r.cls <;> infer_instance

instance : Stays K (r.performSpecialSkill p t) := by
  unfold performSpecialSkill; infer_instance

end Object
end Footprints

end Role
end FreshCity
