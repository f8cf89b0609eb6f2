import FreshCity.Imperative.Defined
import FreshCity.Property
import FreshCity.Racing

/-!
# Natives and the database are total

No call of a native, a timer or the database leaves the defined behaviour of the
language, whatever the state. What is undefined comes from the game's own accesses.
-/
namespace FreshCity
open Imperative Prog

section Natives
variable {p : ℤ}

instance {e : Effect} : Total (emit e) := total_modify _

instance {n : Native} : Total (native n) := total_modify _

instance {m : Message} : Total (sendClientMessage p m) := total_modify _

instance {cp : RaceCheckpoint} : Total (setPlayerRaceCheckpoint p cp) := total_bind

instance : Total (disablePlayerRaceCheckpoint p) := total_bind

instance {callback : TimerCallback} {period : ℤ} {repeats : Bool} :
    Total (createTimer callback period repeats) := total_bind

instance {handle : ℤ} : Total (destroyTimer handle) := total_bind

instance : Total allocate := total_bind

instance : Total genOID := total_bind

instance {α : Type} {member : Option α} : Total (getItem member) := total_orRaise ..

instance {c : Collection} : Total (configCollection c) := total_bind

end Natives

section Database
variable {c : Collection}

instance {f : Fault} : Total f.meet := by
  cases f
  case throws e => exact total_raise _
  all_goals exact total_pure _

instance {f : Database → Database} : Total (modifyDatabase f) := total_modify _

instance : Total nextFault := total_bind

instance {e : Effect} : Total (issue e) := total_bind

instance {q : Document → Bool} : Total (findOne c q) := total_bind

instance {doc : Document} : Total (insert c doc) := total_bind

instance {id : OID} {m : Modifier} : Total (update c id m) := total_bind

instance {id : OID} : Total (remove c id) := total_bind

instance : Total getLastError := total_bind

instance {q : Document → Bool} : Total (SaveableItem.fetch c q) := by
  unfold SaveableItem.fetch; infer_instance

instance : Total (SaveableItem.unsaved c) := total_bind

instance : Total (SaveableItem.refetch c) := by
  unfold SaveableItem.refetch; infer_instance

instance {doc : Document} {fetch : Bool} : Total (SaveableItem.create c doc fetch) := by
  unfold SaveableItem.create; infer_instance

instance {doc : Document} : Total (SaveableItem.initData doc) := by
  unfold SaveableItem.initData; infer_instance

instance {m : Modifier} {refresh : Bool} : Total (SaveableItem.update c m refresh) := by
  unfold SaveableItem.update; infer_instance

instance : Total (SaveableItem.destroy c) := by
  unfold SaveableItem.destroy; infer_instance

end Database

section Markers
set_option synthInstance.maxSize 1000
variable {id : ℤ}

instance : Total createDynamicPickup := total_bind

instance : Total (destroyDynamicPickup id) := total_modify _

instance : Total createDynamicMapIcon := total_bind

instance : Total (destroyDynamicMapIcon id) := total_modify _

instance {item : EffectiveItem} : Total (PickupManager.destruct item) := by
  unfold PickupManager.destruct; infer_instance

instance {disposable : Bool} {pickup : PickupClass} :
    Total (PickupManager.create disposable pickup) := total_bind

instance {item : EffectiveItem} : Total (PickupManager.add item) := total_bind

instance : Total (PickupManager.remove id) := total_bind

instance : Total Property.reloadMarker := by
  unfold Property.reloadMarker; infer_instance

end Markers

section Waypoint
variable {w : Waypoint} {p : ℤ}

instance {target : Coordinate5D} : Total (Waypoint.ofTarget target) := total_bind

instance : Total (w.performTeleport p) := by
  unfold Waypoint.performTeleport Waypoint.applyToPlayer Waypoint.applyToVehicle; infer_instance

end Waypoint

section Profile
variable {p : ℤ}

instance : Total (profileMgr p) := total_bind

set_option synthInstance.maxSize 1000 in
instance : Total Profile.loadMemberData := by
  unfold Profile.loadMemberData rethrowAs check; infer_instance

end Profile

/-- Money is given to a player who has a profile. -/
theorem Profile.defined_giveMoney {s : Server} {p money : ℤ} {pr : Profile}
    (hpr : s.profiles.lookup p = some pr) : Defined (Profile.giveMoney p money) s := by
  simp only [Profile.giveMoney, Profile.modifyGame, Profile.ref, resetPlayerMoney, givePlayerMoney,
    emit, defined_bind, defined_gets, defined_modify, defined_orUndefined, wp_bind, wp_gets,
    wp_modify, wp_orUndefined, Map.lookup_adjust, if_true, hpr, Option.map_some, and_self,
    Option.some.injEq, exists_eq', forall_eq']

end FreshCity
