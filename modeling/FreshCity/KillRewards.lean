import FreshCity.Imperative.Added
import FreshCity.Kills
import FreshCity.Markers

/-!
# The pickups of a death

A dead player's weapons are handed to the manager of pickups one by one. The pickup for a
streak of kills is created too, but no manager takes it, so that it goes with the callback.
-/
namespace FreshCity
open Imperative Prog Run

/-! ## What is due -/

namespace KillCounter

/-- The counter after one more kill. -/
def next (k : KillCounter) (interval now : ℤ) : ℤ :=
  if k.counter ≠ 0 ∧ now - k.lastkill > interval then 1 else k.counter + 1

/-- One more kill belongs to a streak. -/
def continues (k : KillCounter) (interval now : ℤ) : Bool :=
  decide (1 ≤ k.counter) && decide (now - k.lastkill ≤ interval)

theorem two_le_next_iff {k : KillCounter} {interval now : ℤ} :
    2 ≤ k.next interval now ↔ k.continues interval now = true := by
  rw [next, continues, Bool.and_eq_true, decide_eq_true_eq, decide_eq_true_eq]
  split <;> omega

end KillCounter

/-- The pickup that the switch creates for a number of kills in a row. -/
def rewardClass (config : Config) (kills : ℤ) : Option PickupClass :=
  if kills = 1 then none
  else if kills = 2 then (config.float .medicalpickup).map PickupClass.medical
  else if kills = 3 then some (.weapon 16 3)
  else if kills = 4 then (config.int .wealthpickupmoney).bind fun money =>
    (config.int .wealthpickupscore).map fun score => .wealth money score
  else some (.weapon 38 15)

namespace Server
variable (s : Server)

/-- The pickups of the weapons a dead player held. -/
def drops (p : ℤ) : List PickupClass := (Profile.weapons s.env p).map fun w => .weapon w.1 w.2

/-- `Gaming.killinterval`. -/
def killInterval : ℤ := (s.config.int .killinterval).getD 0

/-- The kills in a row of a player who kills once more. -/
def streak (killer : Profile) : ℤ := killer.killcounter.next s.killInterval s.env.time

/-- The pickup that is due for a streak. -/
def rewards (killer : Profile) : List PickupClass :=
  if 2 ≤ s.streak killer then (rewardClass s.config (s.streak killer)).toList else []

/-- The manager of pickups holds what it held, and one pickup of each of these classes. -/
def Registers (t : Server) (classes : List PickupClass) : Prop :=
  ∃ m, Added EffectiveItem.id EffectiveItem.cls s.pickups classes m ∧
    ∀ i item, m.lookup i = some item → t.pickups.lookup i = some item

/-- The manager of pickups was given pickups of these classes, and no others. -/
def Dropped (classes : List PickupClass) (t : Server) : Prop :=
  Added EffectiveItem.id EffectiveItem.cls s.pickups classes t.pickups

/-- The kill counter of a player. -/
def killsOf (p : ℤ) : Option KillCounter := (s.profiles.lookup p).map (·.killcounter)

/-- A death so far: pickups of these classes were handed over, and what the rest of the
callback reads is as before. -/
structure Fallen (classes : List PickupClass) (t : Server) : Prop where
  stocked : t.Stocked
  dropped : s.Dropped classes t
  env : t.env = s.env
  config : t.config = s.config
  kills : ∀ p, t.killsOf p = s.killsOf p

end Server

/-! ## What a death hands over -/

section Death
open Server
variable {s u : Server} {p killerid : ℤ} {classes : List PickupClass}

/-- The kinds that leave alone what a death reads and hands over. -/
abbrev fallenKinds : List Kind :=
  [.output, .samp, .sampMoney, .profileGame, .profileMoney, .profileRole]

theorem killsOf_adjust {t : Server} {q : ℤ} {f : Profile → Profile}
    (hf : ∀ pr, (f pr).killcounter = pr.killcounter)
    (ht : t.profiles = s.profiles.adjust q f) : t.killsOf p = s.killsOf p := by
  rw [killsOf, killsOf, ht]
  exact Map.map_lookup_adjust hf _ q p

theorem Kind.fallen {k : Kind} {a b : Server} (hk : k ∈ fallenKinds) (h : k.change a b)
    (ha : s.Fallen classes a) : s.Fallen classes b := by
  simp only [List.mem_cons, List.not_mem_nil, or_false] at hk
  have hframe := frame h
  have hmap : ∀ q (f : Profile → Profile), b = { a with profiles := a.profiles.adjust q f } →
      (∀ pr, (f pr).killcounter = pr.killcounter) → s.Fallen classes b := by
    rintro q f rfl hf
    exact ⟨⟨ha.stocked.fresh, ha.stocked.live⟩, ha.dropped, ha.env, ha.config,
      fun p => (killsOf_adjust hf rfl).trans (ha.kills p)⟩
  rcases hk with rfl | rfl | rfl | rfl | rfl | rfl
  · obtain ⟨e, -, rfl⟩ := h
    exact ⟨⟨ha.stocked.fresh, ha.stocked.live⟩, ha.dropped, ha.env, ha.config, ha.kills⟩
  · obtain ⟨_, _, _, rfl⟩ := h
    exact ⟨⟨ha.stocked.fresh, ha.stocked.live⟩, ha.dropped, ha.env, ha.config, ha.kills⟩
  · obtain ⟨_, rfl⟩ := h
    exact ⟨⟨ha.stocked.fresh, ha.stocked.live⟩, ha.dropped, ha.env, ha.config, ha.kills⟩
  · obtain ⟨q, g, rfl⟩ := h
    exact hmap q _ rfl fun _ => rfl
  · obtain ⟨q, g, rfl⟩ := h
    exact hmap q _ rfl fun _ => rfl
  · obtain ⟨q, g, rfl⟩ := h
    exact hmap q _ rfl fun _ => rfl

instance (priority := low) keeps_fallen {α : Type} {x : Game α} [hx : Stays fallenKinds x] :
    Keeps (s.Fallen classes) x :=
  hx.keeps fun _ hk _ _ hab => Kind.fallen hk hab

/-- The kinds that leave the registered pickups alone. -/
abbrev droppedKinds : List Kind := [.output, .streamer, .zoneData, .profileKills]

instance (priority := low) keeps_dropped {α : Type} {x : Game α} [hx : Stays droppedKinds x] :
    Keeps (s.Dropped classes) x := by
  refine hx.keeps fun k hk a b hab ha => ?_
  have hpickups : b.pickups = a.pickups := (Kind.frame hab).pickups (by rintro rfl; simp at hk)
  rw [Dropped, hpickups]
  exact ha

/-- The object of an engineer goes. -/
instance {role : Role} : Keeps (s.Fallen classes) (role.onDeath p) := by
  have hgone : ∀ objects : List ℤ, Keeps (s.Fallen classes) (forEach destroyDynamicObject objects) :=
    fun objects => keeps_of_wp fun u hu => by
      refine wp_mono (wp_forEach objects hu fun object _ t ht => ?_) (fun _ _ h => h) (fun _ _ h => h)
      exact ⟨⟨ht.stocked.fresh, ht.stocked.live⟩, ht.dropped, ht.env, ht.config, ht.kills⟩
  unfold Role.onDeath Role.resetObject
  infer_instance

/-- One weapon that is dropped. -/
theorem wp_dropWeapon {w : ℤ × ℤ} (h : s.Fallen classes u) : wp (dropWeapon w)
    (fun _ => s.Fallen (classes ++ [.weapon w.1 w.2])) (fun _ _ => True) u := by
  rw [dropWeapon, wp_bind]
  refine wp_mono (PickupManager.wp_create h.stocked) (fun item v hv => ?_) (fun _ _ _ => trivial)
  obtain ⟨-, hcls, hoffers⟩ := hv
  rw [wp_bind]
  refine wp_mono (PickupManager.wp_add hoffers) (fun _ t ht => ?_) (fun _ _ _ => trivial)
  obtain ⟨⟨_, _, rfl⟩, hstocked, hpickups⟩ := ht
  refine ⟨hstocked, ?_, h.env, h.config, h.kills⟩
  rw [Dropped, hpickups, ← hcls]
  exact h.dropped.snoc hoffers.new

/-- All weapons that are dropped. -/
theorem wp_dropWeapons {weapons : List (ℤ × ℤ)} (h : s.Fallen [] u) :
    wp (forEach dropWeapon weapons) (fun _ => s.Fallen (weapons.map fun w => .weapon w.1 w.2))
      (fun _ _ => True) u := by
  refine wp_forEach_visited (I := fun (pre : List (ℤ × ℤ)) =>
    s.Fallen (pre.map fun w => .weapon w.1 w.2)) h fun pre w post _ t ht => ?_
  rw [List.map_append, List.map_singleton]
  exact wp_dropWeapon ht

/-- The count of a kill, and what the switch needs for it. -/
theorem wp_killCounter {killer : Profile} (h : s.Fallen classes u)
    (hkiller : s.profiles.lookup killerid = some killer) : wp (Profile.killCounter killerid)
    (fun kills t => kills = s.streak killer ∧ s.Dropped classes t ∧ t.config = s.config)
    (fun _ _ => True) u := by
  have hkills := h.kills killerid
  rw [killsOf, killsOf, hkiller, Option.map_some, Option.map_eq_some_iff] at hkills
  obtain ⟨pr, hpr, hcounter⟩ := hkills
  simp only [Profile.killCounter, configInt, Profile.modifyKills, Profile.ref, wp_bind, wp_gets,
    wp_orRaise, wp_modify, wp_orUndefined, Map.lookup_adjust, if_true, hpr, Option.map_some,
    Option.some.injEq, forall_eq', wp_pure, implies_true, and_true]
  intro interval hinterval
  rw [h.config] at hinterval
  refine ⟨?_, h.dropped, h.config⟩
  rw [hcounter, h.env, streak, killInterval, hinterval, Option.getD_some, KillCounter.next]

/-- The switch creates the pickup that is due. -/
theorem wp_streakReward {kills : ℤ} (h : s.Dropped classes u) (hconfig : u.config = s.config) :
    wp (streakReward kills)
      (fun _ t => s.Dropped classes t ∧ (2 ≤ kills → (rewardClass s.config kills).isSome = true))
      (fun _ _ => True) u := by
  have hkept : wp (streakReward kills) (fun _ => s.Dropped classes) (fun _ => s.Dropped classes) u :=
    Within.wp_of_keeps inferInstance h
  have hdue : wp (streakReward kills)
      (fun _ _ => 2 ≤ kills → (rewardClass s.config kills).isSome = true) (fun _ _ => True) u := by
    simp only [streakReward, configFloat, configInt, PickupManager.create, createDynamicPickup,
      wp_ite, wp_pure, wp_bind, wp_map, wp_gets, wp_orRaise, wp_modify, hconfig, rewardClass,
      implies_true, and_true]
    split
    case isTrue => omega
    split
    case isTrue => simp +contextual
    split
    case isTrue => simp
    split
    case isTrue => simp +contextual
    case isFalse => simp
  exact wp_mono (wp_and hkept hdue) (fun _ _ ht => ht) (fun _ _ _ => trivial)

/-- What a kill brings hands over no pickup. -/
theorem wp_rewardKiller_dropped {killer : Profile} (h : s.Fallen classes u)
    (hkiller : s.profiles.lookup killerid = some killer) : wp (rewardKiller p killerid)
    (fun _ t => s.Dropped classes t ∧
      (2 ≤ s.streak killer → (rewardClass s.config (s.streak killer)).isSome = true))
    (fun _ _ => True) u := by
  rw [rewardKiller]
  refine wp_bind_keeps inferInstance h fun _ u hu => ?_
  refine wp_bind_keeps inferInstance hu fun _ u hu => ?_
  refine wp_bind_keeps inferInstance hu fun _ u hu => ?_
  refine wp_bind_keeps inferInstance hu fun _ u hu => ?_
  refine wp_bind_keeps inferInstance hu fun _ u hu => ?_
  rw [wp_bind]
  refine wp_mono (wp_killCounter hu hkiller) (fun kills u hu => ?_) (fun _ _ _ => trivial)
  obtain ⟨rfl, hdropped, hconfig⟩ := hu
  rw [wp_bind]
  refine wp_mono (wp_streakReward hdropped hconfig) (fun reward u hu => ?_) (fun _ _ _ => trivial)
  obtain ⟨hdropped, hdue⟩ := hu
  have hreport : Keeps (s.Dropped classes) (reportKill p killerid (s.streak killer)) := inferInstance
  have hgone : Keeps (s.Dropped classes) (forEach PickupManager.destruct reward.toList) :=
    inferInstance
  rw [wp_ensure]
  refine wp_mono (hreport.wp_of_keeps hdropped) (fun _ v hv => ?_) (fun _ v hv => ?_)
  · exact wp_mono (hgone.wp_of_keeps hv) (fun _ _ ht => ⟨ht, hdue⟩) (fun _ _ _ => trivial)
  · exact wp_mono (hgone.wp_of_keeps hv) (fun _ _ _ => trivial) (fun _ _ _ => trivial)

theorem wp_playerDeath_dropped {killer : Profile} (hkill : killerid ≠ invalidPlayerId)
    (h : s.Fallen [] u) (hkiller : s.profiles.lookup killerid = some killer) :
    wp (playerDeath p killerid)
      (fun _ t => s.Dropped (s.drops p) t ∧
        (2 ≤ s.streak killer → (rewardClass s.config (s.streak killer)).isSome = true))
      (fun _ _ => True) u := by
  rw [playerDeath]
  refine wp_bind_keeps inferInstance h fun _ u hu => ?_
  refine wp_bind_keeps inferInstance hu fun role u hu => ?_
  refine wp_bind_keeps inferInstance hu fun _ u hu => ?_
  rw [wp_bind, wp_gets, hu.env]
  refine wp_bind_keeps inferInstance hu fun _ u hu => ?_
  rw [wp_bind]
  refine wp_mono (wp_dropWeapons hu) (fun _ u hu => ?_) (fun _ _ _ => trivial)
  rw [when_true hkill]
  exact wp_rewardKiller_dropped hu hkiller

end Death

/-- A death that is handled hands over one pickup for each weapon, and the pickup for a streak
is there too exactly if none is due. -/
theorem death_rewards_registered_iff (s t : Server) (p killerid reason : ℤ) (killer : Profile)
    (hkill : killerid ≠ invalidPlayerId) (hkiller : s.profiles.lookup killerid = some killer)
    (hstocked : s.Stocked) (hrun : s.HandlesDeath p killerid reason t) :
    s.Registers t (s.drops p) ∧
      (s.Registers t (s.drops p ++ s.rewards killer) ↔
        killer.killcounter.continues s.killInterval s.env.time = false) := by
  have hstart : s.Fallen [] s := ⟨hstocked, .refl, rfl, rfl, fun _ => rfl⟩
  have hrun' : wp (unguardedDeath p killerid reason)
      (fun _ t => s.Dropped (s.drops p) t ∧
        (2 ≤ s.streak killer → (rewardClass s.config (s.streak killer)).isSome = true))
      (fun _ _ => True) s :=
    wp_bind_keeps inferInstance hstart fun _ _ hu =>
      wp_bind_keeps inferInstance hu fun _ _ hu => wp_playerDeath_dropped hkill hu hkiller
  rw [wp_of_ok hrun] at hrun'
  obtain ⟨hdropped, hdue⟩ := hrun'
  have hdrops : s.Registers t (s.drops p) := ⟨t.pickups, hdropped, fun _ _ h => h⟩
  refine ⟨hdrops, ?_⟩
  rw [← Bool.not_eq_true, ← KillCounter.two_le_next_iff, ← Server.streak, Server.rewards]
  by_cases hstreak : 2 ≤ s.streak killer
  · obtain ⟨cls, hcls⟩ := Option.isSome_iff_exists.mp (hdue hstreak)
    rw [if_pos hstreak, hcls]
    refine iff_of_false ?_ (not_not.mpr hstreak)
    rintro ⟨m, hadded, hwithin⟩
    have hle := hdropped.length_le hadded hwithin
    simp at hle
  · rw [if_neg hstreak, List.append_nil]
    exact iff_of_true hdrops hstreak

/-! ## A second kill -/

namespace Demo

/-- A player with a pistol meets one of another team who has killed before, or has not. -/
def shooting (kills : ℤ) : Server :=
  { initial with
    platform := streamer
    profiles := ((∅ : Map ℤ Profile).insert 0 (member team)).insert 1
      { member rivals with killcounter := { counter := kills } }
    env := { weapon := fun _ slot => if slot = 2 then (24, 100) else (0, 0) } }

end Demo

theorem Demo.shooting_stocked (kills : ℤ) : (Demo.shooting kills).Stocked :=
  ⟨Demo.streamer_givesFreshIds, fun _ _ h => by cases h⟩

/-- With the first kill the pickup of the weapon is all that is due. -/
theorem first_kill_registered : ∃ t, (Demo.shooting 0).Registers t
    ((Demo.shooting 0).drops 0 ++ (Demo.shooting 0).rewards (Demo.member Demo.rivals)) := by
  obtain ⟨_, t, hrun⟩ : ∃ a t, unguardedDeath 0 1 24 (Demo.shooting 0) = .ok a t :=
    Outcome.exists_ok (by decide +kernel)
  have hiff := death_rewards_registered_iff (Demo.shooting 0) t 0 1 24 (Demo.member Demo.rivals)
    (by decide) rfl (Demo.shooting_stocked 0) hrun
  exact ⟨t, hiff.2.mpr (by decide +kernel)⟩

/-- The pickup for a second kill is not registered. -/
theorem second_kill_not_registered :
    ¬∀ (s t : Server) (p killerid reason : ℤ) (killer : Profile), killerid ≠ invalidPlayerId →
      s.profiles.lookup killerid = some killer → s.Stocked →
      s.HandlesDeath p killerid reason t → s.Registers t (s.drops p ++ s.rewards killer) := by
  intro hall
  obtain ⟨_, t, hrun⟩ : ∃ a t, unguardedDeath 0 1 24 (Demo.shooting 1) = .ok a t :=
    Outcome.exists_ok (by decide +kernel)
  have hregisters := hall (Demo.shooting 1) t 0 1 24 _ (by decide) rfl (Demo.shooting_stocked 1) hrun
  have hfirst := (death_rewards_registered_iff (Demo.shooting 1) t 0 1 24 _ (by decide) rfl
    (Demo.shooting_stocked 1) hrun).2.mp hregisters
  exact absurd hfirst (by decide +kernel)

end FreshCity
