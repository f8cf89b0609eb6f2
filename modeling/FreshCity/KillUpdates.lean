import FreshCity.KillRewards
import FreshCity.Totality
import FreshCity.WarStarts

/-!
# What a death updates

A kill raises the killer's score, money and kill counter and a counter of the war at the
place, in this order and with reads between them that can throw. The callback reports what
is thrown, and what was updated before stays.
-/
namespace FreshCity
open Imperative Prog Run

/-! ## Standings -/

/-- The score, the money and the kill counter of a player. -/
structure Standing where
  score : ℤ
  money : ℤ
  kills : KillCounter
  deriving DecidableEq

namespace Standing

/-- A kill gives one point and 1000. -/
def rewarded (st : Standing) (platform : Platform) : Standing :=
  { st with score := platform.int (st.score + 1), money := platform.int (st.money + 1000) }

/-- A kill is counted. -/
def counted (st : Standing) (interval now : ℤ) : Standing :=
  { st with kills := { lastkill := now, counter := st.kills.next interval now } }

end Standing

def Profile.standing (pr : Profile) : Standing :=
  ⟨pr.gamedata.score, pr.gamedata.money, pr.killcounter⟩

namespace Server
variable (s : Server)

def standingOf (p : ℤ) : Option Standing := (s.profiles.lookup p).map Profile.standing

/-- Counting a kill would not show: the counter is one, as it is after a kill that comes too late,
and a negative interval has every kill come too late. -/
def countIdle (killer : Profile) : Bool :=
  decide (killer.killcounter.lastkill = s.env.time) && decide (killer.killcounter.counter = 1) &&
    decide (s.killInterval < 0)

/-- What the killer's standing is by how far the callback gets. -/
def standingAfter (killer : Profile) (reached counted : Bool) : Standing :=
  let rewarded := if reached then killer.standing.rewarded s.platform else killer.standing
  if counted then rewarded.counted s.killInterval s.env.time else rewarded

/-! ## How far the callback gets -/

/-- Nothing is missing before the killer is rewarded. -/
def deathReaches (p : ℤ) : Bool :=
  ((s.profiles.lookup p).bind (·.role)).isSome && (s.config.float .weapondropradius).isSome

/-- Nothing is missing between the reward and the kill counter. -/
def killCounts (killerid : ℤ) : Bool :=
  ((s.config.float .distance).bind fun distance => directionalPoint s.platform
    (s.env.facing killerid) (s.env.pos killerid) distance).isSome &&
    (s.config.int .killinterval).isSome

/-- Nothing is missing between the kill counter and the counter of a war. -/
def killReports (p : ℤ) (killer : Profile) : Bool :=
  (decide (s.streak killer = 1) || (rewardClass s.config (s.streak killer)).isSome) &&
    (!s.env.inAnyArea p || (s.searchZone (s.env.pos p)).isSome)

/-- What a death has done: the killer's standing, and whether the war counted the kill. -/
structure Got (p killerid : ℤ) (killer : Profile) (reached counted reported : Bool) (t : Server) :
    Prop where
  standing : t.standingOf killerid = some (s.standingAfter killer reached counted)
  wars : if reported then s.CountsWhere p killerid (s.looksAt p) t else t.zones = s.zones

/-- A death until the war is looked for: nothing has changed that the rest reads but the
killer's standing, which is this one. -/
structure Duel (killerid : ℤ) (st : Standing) (t : Server) : Prop where
  fight : s.SameFight t
  platform : t.platform = s.platform
  config : t.config = s.config
  standing : t.standingOf killerid = some st

end Server

/-! ## The steps of the callback -/

section Steps
open Server
variable {s u : Server} {p killerid : ℤ} {st : Standing} {killer : Profile}

/-- The kinds that leave alone what the callback reads. -/
abbrev duelKinds : List Kind := [.output, .samp, .sampMoney, .streamer, .pickups, .profileRole]

theorem standingOf_adjust {t : Server} {q : ℤ} {f : Profile → Profile}
    (ht : t.profiles = s.profiles.adjust q f) (hf : ∀ pr, (f pr).standing = pr.standing) :
    t.standingOf p = s.standingOf p := by
  rw [standingOf, standingOf, ht]
  exact Map.map_lookup_adjust hf _ q p

theorem Kind.duel {k : Kind} {a b : Server} (hk : k ∈ duelKinds) (h : k.change a b)
    (ha : s.Duel killerid st a) : s.Duel killerid st b := by
  have hkeeps : k.keepsFight = true := by
    have hall : ∀ k ∈ duelKinds, k.keepsFight = true := by simp [Kind.keepsFight]
    exact hall k hk
  have hframe := frame h
  have hconfig : b.config = a.config := hframe.config (by rintro rfl; simp at hk)
  refine ⟨Kind.sameFight h hkeeps ha.fight, hframe.platform.trans ha.platform,
    hconfig.trans ha.config, ?_⟩
  rw [← ha.standing]
  by_cases hrole : k = .profileRole
  · subst hrole
    obtain ⟨q, g, rfl⟩ := h
    exact standingOf_adjust rfl fun _ => rfl
  · have hwrites : k.writesProfiles = false := by
      have hall : ∀ k ∈ duelKinds, k ≠ .profileRole → k.writesProfiles = false := by
        simp [Kind.writesProfiles]
      exact hall k hk hrole
    rw [standingOf, standingOf, hframe.profiles hwrites]

instance (priority := low) keeps_duel {α : Type} {x : Game α} [hx : Stays duelKinds x] :
    Keeps (s.Duel killerid st) x :=
  hx.keeps fun _ hk _ _ hab => Kind.duel hk hab

/-- A killer in a duel has a profile. -/
theorem Server.Duel.exists_profile (h : s.Duel killerid st u) :
    ∃ pr, u.profiles.lookup killerid = some pr ∧ pr.standing = st :=
  Option.map_eq_some_iff.mp h.standing

theorem wp_giveScore (h : s.Duel killerid st u) : wp (Profile.giveScore killerid 1)
    (fun _ => s.Duel killerid { st with score := s.platform.int (st.score + 1) })
    (fun _ _ => False) u := by
  obtain ⟨pr, hpr, rfl⟩ := h.exists_profile
  have hfight : Keeps s.SameFight (Profile.giveScore killerid 1) := inferInstance
  have hgiven : wp (Profile.giveScore killerid 1) (fun _ t => t.platform = s.platform ∧
      t.config = s.config ∧ t.standingOf killerid =
        some { pr.standing with score := s.platform.int (pr.standing.score + 1) })
      (fun _ _ => False) u := by
    simp only [Profile.giveScore, Profile.setScore, Profile.modifyGame, Profile.ref,
      setPlayerScore, emit, wp_bind, wp_gets, wp_modify, wp_orUndefined, hpr, Option.some.injEq,
      forall_eq']
    refine ⟨h.platform, h.config, ?_⟩
    rw [standingOf, Map.lookup_adjust_self hpr, h.platform]
    rfl
  exact wp_mono (wp_and (hfight.wp_of_keeps h.fight) hgiven)
    (fun _ _ ht => ⟨ht.1, ht.2.1, ht.2.2.1, ht.2.2.2⟩) (fun _ _ ht => ht.2)

theorem wp_giveMoney_duel (h : s.Duel killerid st u) : wp (Profile.giveMoney killerid 1000)
    (fun _ => s.Duel killerid { st with money := s.platform.int (st.money + 1000) })
    (fun _ _ => False) u := by
  obtain ⟨pr, hpr, rfl⟩ := h.exists_profile
  have hfight : Keeps s.SameFight (Profile.giveMoney killerid 1000) := inferInstance
  have hgiven : wp (Profile.giveMoney killerid 1000) (fun _ t => t.platform = s.platform ∧
      t.config = s.config ∧ t.standingOf killerid =
        some { pr.standing with money := s.platform.int (pr.standing.money + 1000) })
      (fun _ _ => False) u := by
    refine Profile.wp_giveMoney hpr fun trace => ⟨h.platform, h.config, ?_⟩
    rw [standingOf, given, Map.lookup_adjust_self hpr, h.platform]
    rfl
  exact wp_mono (wp_and (hfight.wp_of_keeps h.fight) hgiven)
    (fun _ _ ht => ⟨ht.1, ht.2.1, ht.2.2.1, ht.2.2.2⟩) (fun _ _ ht => ht.2)

/-- The kill counter is missing its interval, or is updated. -/
theorem wp_killCounter_duel (h : s.Duel killerid st u) : wp (Profile.killCounter killerid)
    (fun kills t => (s.config.int .killinterval).isSome = true ∧
      kills = st.kills.next s.killInterval s.env.time ∧
      s.Duel killerid (st.counted s.killInterval s.env.time) t)
    (fun _ t => (s.config.int .killinterval).isSome = false ∧ t = u) u := by
  obtain ⟨pr, hpr, rfl⟩ := h.exists_profile
  have hfight : Keeps s.SameFight (Profile.killCounter killerid) := inferInstance
  have hcounted : wp (Profile.killCounter killerid)
      (fun kills t => (s.config.int .killinterval).isSome = true ∧
        kills = pr.standing.kills.next s.killInterval s.env.time ∧ t.platform = s.platform ∧
        t.config = s.config ∧
        t.standingOf killerid = some (pr.standing.counted s.killInterval s.env.time))
      (fun _ t => (s.config.int .killinterval).isSome = false ∧ t = u) u := by
    simp only [Profile.killCounter, configInt, Profile.modifyKills, Profile.ref, wp_bind, wp_gets,
      wp_orRaise, wp_modify, wp_orUndefined, Map.lookup_adjust, if_true, hpr, Option.map_some,
      Option.some.injEq, forall_eq', wp_pure, h.config, h.fight.env]
    refine ⟨fun interval hinterval => ?_, fun hnone => by rw [hnone]; simp⟩
    have hkill : s.killInterval = interval := by rw [killInterval, hinterval, Option.getD_some]
    rw [hinterval, hkill]
    refine ⟨rfl, rfl, h.platform, trivial, ?_⟩
    rw [standingOf, Map.lookup_adjust_self hpr]
    rfl
  exact wp_mono (wp_and (hfight.wp_of_keeps h.fight) hcounted)
    (fun _ _ ht => ⟨ht.2.1, ht.2.2.1, ht.1, ht.2.2.2.1, ht.2.2.2.2.1, ht.2.2.2.2.2⟩)
    (fun _ _ ht => ht.2)

/-- The switch is missing what it reads, or creates a pickup at most. -/
theorem wp_streakReward_ready {kills : ℤ} (hconfig : u.config = s.config) :
    wp (streakReward kills)
      (fun _ _ => (decide (kills = 1) || (rewardClass s.config kills).isSome) = true)
      (fun _ _ => (decide (kills = 1) || (rewardClass s.config kills).isSome) = false) u := by
  simp only [streakReward, configFloat, configInt, PickupManager.create, createDynamicPickup,
    wp_ite, wp_pure, wp_bind, wp_map, wp_gets, wp_orRaise, wp_modify, hconfig, rewardClass]
  split
  case isTrue hone => simp [hone]
  split
  case isTrue htwo => simp +contextual [htwo]
  split
  case isTrue hthree => simp [hthree]
  split
  case isTrue hfour => simp +contextual [hfour]
  case isFalse => simp

/-- The zone that `GetPointInWhichZone` answers with is there. -/
theorem exists_pointInWhichZone {point : Coordinate3D} (h : s.pointInWhichZone point ≠ -1) :
    ∃ zone, s.zones.lookup (s.pointInWhichZone point) = some zone := by
  cases hfound : s.zones.entries.find? fun e => s.zoneContains e.2 point with
  | none => simp [pointInWhichZone, hfound] at h
  | some e =>
    have hz : s.pointInWhichZone point = e.1 := by simp [pointInWhichZone, hfound]
    rw [hz]
    exact ⟨e.2, AList.mem_lookup_iff.mpr (List.mem_of_find?_eq_some hfound)⟩

theorem searchZone_eq {point : Coordinate3D} {z : ℤ} (h : s.searchZone point = some z) :
    z = s.pointInWhichZone point := by
  have hrun : GangZoneManager.getPointInWhichZone point s = .ok z s := by
    rw [getPointInWhichZone_eq, h]
    rfl
  exact ((wp_of_ok hrun).mp wp_getPointInWhichZone).2

/-- The count of a death for a zone that is there does not throw. -/
theorem wp_countDeath_returns {z : ℤ} {zone : GangZoneItem} (hzone : u.zones.lookup z = some zone) :
    wp (countDeath p killerid z) (fun _ _ => True) (fun _ _ => False) u := by
  simp only [countDeath, gangZoneMgr, Profile.ref, GangZoneItem.countMemberDeath,
    GangZoneItem.countEnemyKill, GangZoneItem.modifyZone, wp_bind, wp_gets, wp_orRaise,
    wp_orUndefined, wp_when, wp_modify, hzone, reduceCtorEq, false_imp_iff, implies_true, ite_self,
    and_self]

/-- The search for the war throws exactly if it comes to an area that is gone, and then it has
changed no zone. -/
theorem wp_reportKill_ready {kills : ℤ} (h : s.SameFight u) : wp (reportKill p killerid kills)
    (fun _ _ => (!s.env.inAnyArea p || (s.searchZone (s.env.pos p)).isSome) = true)
    (fun _ t => (!s.env.inAnyArea p || (s.searchZone (s.env.pos p)).isSome) = false ∧
      t.zones = s.zones) u := by
  have hscan : ∀ v, s.SameFight v → wp (when (s.env.inAnyArea p) do
        let zoneid ← GangZoneManager.getPointInWhichZone (s.env.pos p)
        when (zoneid ≠ -1) (countDeath p killerid zoneid))
      (fun _ _ => (!s.env.inAnyArea p || (s.searchZone (s.env.pos p)).isSome) = true)
      (fun _ t => (!s.env.inAnyArea p || (s.searchZone (s.env.pos p)).isSome) = false ∧
        t.zones = s.zones) v := by
    intro v hv
    rw [wp_when]
    split
    case isFalse harea => simp [harea]
    case isTrue harea =>
    have hsearch : v.searchZone = s.searchZone :=
      searchZone_congr hv.areas hv.env (by rw [hv.zones])
    rw [wp_bind, wp_of_eq (getPointInWhichZone_eq _), hsearch, getItem, wp_orRaise]
    refine ⟨fun z hz => ?_, fun hnone => ⟨by simp [harea, hnone], hv.zones⟩⟩
    rw [hz, wp_when]
    split
    case isFalse => simp
    case isTrue hne =>
    rw [← hsearch] at hz
    obtain rfl := searchZone_eq hz
    obtain ⟨zone, hzone⟩ := exists_pointInWhichZone hne
    exact wp_mono (wp_countDeath_returns hzone) (fun _ _ _ => by simp) (fun _ _ ht => ht.elim)
  rw [reportKill, wp_bind, wp_gets, h.env, wp_bind]
  have hpush : ∀ m, wp (pushMessage m) (fun _ => s.SameFight) (fun _ _ => False) u := fun m =>
    ⟨h.zones, h.areas, h.env, h.teams⟩
  rw [wp_when]
  split
  · exact wp_mono (hpush _) (fun _ v hv => hscan v hv) (fun _ _ ht => ht.elim)
  · exact hscan u h

/-- The pickup of a streak goes: nothing else changes. -/
theorem wp_destructs {P : Server → Prop} (items : List EffectiveItem)
    (hP : ∀ t streamer, P t → P { t with streamer := streamer }) (hu : P u) :
    wp (forEach PickupManager.destruct items) (fun _ => P) (fun _ _ => False) u :=
  wp_forEach items hu fun _ _ t ht => hP t _ ht

/-- No profile changes when a kill is reported. -/
instance {kills : ℤ} {sts : Option Standing} :
    Keeps (fun t => t.standingOf killerid = sts) (reportKill p killerid kills) := by
  have hstay : Stays [.output, .zoneData] (reportKill p killerid kills) := inferInstance
  refine hstay.keeps fun k hk a b hab ha => ?_
  have hprofiles : b.profiles = a.profiles := (Kind.frame hab).profiles (by
    rcases List.mem_cons.mp hk with rfl | hk
    · rfl
    · rw [List.mem_singleton.mp hk]
      rfl)
  rwa [standingOf, hprofiles]

/-- What is reached when the killer is rewarded. -/
theorem wp_rewardKiller_got (h : s.Duel killerid killer.standing u) : wp (rewardKiller p killerid)
    (fun _ => s.Got p killerid killer true (s.killCounts killerid)
      (s.killCounts killerid && s.killReports p killer))
    (fun _ => s.Got p killerid killer true (s.killCounts killerid)
      (s.killCounts killerid && s.killReports p killer)) u := by
  obtain ⟨pr, hpr, -⟩ := h.exists_profile
  rw [rewardKiller, wp_bind, profileMgr, wp_bind, wp_gets, hpr, getItem, orRaise_some, wp_pure,
    wp_bind]
  refine wp_mono (wp_giveScore h) (fun _ u hu => ?_) (fun _ _ ht => ht.elim)
  rw [wp_bind]
  refine wp_mono (wp_giveMoney_duel hu) (fun _ u hu => ?_) (fun _ _ ht => ht.elim)
  have hrewarded : s.Duel killerid (killer.standing.rewarded s.platform) u := hu
  have hfails : s.killCounts killerid = false → ∀ t, t = u →
      s.Got p killerid killer true (s.killCounts killerid)
        (s.killCounts killerid && s.killReports p killer) t := by
    rintro hcounts t rfl
    rw [hcounts]
    exact ⟨hrewarded.standing, hrewarded.fight.zones⟩
  rw [wp_bind, configFloat, wp_bind, wp_gets, wp_orRaise, hrewarded.config]
  refine ⟨fun distance hdistance => ?_, fun hnone => hfails (by simp [killCounts, hnone]) _ rfl⟩
  rw [wp_bind, generateDirectionalPoint, wp_bind, wp_gets, wp_orRaise, hrewarded.platform,
    hrewarded.fight.env]
  refine ⟨fun point hpoint => ?_,
    fun hnone => hfails (by simp [killCounts, hdistance, hnone]) _ rfl⟩
  rw [wp_bind]
  refine wp_mono (wp_killCounter_duel hrewarded) (fun kills u hu => ?_)
    (fun _ t ht => hfails (by simp [killCounts, ht.1]) t ht.2)
  obtain ⟨hinterval, rfl, hcounted⟩ := hu
  have hcounts : s.killCounts killerid = true := by
    simp [killCounts, hdistance, hpoint, hinterval]
  rw [hcounts, Bool.true_and]
  have hstreak : (killer.standing.rewarded s.platform).kills.next s.killInterval s.env.time =
      s.streak killer := rfl
  have hkept : Keeps (s.Duel killerid
      ((killer.standing.rewarded s.platform).counted s.killInterval s.env.time))
      (streakReward (s.streak killer)) := inferInstance
  rw [hstreak, wp_bind]
  refine wp_mono (wp_and (hkept.wp_of_keeps hcounted) (wp_streakReward_ready hcounted.config))
    (fun reward u hu => ?_) (fun _ t ht => ?_)
  case refine_2 =>
    have hreports : s.killReports p killer = false := by rw [killReports, ht.2, Bool.false_and]
    rw [hreports]
    exact ⟨ht.1.standing, ht.1.fight.zones⟩
  obtain ⟨hduel, hready⟩ := hu
  have hreports : s.killReports p killer =
      (!s.env.inAnyArea p || (s.searchZone (s.env.pos p)).isSome) := by
    rw [killReports, hready, Bool.true_and]
  have hstanding : Keeps (fun t => t.standingOf killerid = some
      ((killer.standing.rewarded s.platform).counted s.killInterval s.env.time))
      (reportKill p killerid (s.streak killer)) := inferInstance
  have hgone : ∀ (b : Bool) (t : Server) (streamer : Streamer), s.Got p killerid killer true true b t →
      s.Got p killerid killer true true b { t with streamer := streamer } :=
    fun b t _ ht => ⟨ht.standing, by cases b <;> exact ht.wars⟩
  rw [hreports, wp_ensure]
  refine wp_mono (wp_and (hstanding.wp_of_keeps hduel.standing)
    (wp_and (wp_reportKill hduel.fight) (wp_reportKill_ready hduel.fight)))
    (fun _ v hv => ?_) (fun _ v hv => ?_)
  · rw [hv.2.2]
    exact wp_mono (wp_destructs _ (hgone true) ⟨hv.1, hv.2.1⟩) (fun _ _ ht => ht)
      (fun _ _ ht => ht.elim)
  · rw [hv.2.2.1]
    exact wp_mono (wp_destructs _ (hgone false) ⟨hv.1, hv.2.2.2⟩) (fun _ _ ht => ht)
      (fun _ _ ht => ht.elim)

theorem wp_onDeath_returns {role : Role} :
    wp (role.onDeath p) (fun _ _ => True) (fun _ _ => False) u := by
  simp only [Role.onDeath, Role.resetObject, Profile.ref, Profile.modifyRole, wp_when, wp_bind,
    wp_gets, wp_orUndefined, wp_modify]
  split
  · exact fun pr _ => wp_forEach _ trivial fun _ _ _ _ => trivial
  · trivial

theorem wp_dropWeapon_returns {w : ℤ × ℤ} :
    wp (dropWeapon w) (fun _ _ => True) (fun _ _ => False) u := by
  simp only [dropWeapon, PickupManager.create, PickupManager.add, PickupManager.destruct,
    createDynamicPickup, destroyDynamicPickup, wp_bind, wp_gets, wp_modify, wp_pure, wp_ite,
    ite_self]

/-- What a death has done when its body ends, also with a throw. -/
theorem wp_playerDeath_got (hkill : killerid ≠ invalidPlayerId)
    (h : s.Duel killerid killer.standing u) (hprofiles : u.profiles = s.profiles) :
    wp (playerDeath p killerid)
      (fun _ => s.Got p killerid killer (s.deathReaches p)
        (s.deathReaches p && s.killCounts killerid)
        (s.deathReaches p && s.killCounts killerid && s.killReports p killer))
      (fun _ => s.Got p killerid killer (s.deathReaches p)
        (s.deathReaches p && s.killCounts killerid)
        (s.deathReaches p && s.killCounts killerid && s.killReports p killer)) u := by
  have hfails : s.deathReaches p = false → ∀ t, s.Duel killerid killer.standing t →
      s.Got p killerid killer (s.deathReaches p) (s.deathReaches p && s.killCounts killerid)
        (s.deathReaches p && s.killCounts killerid && s.killReports p killer) t := by
    intro hreaches t ht
    rw [hreaches]
    exact ⟨ht.standing, ht.fight.zones⟩
  rw [playerDeath, wp_bind, profileMgr, wp_bind, wp_gets, getItem, wp_orRaise, hprofiles]
  refine ⟨fun pr hpr => ?_, fun hnone => hfails (by simp [deathReaches, hnone]) u h⟩
  rw [wp_bind, Profile.getRole, wp_bind, Profile.ref, wp_bind, wp_gets, hprofiles, hpr,
    orUndefined_some, wp_pure, wp_orRaise]
  refine ⟨fun role hrole => ?_, fun hnone => hfails (by simp [deathReaches, hpr, hnone]) u h⟩
  have hobject : Keeps (s.Duel killerid killer.standing) (role.onDeath p) := inferInstance
  rw [wp_bind]
  refine wp_mono (wp_and (hobject.wp_of_keeps h) wp_onDeath_returns) (fun _ u hu => ?_)
    (fun _ _ ht => ht.2.elim)
  replace h := hu.1
  rw [wp_bind, wp_gets, wp_bind, configFloat, wp_bind, wp_gets, wp_orRaise, h.config]
  refine ⟨fun radius hradius => ?_, fun hnone => hfails (by simp [deathReaches, hnone]) u h⟩
  have hreaches : s.deathReaches p = true := by simp [deathReaches, hpr, hrole, hradius]
  have hdrop : ∀ w, Keeps (s.Duel killerid killer.standing) (dropWeapon w) := fun _ => inferInstance
  rw [wp_bind, hreaches, Bool.true_and]
  refine wp_mono (wp_forEach (J := fun _ _ => False) _ h fun w _ t ht => ?_) (fun _ u hu => ?_)
    (fun _ _ ht => ht.elim)
  · exact wp_mono (wp_and ((hdrop w).wp_of_keeps ht) wp_dropWeapon_returns) (fun _ _ hv => hv.1)
      (fun _ _ hv => hv.2)
  · rw [when_true hkill]
    exact wp_rewardKiller_got hu

/-- The callback itself does not throw. -/
theorem wp_onPlayerDeath_got (p reason : ℤ) (hkill : killerid ≠ invalidPlayerId)
    (hkiller : s.profiles.lookup killerid = some killer) : wp (onPlayerDeath p killerid reason)
    (fun _ => s.Got p killerid killer (s.deathReaches p)
      (s.deathReaches p && s.killCounts killerid)
      (s.deathReaches p && s.killCounts killerid && s.killReports p killer))
    (fun _ _ => False) s := by
  have hstart : s.Duel killerid killer.standing s :=
    ⟨.refl s, rfl, rfl, by rw [standingOf, hkiller, Option.map_some]⟩
  have hmessage : ∀ (a b c : Bool) (t : Server) (trace : List Effect), s.Got p killerid killer a b c t →
      s.Got p killerid killer a b c { t with trace := trace } :=
    fun _ _ c t _ ht => ⟨ht.standing, by cases c <;> exact ht.wars⟩
  simp only [onPlayerDeath, givePlayerMoney, native, emit, reported, sendClientMessage, wp_bind,
    wp_modify, wp_handle]
  refine wp_mono (wp_playerDeath_got (s := s) hkill ?_ rfl) (fun _ _ ht => ht)
    (fun _ t ht => hmessage _ _ _ t _ ht)
  exact ⟨⟨hstart.fight.zones, hstart.fight.areas, hstart.fight.env, hstart.fight.teams⟩, rfl, rfl,
    hstart.standing⟩

end Steps

/-! ## All or nothing -/

namespace Server
variable (s : Server)

/-- The killer's score, money and kill counter are updated, and the kill is counted for the
war at the place. -/
def AllUpdated (p killerid : ℤ) (killer : Profile) (t : Server) : Prop :=
  t.standingOf killerid = some (s.standingAfter killer true true) ∧
    s.CountsWhere p killerid (s.looksAt p) t

/-- The killer's score, money and kill counter and the counters of all wars are as before. -/
def NoneUpdated (killerid : ℤ) (t : Server) : Prop :=
  t.standingOf killerid = s.standingOf killerid ∧
    ∀ z, (t.zones.lookup z).map (·.warinfo) = (s.zones.lookup z).map (·.warinfo)

/-- A war at the place is to count the kill. -/
def warDue (p : ℤ) (killer : Profile) : Bool :=
  s.env.inAnyArea p && decide (s.pointInWhichZone (s.env.pos p) ≠ -1) &&
    (s.zones.lookup (s.pointInWhichZone (s.env.pos p))).any fun zone =>
      (s.teamOf p).any fun victim => zone.warinfo.inWar &&
        decide (victim = zone.owner ∧ killer.team = zone.warinfo.attacker ∨
          victim = zone.warinfo.attacker ∧ killer.team = zone.owner)

/-- Nothing is missing once the killer is rewarded, as far as there is something to update. -/
def killWhole (p killerid : ℤ) (killer : Profile) : Bool :=
  !s.deathReaches p ||
    if s.killCounts killerid then s.killReports p killer || !s.warDue p killer
    else s.countIdle killer && !s.warDue p killer

variable {s} {t : Server} {p killerid : ℤ} {killer : Profile} {a b c : Bool}

/-- Where no zone has changed, the kill is counted as far as it is to be exactly if no war is
to count it. -/
theorem countsWhere_iff_of_zones (hzones : t.zones = s.zones)
    (hkiller : s.profiles.lookup killerid = some killer) :
    s.CountsWhere p killerid (s.looksAt p) t ↔ s.warDue p killer = false := by
  have hteam : s.teamOf killerid = some killer.team := by rw [teamOf, hkiller, Option.map_some]
  constructor
  · intro hcounts
    by_contra hdue
    simp only [warDue, Bool.not_eq_false, Bool.and_eq_true, decide_eq_true_eq,
      Option.any_eq_true] at hdue
    obtain ⟨⟨harea, hne⟩, zone, hzone, victim, hvictim, hwar, hteams⟩ := hdue
    obtain ⟨zone', hzone', hnew⟩ := hcounts _ zone victim killer.team hzone hvictim hteam
    rw [hzones, hzone, Option.some.injEq] at hzone'
    subst hzone'
    rw [if_pos (by simp [looksAt, harea, hne])] at hnew
    exact TurfWarInfo.afterKill_ne hwar hteams hnew.symm
  · intro hnone z zone victim killer' hzone hvictim hkiller'
    obtain rfl := Option.some.inj (hteam.symm.trans hkiller')
    refine ⟨zone, by rw [hzones, hzone], ?_⟩
    split
    case isFalse => rfl
    case isTrue hlooks =>
      simp only [looksAt, Bool.and_eq_true, decide_eq_true_eq] at hlooks
      obtain ⟨⟨harea, rfl⟩, hne⟩ := hlooks
      refine (TurfWarInfo.afterKill_eq fun hwar => ?_).symm
      have hdue : s.warDue p killer = true := by
        rw [warDue, harea, decide_eq_true hne, hzone, Option.any_some, hvictim, Option.any_some,
          hwar.1, decide_eq_true hwar.2]
        rfl
      rw [hnone] at hdue
      cases hdue

/-- Counting a kill does not show exactly if the kill counter stays as it is. -/
theorem standingAfter_eq_iff : s.standingAfter killer true false = s.standingAfter killer true true ↔
    s.countIdle killer = true := by
  have hcounter : s.standingAfter killer true false = s.standingAfter killer true true ↔
      killer.killcounter =
        ⟨s.env.time, killer.killcounter.next s.killInterval s.env.time⟩ := by
    simp [standingAfter, Standing.counted, Standing.rewarded, Profile.standing]
  cases hkills : killer.killcounter with
  | mk lastkill counter =>
    rw [hcounter, countIdle, hkills, KillCounter.mk.injEq, KillCounter.next]
    simp only [Bool.and_eq_true, decide_eq_true_eq]
    constructor
    · rintro ⟨rfl, hnext⟩
      split at hnext <;> omega
    · rintro ⟨⟨rfl, rfl⟩, hinterval⟩
      rw [if_pos (by omega)]
      exact ⟨rfl, rfl⟩

/-- What a death has done is all or nothing exactly if nothing was missing on the way. -/
theorem Got.atomic_iff (h : s.Got p killerid killer (s.deathReaches p)
      (s.deathReaches p && s.killCounts killerid)
      (s.deathReaches p && s.killCounts killerid && s.killReports p killer) t)
    (hkiller : s.profiles.lookup killerid = some killer)
    (hint : s.platform.int (killer.gamedata.score + 1) ≠ killer.gamedata.score) :
    s.AllUpdated p killerid killer t ∨ s.NoneUpdated killerid t ↔
      s.killWhole p killerid killer = true := by
  have hstanding := h.standing
  have hwars := h.wars
  have hbefore : s.standingOf killerid = some killer.standing := by
    rw [standingOf, hkiller, Option.map_some]
  rw [killWhole]
  cases hreaches : s.deathReaches p with
  | false =>
    rw [hreaches] at hstanding hwars
    have hzones : t.zones = s.zones := hwars
    exact iff_of_true (.inr ⟨hstanding.trans hbefore.symm, fun _ => by rw [hzones]⟩) rfl
  | true =>
  have hnone : ¬s.NoneUpdated killerid t := by
    rintro ⟨hsame, -⟩
    rw [hstanding, hbefore, hreaches, Option.some.injEq] at hsame
    refine hint ((congrArg Standing.score hsame).symm.trans ?_).symm
    rw [standingAfter]
    split <;> rfl
  rw [or_iff_left hnone, AllUpdated, hstanding, hreaches, Option.some.injEq]
  simp only [hreaches, Bool.true_and] at hwars ⊢
  cases hcounts : s.killCounts killerid with
  | false =>
    rw [hcounts] at hwars
    rw [countsWhere_iff_of_zones hwars hkiller, standingAfter_eq_iff]
    simp
  | true =>
    rw [hcounts, Bool.true_and] at hwars
    cases hreports : s.killReports p killer with
    | true =>
      rw [hreports] at hwars
      simpa using hwars
    | false =>
      rw [hreports] at hwars
      rw [countsWhere_iff_of_zones hwars hkiller]
      simp

end Server

/-! ## The callback has an outcome -/

section Outcome
open Server
variable {s u : Server} {p killerid : ℤ} {killer : Profile}

instance {q money : ℤ} : Total (givePlayerMoney q money) := total_bind

instance {k : FloatKey} : Total (configFloat k) := total_bind

instance {k : IntKey} : Total (configInt k) := total_bind

instance {distance : ℚ} : Total (generateDirectionalPoint p distance) := total_bind

instance {w : ℤ × ℤ} : Total (dropWeapon w) := total_bind

instance {object : ℤ} : Total (destroyDynamicObject object) := total_modify _

instance {kills : ℤ} : Total (streakReward kills) := by
  unfold streakReward; infer_instance

/-- A player who has a team has a profile. -/
theorem exists_profile_of_sameFight {q : ℤ} (h : s.SameFight u)
    (hq : (s.profiles.lookup q).isSome = true) : ∃ pr, u.profiles.lookup q = some pr := by
  have hteam := h.teams q
  obtain ⟨pr, hpr⟩ := Option.isSome_iff_exists.mp hq
  rw [teamOf, teamOf, hpr, Option.map_some, Option.map_eq_some_iff] at hteam
  obtain ⟨pr', hpr', -⟩ := hteam
  exact ⟨pr', hpr'⟩

/-- A step that keeps what the callback reads. -/
theorem defined_bind_fight {α β : Type} {x : Game α} {f : α → Game β} (hd : Defined x u)
    [hx : Keeps s.SameFight x] (hu : s.SameFight u)
    (hf : ∀ a t, s.SameFight t → Defined (f a) t) : Defined (x >>= f) u :=
  (defined_bind x f).mpr ⟨hd, wp_mono (hx.wp_of_keeps hu) hf fun _ _ _ => trivial⟩

theorem defined_reportKill {kills : ℤ} (h : s.SameFight u)
    (hp : (s.profiles.lookup p).isSome = true) (hq : (s.profiles.lookup killerid).isSome = true) :
    Defined (reportKill p killerid kills) u := by
  have hcount : ∀ z v, s.SameFight v → Defined (countDeath p killerid z) v := by
    intro z v hv
    obtain ⟨pr, hpr⟩ := exists_profile_of_sameFight hv hp
    obtain ⟨kr, hkr⟩ := exists_profile_of_sameFight hv hq
    simp only [countDeath, gangZoneMgr, getItem, Profile.ref, GangZoneItem.countMemberDeath,
      GangZoneItem.countEnemyKill, GangZoneItem.modifyZone, defined_bind, defined_gets,
      defined_orRaise, defined_orUndefined, defined_when, defined_modify, wp_bind, wp_gets,
      wp_orRaise, wp_orUndefined, wp_when, wp_modify, hpr, hkr, Option.some.injEq, exists_eq',
      implies_true, and_self, ite_self]
  have hscan : ∀ v, s.SameFight v → Defined (when (s.env.inAnyArea p) do
        let zoneid ← GangZoneManager.getPointInWhichZone (s.env.pos p)
        when (zoneid ≠ -1) (countDeath p killerid zoneid)) v := by
    intro v hv
    rw [defined_when]
    intro _
    refine (defined_bind _ _).mpr ⟨?_, ?_⟩
    · rw [defined_of_eq (getPointInWhichZone_eq _)]
      exact defined_orRaise _ _
    · rw [wp_of_eq (getPointInWhichZone_eq _), getItem, wp_orRaise]
      exact ⟨fun z _ => (defined_when _ _).mpr fun _ => hcount z v hv, fun _ => trivial⟩
  rw [reportKill, defined_bind, wp_gets, h.env]
  refine ⟨defined_gets _, ?_⟩
  exact defined_bind_fight ((defined_when _ _).mpr fun _ => defined_modify _) h fun _ v hv => hscan v hv

theorem defined_rewardKiller (h : s.SameFight u) (hp : (s.profiles.lookup p).isSome = true)
    (hq : (s.profiles.lookup killerid).isSome = true) : Defined (rewardKiller p killerid) u := by
  rw [rewardKiller]
  refine defined_bind_fight (Total.defined _) h fun _ u hu => ?_
  obtain ⟨kr, hkr⟩ := exists_profile_of_sameFight hu hq
  refine defined_bind_fight ?_ hu fun _ u hu => ?_
  · simp only [Profile.giveScore, Profile.setScore, Profile.modifyGame, Profile.ref,
      setPlayerScore, emit, defined_bind, defined_gets, defined_orUndefined, defined_modify,
      wp_bind, wp_gets, wp_orUndefined, wp_modify, hkr, Option.some.injEq, exists_eq',
      forall_eq', and_self]
  obtain ⟨kr, hkr⟩ := exists_profile_of_sameFight hu hq
  refine defined_bind_fight (Profile.defined_giveMoney hkr) hu fun _ u hu => ?_
  refine defined_bind_fight (Total.defined _) hu fun _ u hu => ?_
  refine defined_bind_fight (Total.defined _) hu fun _ u hu => ?_
  obtain ⟨kr, hkr⟩ := exists_profile_of_sameFight hu hq
  refine defined_bind_fight ?_ hu fun kills u hu => ?_
  · simp only [Profile.killCounter, configInt, Profile.modifyKills, Profile.ref, defined_bind,
      defined_gets, defined_orRaise, defined_orUndefined, defined_modify, defined_pure, wp_bind,
      wp_gets, wp_orRaise, wp_orUndefined, wp_modify, Map.lookup_adjust, if_true, hkr,
      Option.map_some, Option.some.injEq, exists_eq', implies_true, and_self]
  refine defined_bind_fight (Total.defined _) hu fun _ u hu => ?_
  exact defined_ensure (defined_reportKill hu hp hq)

theorem defined_playerDeath (h : s.SameFight u) (hq : (s.profiles.lookup killerid).isSome = true) :
    Defined (playerDeath p killerid) u := by
  rw [playerDeath, defined_bind]
  refine ⟨Total.defined _, ?_⟩
  rw [profileMgr, wp_bind, wp_gets, getItem, wp_orRaise]
  refine ⟨fun pr hpr => ?_, fun _ => trivial⟩
  have hp : (s.profiles.lookup p).isSome = true := by
    have hteam := h.teams p
    rw [teamOf, teamOf, hpr, Option.map_some] at hteam
    rw [← Option.isSome_map, ← hteam]
    rfl
  refine defined_bind_fight ?_ h fun role u hu => ?_
  · simp only [Profile.getRole, Profile.ref, defined_bind, defined_gets, defined_orUndefined,
      defined_orRaise, wp_bind, wp_gets, wp_orUndefined, hpr, Option.some.injEq, exists_eq',
      forall_eq', and_self]
  obtain ⟨pr, hpr⟩ := exists_profile_of_sameFight hu hp
  refine defined_bind_fight ?_ hu fun _ u hu => ?_
  · rw [Role.onDeath, defined_when]
    intro _
    simp only [Role.resetObject, Profile.ref, Profile.modifyRole, defined_bind, defined_gets,
      defined_orUndefined, defined_modify, wp_bind, wp_gets, wp_orUndefined, wp_modify, hpr,
      Option.some.injEq, exists_eq', forall_eq', true_and]
    exact Total.defined _
  refine defined_bind_fight (defined_gets _) hu fun env u hu => ?_
  refine defined_bind_fight (Total.defined _) hu fun _ u hu => ?_
  refine defined_bind_fight (Total.defined _) hu fun _ u hu => ?_
  exact (defined_when _ _).mpr fun _ => defined_rewardKiller hu hp hq

theorem defined_onPlayerDeath (p reason : ℤ) (hq : (s.profiles.lookup killerid).isSome = true) :
    Defined (onPlayerDeath p killerid reason) s := by
  rw [onPlayerDeath]
  refine defined_bind_fight (Total.defined _) (.refl s) fun _ u hu => ?_
  refine defined_bind_fight (Total.defined _) hu fun _ u hu => ?_
  rw [defined_bind, reported, defined_handle]
  refine ⟨⟨defined_playerDeath hu hq, ?_⟩, ?_⟩
  · exact wp_mono (wp_true _) (fun _ _ _ => trivial) fun _ _ _ => Total.defined _
  · exact wp_mono (wp_true _) (fun _ _ _ => defined_pure _) fun _ _ _ => trivial

end Outcome

/-! ## Deaths that are cut short -/

/-- A death updates all or nothing, and its callback does not throw. -/
def UpdatesWhole (p killerid reason : ℤ) (killer : Profile) (s : Server) : Prop :=
  wp (onPlayerDeath p killerid reason)
    (fun _ t => s.AllUpdated p killerid killer t ∨ s.NoneUpdated killerid t) (fun _ _ => False) s

/-- A death updates the killer's score, money and kill counter and the counter of the war, or
none of them, exactly if nothing is missing after the killer is rewarded that is needed for
something that is still to be updated. -/
theorem death_updates_whole_iff (s : Server) (p killerid reason : ℤ) (killer : Profile)
    (hkill : killerid ≠ invalidPlayerId) (hkiller : s.profiles.lookup killerid = some killer)
    (hint : s.platform.int (killer.gamedata.score + 1) ≠ killer.gamedata.score) :
    UpdatesWhole p killerid reason killer s ↔ s.killWhole p killerid killer = true := by
  have hrun := wp_onPlayerDeath_got p reason hkill hkiller
  rw [UpdatesWhole]
  cases h : onPlayerDeath p killerid reason s with
  | ok a t =>
    rw [wp_of_ok h] at hrun ⊢
    exact hrun.atomic_iff hkiller hint
  | error e t =>
    rw [wp_of_error h] at hrun
    exact hrun.elim
  | undefined =>
    have hdefined := defined_onPlayerDeath p reason
      (by rw [hkiller]; rfl : (s.profiles.lookup killerid).isSome = true)
    rw [Defined, h] at hdefined
    cases hdefined

namespace Demo

/-- SA-MP reports an angle that is no angle. -/
def dizzy : Server :=
  { fight oneZone with env := { (fight oneZone).env with facing := fun _ => 400 } }

end Demo

/-- A kill in a war updates everything. -/
theorem war_kill_updates_whole :
    UpdatesWhole 0 1 24 (Demo.member Demo.rivals) (Demo.fight Demo.oneZone) :=
  (death_updates_whole_iff (Demo.fight Demo.oneZone) 0 1 24 (Demo.member Demo.rivals) (by decide)
    rfl (by decide)).mpr (by decide +kernel)

/-- A kill by a player whose angle is out of range gives score and money, and is not counted. -/
theorem dizzy_kill_updates_part :
    ¬∀ (s : Server) (p killerid reason : ℤ) (killer : Profile), killerid ≠ invalidPlayerId →
      s.profiles.lookup killerid = some killer →
      s.platform.int (killer.gamedata.score + 1) ≠ killer.gamedata.score →
      UpdatesWhole p killerid reason killer s := by
  intro hall
  have hwhole := (death_updates_whole_iff Demo.dizzy 0 1 24 (Demo.member Demo.rivals) (by decide)
    rfl (by decide)).mp (hall _ 0 1 24 _ (by decide) rfl (by decide))
  exact absurd hwhole (by decide +kernel)

end FreshCity
