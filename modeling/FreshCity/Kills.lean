import FreshCity.Views

/-!
# Kills in a turf war

A kill is counted for the zone in which the dead player lies. Where areas overlap
there is more than one such zone, but `GetPointInWhichZone` answers with one of
them, so that a war in another one misses the kill.
-/
namespace FreshCity
open Imperative Prog

/-! ## The zone of a point -/

namespace Server
variable (s : Server)

/-- A point lies in the area of a zone. -/
def zoneContains (zone : GangZoneItem) (point : Coordinate3D) : Bool :=
  (s.areas.lookup zone.areaid).any fun area => s.env.pointInArea area.id point

/-- The first zone in the manager's order whose area contains a point, or -1. -/
def pointInWhichZone (point : Coordinate3D) : ℤ :=
  ((s.zones.entries.find? fun e => s.zoneContains e.2 point).map Sigma.fst).getD (-1)

def teamOf (p : ℤ) : Option OID := (s.profiles.lookup p).map (·.team)

/-- The parts of the server that the count of a kill depends on. -/
structure SameFight (t : Server) : Prop where
  zones : t.zones = s.zones
  areas : t.areas = s.areas
  env : t.env = s.env
  teams : ∀ p, t.teamOf p = s.teamOf p

theorem SameFight.refl : s.SameFight s := ⟨rfl, rfl, rfl, fun _ => rfl⟩

end Server

section Zone
variable {s : Server} {point : Coordinate3D}

/-- `GetPointInWhichZone` throws or answers with the first zone that contains the point. -/
theorem wp_getPointInWhichZone : wp (GangZoneManager.getPointInWhichZone point)
    (fun z t => t = s ∧ z = s.pointInWhichZone point) (fun _ _ => True) s := by
  have hscan : ∀ es : List (Sigma fun _ : ℤ => GangZoneItem), wp (findFirst (fun e => do
        let area ← DynamicAreaManager.get e.2.areaid
        pure (s.env.pointInArea area.id point)) es)
      (fun found t => t = s ∧ found = es.find? fun e => s.zoneContains e.2 point)
      (fun _ _ => True) s := by
    intro es
    induction es with
    | nil => exact ⟨rfl, rfl⟩
    | cons e es ih =>
      simp only [findFirst, DynamicAreaManager.get, wp_bind, wp_gets, wp_orRaise, wp_pure,
        implies_true, and_true]
      intro area harea
      have hhead : s.zoneContains e.2 point = s.env.pointInArea area.id point := by
        simp [Server.zoneContains, harea]
      rw [List.find?_cons, hhead]
      cases s.env.pointInArea area.id point with
      | true => exact ⟨rfl, rfl⟩
      | false => exact ih
  simp only [GangZoneManager.getPointInWhichZone, wp_bind, wp_gets]
  refine wp_mono (hscan s.zones.entries) (fun found t h => ⟨h.1, ?_⟩) (fun _ _ _ => trivial)
  rw [h.2]
  rfl

end Zone

/-! ## What is counted -/

/-- The counters of a war after a kill, by the teams of the dead player and the killer. -/
def TurfWarInfo.afterKill (w : TurfWarInfo) (owner victim killer : OID) : TurfWarInfo :=
  { w with
    memberDeath := w.memberDeath +
      if w.inWar ∧ victim = owner ∧ killer = w.attacker then 1 else 0
    enemyKill := w.enemyKill +
      if w.inWar ∧ victim = w.attacker ∧ killer = owner then 1 else 0 }

namespace Server
variable (s : Server) (p killerid : ℤ)

/-- The zones that are chosen count a kill by the teams of both players, and no other zone does. -/
def CountsWhere (chosen : ℤ → GangZoneItem → Bool) (t : Server) : Prop :=
  ∀ z zone victim killer, s.zones.lookup z = some zone → s.teamOf p = some victim →
    s.teamOf killerid = some killer → ∃ zone', t.zones.lookup z = some zone' ∧
      zone'.warinfo = if chosen z zone then zone.warinfo.afterKill zone.owner victim killer
        else zone.warinfo

/-- Every zone the dead player lies in counts the kill, and no other zone does. -/
def KillCounted (t : Server) : Prop :=
  s.CountsWhere p killerid (fun _ zone => s.zoneContains zone (s.env.pos p)) t

/-- The zone that the code looks at. -/
def looksAt (z : ℤ) (_ : GangZoneItem) : Bool :=
  s.env.inAnyArea p && decide (s.pointInWhichZone (s.env.pos p) = z) && decide (z ≠ -1)

/-- Every zone whose war the kill belongs to is the one `GetPointInWhichZone` answers with, and
the streamer has the dead player in some area. It looks where players are on its own ticks only. -/
def WarsAreFirst : Prop :=
  ∀ z zone victim killer, s.zones.lookup z = some zone → s.teamOf p = some victim →
    s.teamOf killerid = some killer → s.zoneContains zone (s.env.pos p) = true →
    zone.warinfo.inWar = true →
    (victim = zone.owner ∧ killer = zone.warinfo.attacker ∨
      victim = zone.warinfo.attacker ∧ killer = zone.owner) →
    s.env.inAnyArea p = true ∧ s.pointInWhichZone (s.env.pos p) = z ∧ z ≠ -1

end Server

namespace TurfWarInfo
variable {w : TurfWarInfo} {owner victim killer : OID}

/-- A kill that belongs to a war changes one of its counters. -/
theorem afterKill_ne (hwar : w.inWar = true)
    (h : victim = owner ∧ killer = w.attacker ∨ victim = w.attacker ∧ killer = owner) :
    w.afterKill owner victim killer ≠ w := by
  intro heq
  have hdeath := congrArg memberDeath heq
  have hkill := congrArg enemyKill heq
  rcases h with h | h
  · simp [afterKill, hwar, h] at hdeath
  · simp [afterKill, hwar, h] at hkill

/-- Any other kill changes neither. -/
theorem afterKill_eq (h : ¬(w.inWar = true ∧
    (victim = owner ∧ killer = w.attacker ∨ victim = w.attacker ∧ killer = owner))) :
    w.afterKill owner victim killer = w := by
  have hdeath : ¬(w.inWar = true ∧ victim = owner ∧ killer = w.attacker) := fun hc =>
    h ⟨hc.1, .inl hc.2⟩
  have hkill : ¬(w.inWar = true ∧ victim = w.attacker ∧ killer = owner) := fun hc =>
    h ⟨hc.1, .inr hc.2⟩
  simp only [afterKill, if_neg hdeath, if_neg hkill, add_zero]

end TurfWarInfo

/-! ## What the code counts -/

section Count
variable {s u : Server} {p killerid : ℤ}

/-- The kinds that leave alone what the count depends on. -/
def Kind.keepsFight : Kind → Bool
  | insertProfile _ => false
  | eraseProfile _ => false
  | profileTeam => false
  | zones => false
  | zoneData => false
  | areas => false
  | _ => true

theorem Kind.sameFight {k : Kind} {a b : Server} (h : k.change a b) (hk : k.keepsFight = true)
    (ha : s.SameFight a) : s.SameFight b := by
  have hframe := frame h
  refine ⟨(hframe.zones ?_ ?_).trans ha.zones, (hframe.areas ?_).trans ha.areas,
    hframe.env.trans ha.env, fun q => (view_profile h ?_ ?_ fun _ _ hev => hev.team ?_).trans
      (ha.teams q)⟩
  all_goals
    rintro rfl
    cases hk

/-- The kinds of change a death makes besides the count. -/
abbrev deathKinds : List Kind :=
  [.output, .samp, .sampMoney, .streamer, .pickups, .profileGame, .profileMoney, .profileKills,
    .profileRole]

instance (priority := low) keeps_sameFight {α : Type} {x : Game α} [hx : Stays deathKinds x] :
    Keeps s.SameFight x := by
  have hK : ∀ k ∈ deathKinds, k.keepsFight = true := by simp [Kind.keepsFight]
  exact hx.keeps fun k hk _ _ hab => Kind.sameFight hab (hK k hk)

/-- A kill is counted by one zone if its war counts it and the others stay as they are. -/
theorem Server.SameFight.countsWhere {t : Server} {z : ℤ} {zone : GangZoneItem} {victim killer : OID}
    (h : s.SameFight u) (hzone : u.zones.lookup z = some zone) (hv : s.teamOf p = some victim)
    (hk : s.teamOf killerid = some killer)
    (hself : (t.zones.lookup z).map (·.warinfo) =
      some (zone.warinfo.afterKill zone.owner victim killer))
    (hother : ∀ y, y ≠ z → t.zones.lookup y = u.zones.lookup y) :
    s.CountsWhere p killerid (fun y _ => decide (y = z)) t := by
  intro y zone₀ victim' killer' hy hv' hk'
  obtain rfl : victim = victim' := Option.some.inj (hv.symm.trans hv')
  obtain rfl : killer = killer' := Option.some.inj (hk.symm.trans hk')
  rw [← h.zones] at hy
  by_cases hyz : y = z
  · subst hyz
    obtain rfl : zone = zone₀ := Option.some.inj (hzone.symm.trans hy)
    obtain ⟨zone', hzone', hwar⟩ := Option.map_eq_some_iff.mp hself
    exact ⟨zone', hzone', by simpa using hwar⟩
  · exact ⟨zone₀, (hother y hyz).trans hy, by simp [hyz]⟩

/-- The zone that is named counts the kill. -/
theorem wp_countDeath {z : ℤ} (h : s.SameFight u) : wp (countDeath p killerid z)
    (fun _ t => s.CountsWhere p killerid (fun y _ => decide (y = z)) t) (fun _ _ => True) u := by
  simp only [countDeath, gangZoneMgr, Profile.ref, GangZoneItem.countMemberDeath,
    GangZoneItem.countEnemyKill, GangZoneItem.modifyZone, wp_bind, wp_gets, wp_orRaise,
    wp_orUndefined, wp_when, wp_modify, implies_true, and_true]
  intro zone hzone pr hpr kr hkr
  have hvictim : s.teamOf p = some pr.team := by rw [← h.teams, Server.teamOf, hpr]; rfl
  have hkiller : s.teamOf killerid = some kr.team := by rw [← h.teams, Server.teamOf, hkr]; rfl
  have hwar : ∀ w : TurfWarInfo, w.inWar = false → w.afterKill zone.owner pr.team kr.team = w :=
    fun w hw => TurfWarInfo.afterKill_eq (by simp [hw])
  have hcount : zone.warinfo.inWar = true → zone.warinfo.afterKill zone.owner pr.team kr.team =
      { zone.warinfo with
        memberDeath := zone.warinfo.memberDeath +
          if pr.team = zone.owner ∧ kr.team = zone.warinfo.attacker then 1 else 0
        enemyKill := zone.warinfo.enemyKill +
          if pr.team = zone.warinfo.attacker ∧ kr.team = zone.owner then 1 else 0 } := by
    intro hw
    simp only [TurfWarInfo.afterKill, hw, true_and]
  split <;> split <;> rename_i hdeath hkill
  all_goals
    refine h.countsWhere hzone hvictim hkiller ?_ fun y hy => by simp [hy]
    cases hw : zone.warinfo.inWar
    · simp [hzone, hw, hwar zone.warinfo hw]
    · rw [hcount hw]
      first | rw [if_pos hdeath] | rw [if_neg hdeath]
      first | rw [if_pos hkill] | rw [if_neg hkill]
      first
        | simp [hzone, hw]; done
        | simp only [hzone, add_zero]; rfl

/-- The zone that the code looks at counts the kill. -/
theorem wp_reportKill {kills : ℤ} (h : s.SameFight u) : wp (reportKill p killerid kills)
    (fun _ t => s.CountsWhere p killerid (s.looksAt p) t) (fun _ _ => True) u := by
  have hnone : ∀ v, s.SameFight v → (∀ z zone, s.looksAt p z zone = false) →
      s.CountsWhere p killerid (s.looksAt p) v := by
    intro v hv hlooks z zone victim killer hz _ _
    exact ⟨zone, hv.zones ▸ hz, by simp [hlooks]⟩
  have hcount : ∀ v, s.SameFight v → s.env.inAnyArea p = true → wp (do
        let zoneid ← GangZoneManager.getPointInWhichZone (s.env.pos p)
        when (zoneid ≠ -1) (countDeath p killerid zoneid))
      (fun _ t => s.CountsWhere p killerid (s.looksAt p) t) (fun _ _ => True) v := by
    intro v hv harea
    have hzone : v.pointInWhichZone (s.env.pos p) = s.pointInWhichZone (s.env.pos p) := by
      simp only [Server.pointInWhichZone, Server.zoneContains, hv.zones, hv.areas, hv.env]
    rw [wp_bind]
    refine wp_mono wp_getPointInWhichZone (fun z t ht => ?_) (fun _ _ _ => trivial)
    obtain ⟨rfl, rfl⟩ := ht
    rw [hzone, wp_when]
    split
    case isTrue hz =>
      have hchosen : s.looksAt p = fun y _ => decide (y = s.pointInWhichZone (s.env.pos p)) := by
        funext y _
        by_cases hy : s.pointInWhichZone (s.env.pos p) = y
        · subst hy
          simp [Server.looksAt, harea, hz]
        · simp [Server.looksAt, hy, Ne.symm hy]
      rw [hchosen]
      exact wp_countDeath hv
    case isFalse hz =>
      refine hnone t hv fun z _ => ?_
      by_cases hy : s.pointInWhichZone (s.env.pos p) = z
      · subst hy
        simp [Server.looksAt, not_ne_iff.mp hz]
      · simp [Server.looksAt, hy]
  rw [reportKill, wp_bind, wp_gets, h.env]
  refine wp_bind_keeps inferInstance h fun _ v hv => ?_
  rw [wp_when]
  split
  case isTrue harea => exact hcount v hv harea
  case isFalse harea => exact hnone v hv fun z _ => by simp [Server.looksAt, harea]

theorem wp_rewardKiller (h : s.SameFight u) : wp (rewardKiller p killerid)
    (fun _ t => s.CountsWhere p killerid (s.looksAt p) t) (fun _ _ => True) u := by
  rw [rewardKiller]
  refine wp_bind_keeps inferInstance h fun _ u hu => ?_
  refine wp_bind_keeps inferInstance hu fun _ u hu => ?_
  refine wp_bind_keeps inferInstance hu fun _ u hu => ?_
  refine wp_bind_keeps inferInstance hu fun _ u hu => ?_
  refine wp_bind_keeps inferInstance hu fun _ u hu => ?_
  refine wp_bind_keeps inferInstance hu fun kills u hu => ?_
  refine wp_bind_keeps inferInstance hu fun reward u hu => ?_
  rw [wp_ensure]
  refine wp_mono (wp_reportKill hu) (fun _ v hv => ?_) (fun _ _ _ => ?_)
  · have hstay : Stays [.streamer] (forEach PickupManager.destruct reward.toList) := inferInstance
    have hkept : ∀ k ∈ [Kind.streamer], ∀ a b : Server, k.change a b →
        s.CountsWhere p killerid (s.looksAt p) a → s.CountsWhere p killerid (s.looksAt p) b := by
      intro k hk a b hab ha z zone victim killer hz hvictim hkiller
      rw [List.mem_singleton] at hk
      subst hk
      rw [(Kind.frame hab).zones (by simp) (by simp)]
      exact ha z zone victim killer hz hvictim hkiller
    exact wp_mono (hstay.invariant hkept hv) (fun _ _ hw => hw) (fun _ _ _ => trivial)
  · exact wp_mono (wp_true _) (fun _ _ _ => trivial) (fun _ _ _ => trivial)

theorem wp_playerDeath (hkill : killerid ≠ invalidPlayerId) (h : s.SameFight u) :
    wp (playerDeath p killerid)
      (fun _ t => s.CountsWhere p killerid (s.looksAt p) t) (fun _ _ => True) u := by
  rw [playerDeath]
  refine wp_bind_keeps inferInstance h fun _ u hu => ?_
  refine wp_bind_keeps inferInstance hu fun role u hu => ?_
  refine wp_bind_keeps inferInstance hu fun _ u hu => ?_
  refine wp_bind_keeps inferInstance hu fun env u hu => ?_
  refine wp_bind_keeps inferInstance hu fun _ u hu => ?_
  refine wp_bind_keeps inferInstance hu fun _ u hu => ?_
  rw [when_true hkill]
  exact wp_rewardKiller hu

end Count

/-! ## Overlapping areas -/

/-- `OnPlayerDeath` without its handlers. -/
def unguardedDeath (p killerid reason : ℤ) : Game Unit := do
  givePlayerMoney p (-500)
  native (.sendDeathMessage killerid p reason)
  playerDeath p killerid

namespace Server
variable {s t : Server} {p killerid reason : ℤ}

/-- `OnPlayerDeath` gets to its end without an exception. -/
def HandlesDeath (s : Server) (p killerid reason : ℤ) (t : Server) : Prop :=
  unguardedDeath p killerid reason s = .ok () t

theorem HandlesDeath.onPlayerDeath (h : s.HandlesDeath p killerid reason t) :
    FreshCity.onPlayerDeath p killerid reason s = .ok true t := by
  obtain ⟨u, hu⟩ : ∃ u, givePlayerMoney p (-500) s = .ok () u := ⟨_, rfl⟩
  obtain ⟨v, hv⟩ : ∃ v, native (.sendDeathMessage killerid p reason) u = .ok () v := ⟨_, rfl⟩
  rw [HandlesDeath, unguardedDeath, bind_ok s hu, bind_ok u hv] at h
  have hreported : reported p .death (playerDeath p killerid) v = .ok () t := by
    rw [reported, handle_apply, h]
  rw [FreshCity.onPlayerDeath, bind_ok s hu, bind_ok u hv, bind_ok v hreported]
  rfl

/-- The zone the code looks at contains the dead player. -/
theorem contains_of_looksAt {z : ℤ} {zone : GangZoneItem} (hz : s.zones.lookup z = some zone)
    (h : s.looksAt p z zone = true) : s.zoneContains zone (s.env.pos p) = true := by
  simp only [looksAt, Bool.and_eq_true, decide_eq_true_eq] at h
  obtain ⟨⟨-, hfirst⟩, hne⟩ := h
  cases hfound : s.zones.entries.find? fun e => s.zoneContains e.2 (s.env.pos p) with
  | none =>
    simp only [pointInWhichZone, hfound, Option.map_none, Option.getD_none] at hfirst
    exact absurd hfirst.symm hne
  | some e =>
    simp only [pointInWhichZone, hfound, Option.map_some, Option.getD_some] at hfirst
    subst hfirst
    have hmem : s.zones.lookup e.1 = some e.2 :=
      AList.mem_lookup_iff.mpr (List.mem_of_find?_eq_some hfound)
    obtain rfl : zone = e.2 := Option.some.inj (hz.symm.trans hmem)
    have hcontains := List.find?_some hfound
    exact hcontains

/-- Where the code counts by the zone it looks at, it counts right exactly if it looks at
every zone whose war the kill belongs to. -/
theorem CountsWhere.killCounted_iff (h : s.CountsWhere p killerid (s.looksAt p) t) :
    s.KillCounted p killerid t ↔ s.WarsAreFirst p killerid := by
  constructor
  · intro hcounted z zone victim killer hz hv hk hin hwar hteams
    obtain ⟨zone', hz', hnew⟩ := h z zone victim killer hz hv hk
    obtain ⟨zone'', hz'', hright⟩ := hcounted z zone victim killer hz hv hk
    obtain rfl : zone' = zone'' := Option.some.inj (hz'.symm.trans hz'')
    have hlooks : s.looksAt p z zone = true := by
      by_contra hnot
      rw [if_neg hnot] at hnew
      rw [hnew, if_pos hin] at hright
      exact TurfWarInfo.afterKill_ne hwar hteams hright.symm
    simp only [looksAt, Bool.and_eq_true, decide_eq_true_eq] at hlooks
    exact ⟨hlooks.1.1, hlooks.1.2, hlooks.2⟩
  · intro hfirst z zone victim killer hz hv hk
    obtain ⟨zone', hz', hnew⟩ := h z zone victim killer hz hv hk
    refine ⟨zone', hz', hnew.trans ?_⟩
    by_cases hin : s.zoneContains zone (s.env.pos p) = true
    · by_cases hlooks : s.looksAt p z zone = true
      · rw [if_pos hin, if_pos hlooks]
      · have hnone : ¬(zone.warinfo.inWar = true ∧
            (victim = zone.owner ∧ killer = zone.warinfo.attacker ∨
              victim = zone.warinfo.attacker ∧ killer = zone.owner)) := by
          rintro ⟨hwar, hteams⟩
          obtain ⟨harea, hz, hne⟩ := hfirst z zone victim killer hz hv hk hin hwar hteams
          exact hlooks (by simp [looksAt, harea, hz, hne])
        rw [if_pos hin, if_neg hlooks, TurfWarInfo.afterKill_eq hnone]
    · have hlooks : ¬s.looksAt p z zone = true := fun hl => hin (contains_of_looksAt hz hl)
      rw [if_neg hin, if_neg hlooks]

end Server

/-- A kill is counted for the right zones exactly if every zone whose war it belongs to is
the one `GetPointInWhichZone` answers with, and the streamer has the dead player in some area. -/
theorem kill_counted_iff (s t : Server) (p killerid reason : ℤ)
    (hkill : killerid ≠ invalidPlayerId) (hrun : s.HandlesDeath p killerid reason t) :
    onPlayerDeath p killerid reason s = .ok true t ∧
      (s.KillCounted p killerid t ↔ s.WarsAreFirst p killerid) := by
  refine ⟨hrun.onPlayerDeath, Server.CountsWhere.killCounted_iff ?_⟩
  have hcounts : wp (unguardedDeath p killerid reason)
      (fun _ t => s.CountsWhere p killerid (s.looksAt p) t) (fun _ _ => True) s :=
    wp_bind_keeps inferInstance (.refl s) fun _ _ hu =>
      wp_bind_keeps inferInstance hu fun _ _ hu => wp_playerDeath hkill hu
  rwa [wp_of_ok hrun] at hcounts

/-! ## Two zones at one place -/

namespace Demo

/-- A zone of the first team, at war with the second or not. -/
def zoneAt (z : ℤ) (inWar : Bool) : GangZoneItem where
  item := {}
  addr := 0
  zone := z
  areaid := z
  triggerid := z
  name := []
  owner := team
  color := 0
  endtimerid := 0
  timeouttimerid := 0
  spawnpoint := OID.unset
  warinfo := { inWar := inWar, attacker := rivals }

/-- A member of a team. -/
def member (t : OID) : Profile := { item := {}, addr := 0, team := t, role := some Role.assault }

/-- Two players of different teams at a place that lies in all areas. -/
def fight (zones : Map ℤ GangZoneItem) : Server :=
  { initial with
    profiles := ((∅ : Map ℤ Profile).insert 0 (member team)).insert 1 (member rivals)
    zones := zones
    areas := ((∅ : Map ℤ GangZoneArea).insert 1 ⟨1, 1⟩).insert 2 ⟨2, 2⟩
    env := { inAnyArea := fun _ => true, pointInArea := fun _ _ => true } }

/-- One zone, at war. -/
def oneZone : Map ℤ GangZoneItem := (∅ : Map ℤ GangZoneItem).insert 1 (zoneAt 1 true)

/-- A second zone at the same place, which comes first. -/
def twoZones : Map ℤ GangZoneItem := oneZone.insert 2 (zoneAt 2 false)

end Demo

/-- With one zone the kill is counted. -/
theorem kill_counted_one_zone :
    ∃ t, (Demo.fight Demo.oneZone).KillCounted 0 1 t := by
  obtain ⟨_, t, hrun⟩ : ∃ a t, unguardedDeath 0 1 24 (Demo.fight Demo.oneZone) = .ok a t :=
    Outcome.exists_ok (by decide +kernel)
  have hiff := kill_counted_iff (Demo.fight Demo.oneZone) t 0 1 24 (by decide) hrun
  refine ⟨t, hiff.2.mpr fun z zone victim killer hz _ _ _ _ _ => ⟨rfl, ?_⟩⟩
  have hfirst : (Demo.fight Demo.oneZone).pointInWhichZone
      ((Demo.fight Demo.oneZone).env.pos 0) = 1 := by decide +kernel
  have hmem : z ∈ Demo.oneZone := Map.mem_iff_lookup.mpr ⟨zone, hz⟩
  have hone : z = 1 := by simpa [Demo.oneZone, AList.mem_keys] using hmem
  rw [hfirst, hone]
  decide

/-- The zone at war does not count the kill, because another one comes first. -/
theorem kill_missed_two_zones :
    ¬∀ (s t : Server) (p killerid reason : ℤ), killerid ≠ invalidPlayerId →
      s.HandlesDeath p killerid reason t → s.KillCounted p killerid t := by
  intro hall
  obtain ⟨_, t, hrun⟩ : ∃ a t, unguardedDeath 0 1 24 (Demo.fight Demo.twoZones) = .ok a t :=
    Outcome.exists_ok (by decide +kernel)
  have hdeaths : ((unguardedDeath 0 1 24 (Demo.fight Demo.twoZones)).state?.bind fun t =>
      t.zones.lookup 1).map (·.warinfo.memberDeath) = some 0 := by decide +kernel
  obtain ⟨zone', hzone', hright⟩ := hall _ t 0 1 24 (by decide) hrun 1
    (Demo.zoneAt 1 true) Demo.team Demo.rivals rfl rfl rfl
  rw [hrun, Outcome.state?_ok, Option.bind_some, hzone', Option.map_some, hright] at hdeaths
  exact absurd hdeaths (by decide +kernel)

end FreshCity
