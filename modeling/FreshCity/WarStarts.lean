import FreshCity.EndingWars
import FreshCity.Totality
import FreshCity.WarOutcomes

/-!
# Wars that do not start

`StartWar` sets the attacker and creates the end timer before it looks for the owner's
members. A start that throws later than that leaves them behind in a zone that is not
at war.
-/
namespace FreshCity
open Imperative Prog

/-! ## Scans as searches -/

namespace Server
variable (s : Server)

/-- The answer of `GetPointInWhichZone`. There is none if it comes to an area that is gone. -/
def searchZone (point : Coordinate3D) : Option ℤ :=
  ((s.zones.entries.map fun e => (e.1, e.2.areaid)).findM? fun e =>
    (s.areas.lookup e.2).map fun area => s.env.pointInArea area.id point).map
      fun found => (found.map Prod.fst).getD (-1)

/-- Whether one of the players is in a zone. There is no answer if the scan throws. -/
def searchMember (zone : ℤ) (members : List ℤ) : Option Bool :=
  (members.findM? fun q => (s.profiles.lookup q).bind fun _ =>
    (s.searchZone (s.env.pos q)).map fun inzone => decide (inzone = zone)).map Option.isSome

variable {s} {t : Server}

theorem searchZone_congr (hareas : t.areas = s.areas) (henv : t.env = s.env)
    (hzones : (t.zones.entries.map fun e => (e.1, e.2.areaid)) =
      s.zones.entries.map fun e => (e.1, e.2.areaid)) : t.searchZone = s.searchZone := by
  funext point
  rw [searchZone, searchZone, hareas, henv, hzones]

/-- The scan for a member does not depend on the wars. -/
theorem searchMember_congr (hprofiles : t.profiles = s.profiles) (hareas : t.areas = s.areas)
    (henv : t.env = s.env)
    (hzones : (t.zones.entries.map fun e => (e.1, e.2.areaid)) =
      s.zones.entries.map fun e => (e.1, e.2.areaid)) (zone : ℤ) (members : List ℤ) :
    t.searchMember zone members = s.searchMember zone members := by
  rw [searchMember, searchMember, searchZone_congr hareas henv hzones, hprofiles, henv]

end Server

section Scans
variable {s : Server}

theorem getPointInWhichZone_eq (point : Coordinate3D) :
    GangZoneManager.getPointInWhichZone point s = (getItem (s.searchZone point) : Game ℤ) s := by
  have hbody : ∀ e : Sigma fun _ : ℤ => GangZoneItem, (do
        let area ← DynamicAreaManager.get e.2.areaid
        pure (s.env.pointInArea area.id point) : Game Bool) s =
      (getItem ((s.areas.lookup e.2.areaid).map fun area => s.env.pointInArea area.id point) :
        Game Bool) s := by
    intro e
    simp only [DynamicAreaManager.get, bind_apply, gets_apply]
    cases s.areas.lookup e.2.areaid <;> rfl
  simp only [GangZoneManager.getPointInWhichZone, bind_apply, gets_apply,
    findFirst_of_reads hbody, Server.searchZone, findM?_map]
  cases s.zones.entries.findM? fun e =>
    (s.areas.lookup e.2.areaid).map fun area => s.env.pointInArea area.id point with
  | none => rfl
  | some found => cases found <;> rfl

theorem memberInZone_eq (zone : ℤ) (members : List ℤ) :
    GangZoneItem.memberInZone zone members s =
      (getItem (s.searchMember zone members) : Game Bool) s := by
  have hbody : ∀ q, (do
        let _ ← profileMgr q
        let env ← gets (·.env)
        let inzone ← GangZoneManager.getPointInWhichZone (env.pos q)
        pure (decide (inzone = zone)) : Game Bool) s =
      (getItem ((s.profiles.lookup q).bind fun _ =>
        (s.searchZone (s.env.pos q)).map fun inzone => decide (inzone = zone)) : Game Bool) s := by
    intro q
    simp only [profileMgr, bind_apply, gets_apply]
    cases s.profiles.lookup q with
    | none => rfl
    | some pr =>
      simp only [orRaise_some, pure_apply, getPointInWhichZone_eq]
      cases s.searchZone (s.env.pos q) <;> rfl
  simp only [GangZoneItem.memberInZone, bind_apply, findFirst_of_reads hbody, Server.searchMember]
  cases members.findM? fun q => (s.profiles.lookup q).bind fun _ =>
    (s.searchZone (s.env.pos q)).map fun inzone => decide (inzone = zone) <;> rfl

theorem wp_memberInZone_iff {zone : ℤ} {members : List ℤ} {Q : Bool → Server → Prop}
    {E : Exn → Server → Prop} : wp (GangZoneItem.memberInZone zone members) Q E s ↔
      (∀ arrived, s.searchMember zone members = some arrived → Q arrived s) ∧
      (s.searchMember zone members = none → E (.runtimeError .objectDoesntExist) s) :=
  (wp_of_eq (memberInZone_eq zone members)).trans (wp_orRaise ..)

end Scans

/-! ## Starts that fail -/

namespace Server
variable (s : Server)

/-- The pending timers of the wars on the zone at an address. -/
def warTimersAt (addr : ℕ) : List Timer :=
  s.timers.filter fun tm => tm.callback.war?.any fun war => war.1 = addr

/-- What a zone's war has, its owner and the timers of its wars are as before. -/
def SameWarAt (z : ℤ) (t : Server) : Prop :=
  ∀ zone, s.zones.lookup z = some zone →
    (∃ zone', t.zones.lookup z = some zone' ∧ zone'.warinfo = zone.warinfo ∧
      zone'.owner = zone.owner) ∧
    t.warTimersAt zone.addr = s.warTimersAt zone.addr

/-- What `StartWar` needs once it has created the end timer: the owner's team, all profiles and
areas the scan comes to, and the delay of the timeout timer if that is to be created. -/
def findsDefenders (zone : GangZoneItem) : Bool :=
  (s.teams.members.lookup zone.owner).any fun owner =>
    (s.searchMember zone.zone owner.onlineplayers.keys).any fun arrived =>
      arrived || (s.config.int .turfwartimeout).isSome

/-- Whether a start is refused, or throws before it changes the zone, or does not throw. -/
def startsWhole (z p : ℤ) : Bool :=
  (s.zones.lookup z).all fun zone => (s.profiles.lookup p).all fun pr =>
    zone.warinfo.inWar || pr.team = zone.owner || (s.teams.members.lookup pr.team).isNone ||
      if (s.config.int .turfwarlast).isSome then s.findsDefenders zone
      else zone.warinfo.attacker = pr.team

end Server

/-- A start that throws or returns false changes nothing of the zone's war. -/
def FailsWhole (z p : ℤ) (s : Server) : Prop :=
  wp (GangZoneItem.startWar z p) (fun began t => began = false → s.SameWarAt z t)
    (fun _ t => s.SameWarAt z t) s

namespace GangZoneItem
variable {s t : Server} {z p : ℤ} {zone : GangZoneItem}

theorem sameWarAt_self (hzone : s.zones.lookup z = some zone) (hzones : t.zones = s.zones)
    (htimers : t.timers = s.timers) : s.SameWarAt z t := by
  intro zone' hzone'
  obtain rfl := Option.some.inj (hzone.symm.trans hzone')
  exact ⟨⟨zone, by rw [hzones, hzone], rfl, rfl⟩,
    by rw [Server.warTimersAt, Server.warTimersAt, htimers]⟩

/-- Where a new timer of the zone is pending, something has changed. -/
theorem not_sameWarAt {tm : Timer} (hzone : s.zones.lookup z = some zone)
    (hcallback : tm.callback = .endTurfWar zone.addr) (htimers : t.timers = tm :: s.timers) :
    ¬s.SameWarAt z t := by
  intro hsame
  have hlength := congrArg List.length (hsame zone hzone).2
  simp [Server.warTimersAt, htimers, hcallback, TimerCallback.war?] at hlength

/-- The rest of a start, once the end timer is there, returns exactly if nothing is missing. -/
theorem wp_beginWar {attacker : OID} (hzone : s.zones.lookup z = some zone)
    (hteam : (s.teams.members.lookup attacker).isSome) :
    wp (beginWar z zone attacker)
      (fun _ _ => (s.config.int .turfwarlast).isSome ∧ s.findsDefenders zone = true)
      (fun _ t => if (s.config.int .turfwarlast).isSome
        then s.findsDefenders zone = false ∧ ¬s.SameWarAt z t
        else s.SameWarAt z t ↔ zone.warinfo.attacker = attacker) s := by
  obtain ⟨team, hteam⟩ := Option.isSome_iff_exists.mp hteam
  simp only [beginWar, teamMgr, pushMessage, emit, createWarTimer, configInt, createTimer,
    modifyZone, wp_bind, wp_gets, wp_orRaise, wp_modify, wp_pure, hteam, Option.some.injEq,
    forall_eq', reduceCtorEq, false_imp_iff, and_true, wp_memberInZone_iff]
  refine ⟨fun last hlast => ?_, fun hlast => ?_⟩
  case refine_2 =>
    -- only the attacker was written
    simp only [hlast, Option.isSome_none, Bool.false_eq_true, if_false]
    refine ⟨fun hsame => ?_, fun hattacker => ?_⟩
    · obtain ⟨zone', hzone', hwar, -⟩ := (hsame zone hzone).1
      rw [Map.lookup_adjust_self hzone] at hzone'
      obtain rfl := Option.some.inj hzone'
      exact (congrArg TurfWarInfo.attacker hwar).symm
    · refine sameWarAt_self hzone (Map.adjust_eq_self fun v hv => ?_) rfl
      obtain rfl := Option.some.inj (hzone.symm.trans hv)
      rw [← hattacker]
  simp only [hlast, Option.isSome_some, if_true, true_and, Server.findsDefenders]
  have hchanged : ∀ t : Server, t.timers =
      s.warTimer s.nexthandle (.endTurfWar zone.addr) last :: s.timers → ¬s.SameWarAt z t :=
    fun t => not_sameWarAt hzone rfl
  refine ⟨fun owner howner => ?_, fun hnone => ⟨by simp [hnone], hchanged _ rfl⟩⟩
  rw [howner, Option.any_some]
  -- the scan runs in a state with another war, but the same areas
  have hareas : ∀ f g : GangZoneItem → GangZoneItem, (∀ v, (g (f v)).areaid = v.areaid) →
      (((s.zones.adjust z f).adjust z g).entries.map fun e => (e.1, e.2.areaid)) =
        s.zones.entries.map fun e => (e.1, e.2.areaid) := by
    intro f g hfg
    rw [Map.adjust_adjust]
    exact Map.map_entries_adjust (g := (·.areaid)) hfg s.zones z
  have hscan : ∀ {t : Server} {found : Option Bool},
      t.searchMember zone.zone owner.onlineplayers.keys = found → t.profiles = s.profiles →
      t.areas = s.areas → t.env = s.env →
      (t.zones.entries.map fun e => (e.1, e.2.areaid)) =
        s.zones.entries.map (fun e => (e.1, e.2.areaid)) →
      s.searchMember zone.zone owner.onlineplayers.keys = found :=
    fun hfound hprofiles hareas henv hzones =>
      (Server.searchMember_congr hprofiles hareas henv hzones _ _).symm.trans hfound
  refine ⟨fun arrived harrived => ?_, fun hthrows => ⟨?_, hchanged _ rfl⟩⟩
  case refine_2 => rw [hscan hthrows rfl rfl rfl (hareas _ _ fun _ => rfl), Option.any_none]
  replace harrived := hscan harrived rfl rfl rfl (hareas _ _ fun _ => rfl)
  rw [harrived, Option.any_some]
  simp only [wp_when, wp_bind, wp_gets, wp_orRaise, wp_modify, wp_pure]
  split
  case isTrue hnobody =>
    refine ⟨fun minutes hminutes => ?_, fun hminutes => ⟨?_, hchanged _ rfl⟩⟩
    · exact wp_mono wp_redraw (fun _ _ _ => by simp [hminutes]) (fun _ _ h => h.elim)
    · simpa [hminutes] using hnobody
  case isFalse hsomebody =>
    have harrived : arrived = true := by simpa using hsomebody
    exact wp_mono wp_redraw (fun _ _ _ => by simp [harrived]) (fun _ _ h => h.elim)

theorem defined_beginWar {attacker : OID} (hzone : s.zones.lookup z = some zone) :
    Defined (beginWar z zone attacker) s := by
  simp only [beginWar, teamMgr, pushMessage, emit, createWarTimer, configInt, createTimer,
    modifyZone, redraw, ref, gangZoneFlashForAll, gangZoneShowForAll, defined_bind, defined_when,
    defined_ite, defined_gets, defined_orRaise, defined_modify, defined_pure, wp_bind, wp_gets,
    wp_orRaise, wp_modify, wp_pure, wp_when, defined_of_eq (memberInZone_eq _ _),
    wp_memberInZone_iff, Map.lookup_adjust, hzone, if_true, Option.map_some, orUndefined_some,
    implies_true, true_and, and_true, ite_self]

theorem defined_startWar {pr : Profile} (hzone : s.zones.lookup z = some zone)
    (hpr : s.profiles.lookup p = some pr) : Defined (startWar z p) s := by
  have hbegin : ∀ attacker, Defined (beginWar z zone attacker) s := fun _ => defined_beginWar hzone
  simp only [startWar, ref, Profile.ref, defined_bind, defined_ite, defined_gets, defined_pure,
    wp_bind, wp_gets, wp_pure, hzone, hpr, orUndefined_some, hbegin, wp_true, and_self, ite_self]

/-- A start that fails changes nothing exactly if nothing is missing that it needs. -/
theorem wp_startWar_whole : wp (startWar z p)
    (fun began t => (began = false → s.SameWarAt z t) ↔ s.startsWhole z p = true)
    (fun _ t => s.SameWarAt z t ↔ s.startsWhole z p = true) s := by
  simp only [startWar, ref, Profile.ref, wp_bind, wp_gets, wp_orUndefined, wp_ite]
  intro zone hzone pr hpr
  have hself : s.SameWarAt z s := sameWarAt_self hzone rfl rfl
  have hwhole : s.startsWhole z p = (zone.warinfo.inWar || pr.team = zone.owner ||
      (s.teams.members.lookup pr.team).isNone || if (s.config.int .turfwarlast).isSome
        then s.findsDefenders zone else zone.warinfo.attacker = pr.team) := by
    simp only [Server.startsWhole, hzone, hpr, Option.all_some]
  split
  case isTrue hwar => exact iff_of_true (fun _ => hself) (by rw [hwhole, hwar]; rfl)
  rename_i hwar
  split
  case isTrue howner => exact iff_of_true (fun _ => hself) (by simp [hwhole, howner])
  rename_i howner
  cases hteam : s.teams.members.lookup pr.team with
  | none =>
    simp only [beginWar, teamMgr, wp_bind, wp_gets, hteam]
    exact iff_of_true hself (by simp [hwhole, hteam])
  | some team =>
    rw [hteam, eq_false_of_ne_true hwar, decide_eq_false howner, Option.isNone_some,
      Bool.or_false, Bool.or_false, Bool.false_or] at hwhole
    refine wp_mono (wp_beginWar hzone (by rw [hteam]; rfl)) (fun _ t ht => ?_) (fun _ t ht => ?_)
    · exact iff_of_true (fun hfalse => Bool.noConfusion hfalse) (by rw [hwhole, if_pos ht.1, ht.2])
    · rw [hwhole]
      split at ht
      case isTrue hlast => rw [if_pos hlast, ht.1]; exact iff_of_false ht.2 Bool.false_ne_true
      case isFalse hlast => rw [if_neg hlast, decide_eq_true_eq, ht]

end GangZoneItem

/-- A failed `StartWar` leaves the zone's war, its owner and its timers as they were exactly if
the start is refused, throws before it writes, or finds everything it needs. -/
theorem failed_start_changes_nothing_iff (s : Server) (z p : ℤ) :
    FailsWhole z p s ↔ s.startsWhole z p = true := by
  have hrun := GangZoneItem.wp_startWar_whole (s := s) (z := z) (p := p)
  rw [FailsWhole]
  cases h : GangZoneItem.startWar z p s with
  | ok began t =>
    rw [wp_of_ok h] at hrun ⊢
    exact hrun
  | error e t =>
    rw [wp_of_error h] at hrun ⊢
    exact hrun
  | undefined =>
    refine iff_of_true (wp_of_undefined h) ?_
    by_contra hwhole
    obtain ⟨zone, pr, hzone, hpr⟩ : ∃ zone pr, s.zones.lookup z = some zone ∧
        s.profiles.lookup p = some pr := by
      rw [Server.startsWhole] at hwhole
      rcases hzone : s.zones.lookup z with _ | zone
      · simp [hzone] at hwhole
      rcases hpr : s.profiles.lookup p with _ | pr
      · simp [hzone, hpr] at hwhole
      exact ⟨zone, pr, rfl, rfl⟩
    have hdefined := GangZoneItem.defined_startWar hzone hpr
    rw [Defined, h] at hdefined
    cases hdefined

namespace Demo

/-- The attackers are at the zone, whose owner has no team any more. -/
def abandoned : Server :=
  { besieged with teams := { besieged.teams with members := besieged.teams.members.erase team } }

end Demo

/-- The owner's team is gone: the end timer is pending, and the attacker is set. -/
theorem failed_start_arms_timer : ¬∀ (s : Server) (z p : ℤ), FailsWhole z p s := by
  intro hall
  have hwhole := (failed_start_changes_nothing_iff Demo.abandoned 1 0).mp (hall _ _ _)
  exact absurd hwhole (by decide +kernel)

end FreshCity
