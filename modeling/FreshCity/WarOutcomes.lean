import FreshCity.Imperative.Run
import FreshCity.ZoneColours

/-!
# Who wins a turf war

A log of what happened to a zone says which war is going on, who started it and how
many were killed in it. The zone's own counters agree with the log, so the log
decides how the war ends.
-/
namespace FreshCity
open Imperative Prog

/-! ## Logs of a zone -/

/-- What happened to a zone. -/
inductive WarEvent where
  | started (attacker : OID)
  | refused
  | enemyKill
  | memberDeath
  | ended (won : Bool)
  deriving DecidableEq

/-- What happened to a zone, the latest first. -/
abbrev WarLog := List WarEvent

namespace WarLog

/-- The team that started the war that is going on. -/
def attacker : WarLog → Option OID
  | [] => none
  | .started team :: _ => some team
  | .ended _ :: _ => none
  | _ :: log => attacker log

/-- How often something happened since the last war started. -/
def countSince (e : WarEvent) : WarLog → ℤ
  | [] => 0
  | .started _ :: _ => 0
  | f :: log => countSince e log + if f = e then 1 else 0

/-- Whether the attacker wins the war that is going on, if it ends now. -/
def attackerWins (log : WarLog) (causedbytimeout : Bool) : Bool :=
  causedbytimeout || decide (log.countSince .enemyKill < log.countSince .memberDeath)

end WarLog

/-! ## Operations -/

/-- The calls on one zone. Between two of them, anything but the zone may change. -/
inductive WarOp where
  | startWar (p : ℤ)
  | countEnemyKill
  | countMemberDeath
  | endWar (causedbytimeout : Bool)
  | elsewhere (t : Server)

/-- Another server that has the zone of this one. -/
def Server.aroundZone (s : Server) (z : ℤ) (t : Server) : Server :=
  { t with zones := (s.zones.lookup z).elim t.zones (t.zones.insert z) }

namespace WarOp

/-- The log after a start that returned normally. -/
def logStart (s : Server) (p : ℤ) (log : WarLog) (started : Bool) : WarLog :=
  (if started then .started ((s.teamOf p).getD OID.unset) else .refused) :: log

/-- A call, and what the log says afterwards. A start that throws is refused. -/
def step (z : ℤ) (w : Server × WarLog) : WarOp → Option (Server × WarLog)
  | startWar p => match GangZoneItem.startWar z p w.1 with
    | .ok started t => some (t, logStart w.1 p w.2 started)
    | .error _ t => some (t, .refused :: w.2)
    | .undefined => none
  | countEnemyKill => match GangZoneItem.countEnemyKill z w.1 with
    | .ok _ t => some (t, .enemyKill :: w.2)
    | _ => none
  | countMemberDeath => match GangZoneItem.countMemberDeath z w.1 with
    | .ok _ t => some (t, .memberDeath :: w.2)
    | _ => none
  | endWar causedbytimeout => match GangZoneItem.endWar z causedbytimeout w.1 with
    | .ok won t => some (t, .ended won :: w.2)
    | _ => none
  | elsewhere t => some (w.1.aroundZone z t, w.2)

end WarOp

/-- What a call does to the owner and returns, as the log before it tells. -/
def WarOutcome (z : ℤ) (w : Server × WarLog) (op : WarOp) (u : Server × WarLog) : Prop :=
  ∃ zone zone', w.1.zones.lookup z = some zone ∧ u.1.zones.lookup z = some zone' ∧
    zone.warinfo.inWar = w.2.attacker.isSome ∧
    match op, w.2.attacker with
    | .endWar causedbytimeout, some team =>
      u.2 = .ended (w.2.attackerWins causedbytimeout) :: w.2 ∧ team ≠ zone.owner ∧
        zone'.owner = if w.2.attackerWins causedbytimeout then team else zone.owner
    | .endWar _, none => u.2 = .ended false :: w.2 ∧ zone' = zone
    | _, _ => zone'.owner = zone.owner

/-! ## The counters agree with the log -/

/-- The members of a zone that a log tells. -/
structure GangZoneItem.Agrees (zone : GangZoneItem) (log : WarLog) : Prop where
  inWar : zone.warinfo.inWar = log.attacker.isSome
  attacker : ∀ team, log.attacker = some team → zone.warinfo.attacker = team ∧ team ≠ zone.owner
  enemyKill : zone.warinfo.enemyKill =
    if zone.warinfo.inWar then log.countSince .enemyKill else 0
  memberDeath : zone.warinfo.memberDeath =
    if zone.warinfo.inWar then log.countSince .memberDeath else 0

/-- A zone after `CountEnemyKill`. -/
def GangZoneItem.killCounted (zone : GangZoneItem) : GangZoneItem :=
  if zone.warinfo.inWar then
    { zone with warinfo := { zone.warinfo with enemyKill := zone.warinfo.enemyKill + 1 } }
  else zone

/-- A zone after `CountMemberDeath`. -/
def GangZoneItem.deathCounted (zone : GangZoneItem) : GangZoneItem :=
  if zone.warinfo.inWar then
    { zone with warinfo := { zone.warinfo with memberDeath := zone.warinfo.memberDeath + 1 } }
  else zone

/-- The owner and the war of a zone, up to the attacker, who is only read in a war. -/
structure GangZoneItem.SameWar (zone zone' : GangZoneItem) : Prop where
  owner : zone'.owner = zone.owner
  inWar : zone'.warinfo.inWar = zone.warinfo.inWar
  enemyKill : zone'.warinfo.enemyKill = zone.warinfo.enemyKill
  memberDeath : zone'.warinfo.memberDeath = zone.warinfo.memberDeath

namespace GangZoneItem
variable {s t : Server} {z p : ℤ} {zone zone' : GangZoneItem} {log : WarLog}

/-- A start that throws leaves the zone in peace. -/
theorem wp_startWar_of_error (hzone : s.zones.lookup z = some zone) :
    wp (startWar z p) (fun _ _ => True)
      (fun _ t => zone.warinfo.inWar = false ∧
        ∃ zone', t.zones.lookup z = some zone' ∧ zone.SameWar zone') s := by
  simp only [startWar, ref, Profile.ref, wp_bind, wp_gets, wp_orUndefined, hzone,
    Option.some.injEq, forall_eq', wp_ite]
  intro pr _
  split
  · trivial
  split
  · trivial
  rename_i hwar _
  have hpeace : zone.warinfo.inWar = false := by simpa using hwar
  simp only [beginWar, teamMgr, pushMessage, emit, createWarTimer, configInt, createTimer,
    modifyZone, wp_bind, wp_gets, wp_orRaise, wp_modify, wp_pure]
  -- the attacker and the end timer are set before anything else can throw
  refine ⟨fun team _ => ⟨fun last _ => ⟨fun owner _ => ?_, fun _ => ⟨hpeace, ?_⟩⟩,
    fun _ => ⟨hpeace, ?_⟩⟩, fun _ => ⟨hpeace, zone, hzone, ⟨rfl, rfl, rfl, rfl⟩⟩⟩
  · have hscan := (inferInstance : Stays []
      (memberInZone zone.zone owner.onlineplayers.keys)).unchanged
    refine wp_mono (hscan _) (fun arrived t ht => ?_) (fun _ t ht => ⟨hpeace, ?_⟩)
    · subst ht
      simp only [wp_when, wp_bind, wp_gets, wp_orRaise, wp_modify, wp_pure]
      split
      case isTrue =>
        refine ⟨fun _ _ => ?_, fun _ => ⟨hpeace, ?_⟩⟩
        · exact wp_mono wp_redraw (fun _ _ _ => trivial) (fun _ _ h => h.elim)
        · exact ⟨_, Map.lookup_adjust_self (Map.lookup_adjust_self hzone _) _,
            ⟨rfl, rfl, rfl, rfl⟩⟩
      case isFalse => exact wp_mono wp_redraw (fun _ _ _ => trivial) (fun _ _ h => h.elim)
    · subst ht
      exact ⟨_, Map.lookup_adjust_self (Map.lookup_adjust_self hzone _) _, ⟨rfl, rfl, rfl, rfl⟩⟩
  · exact ⟨_, Map.lookup_adjust_self (Map.lookup_adjust_self hzone _) _, ⟨rfl, rfl, rfl, rfl⟩⟩
  · exact ⟨_, Map.lookup_adjust_self hzone _, ⟨rfl, rfl, rfl, rfl⟩⟩

namespace Agrees

/-- A zone that no war was started on agrees with the empty log. -/
theorem empty (h : zone.warinfo = {}) : zone.Agrees [] where
  inWar := by rw [h]; rfl
  attacker := by rintro team ⟨⟩
  enemyKill := by rw [h]; rfl
  memberDeath := by rw [h]; rfl

theorem attacker_none (h : zone.Agrees log) (hpeace : zone.warinfo.inWar = false) :
    log.attacker = none := by
  have hnone := h.inWar
  rw [hpeace] at hnone
  exact Option.not_isSome_iff_eq_none.mp (by simp [← hnone])

/-- The attacker wins by the zone's counters exactly if the log says so. -/
theorem attackerWins (h : zone.Agrees log) (hwar : zone.warinfo.inWar = true) (b : Bool) :
    zone.attackerWins b = log.attackerWins b := by
  have henemy := h.enemyKill
  have hmember := h.memberDeath
  rw [if_pos hwar] at henemy hmember
  rw [GangZoneItem.attackerWins, WarLog.attackerWins, henemy, hmember]

/-- A refused start changes neither the war nor what the log tells of it. -/
theorem refused (h : zone.Agrees log) (hsame : zone.SameWar zone')
    (hattacker : zone.warinfo.inWar = true → zone'.warinfo.attacker = zone.warinfo.attacker) :
    zone'.Agrees (.refused :: log) where
  inWar := hsame.inWar.trans h.inWar
  attacker team hteam := by
    have hwar : zone.warinfo.inWar = true := by
      rw [h.inWar, show log.attacker = some team from hteam]
      rfl
    rw [hattacker hwar, hsame.owner]
    exact h.attacker team hteam
  enemyKill := by
    rw [hsame.enemyKill, hsame.inWar, h.enemyKill]
    simp [WarLog.countSince]
  memberDeath := by
    rw [hsame.memberDeath, hsame.inWar, h.memberDeath]
    simp [WarLog.countSince]

/-- A war begins with no one killed. -/
theorem started {team : OID} {endtimer : ℤ} {timeouttimer : Option ℤ} (h : zone.Agrees log)
    (hpeace : zone.warinfo.inWar = false) (howner : team ≠ zone.owner) :
    (zone.warBegun team endtimer timeouttimer).Agrees (.started team :: log) where
  inWar := rfl
  attacker := by
    rintro _ ⟨⟩
    exact ⟨rfl, howner⟩
  enemyKill := by
    have henemy := h.enemyKill
    rw [hpeace] at henemy
    simpa [warBegun, WarLog.countSince] using henemy
  memberDeath := by
    have hmember := h.memberDeath
    rw [hpeace] at hmember
    simpa [warBegun, WarLog.countSince] using hmember

/-- After an end there is peace. -/
theorem ended {won : Bool} (hzone : zone.warinfo.inWar = false)
    (hkills : zone.warinfo.enemyKill = 0 ∧ zone.warinfo.memberDeath = 0) :
    zone.Agrees (.ended won :: log) where
  inWar := hzone
  attacker := by rintro team ⟨⟩
  enemyKill := by rw [hkills.1, hzone]; rfl
  memberDeath := by rw [hkills.2, hzone]; rfl

/-- A kill is counted in a war only. -/
theorem kill (h : zone.Agrees log) : zone.killCounted.Agrees (.enemyKill :: log) := by
  have henemy := h.enemyKill
  have hmember := h.memberDeath
  rw [killCounted]
  split
  case isTrue hwar =>
    rw [if_pos hwar] at henemy hmember
    exact ⟨h.inWar, h.attacker, by simp [hwar, henemy, WarLog.countSince],
      by simp [hwar, hmember, WarLog.countSince]⟩
  case isFalse hwar =>
    rw [if_neg hwar] at henemy hmember
    exact ⟨h.inWar, h.attacker, by simp [hwar, henemy], by simp [hwar, hmember]⟩

/-- A death is counted in a war only. -/
theorem death (h : zone.Agrees log) : zone.deathCounted.Agrees (.memberDeath :: log) := by
  have henemy := h.enemyKill
  have hmember := h.memberDeath
  rw [deathCounted]
  split
  case isTrue hwar =>
    rw [if_pos hwar] at henemy hmember
    exact ⟨h.inWar, h.attacker, by simp [hwar, henemy, WarLog.countSince],
      by simp [hwar, hmember, WarLog.countSince]⟩
  case isFalse hwar =>
    rw [if_neg hwar] at henemy hmember
    exact ⟨h.inWar, h.attacker, by simp [hwar, henemy], by simp [hwar, hmember]⟩

end Agrees
end GangZoneItem

/-! ## Runs of calls -/

/-- The zone is registered and agrees with the log. -/
def Logged (z : ℤ) (w : Server × WarLog) : Prop :=
  ∃ zone, w.1.zones.lookup z = some zone ∧ zone.Agrees w.2

section Calls
variable {z p : ℤ} {w u : Server × WarLog} {zone : GangZoneItem}

/-- A call after which the zone has the owner it had. -/
theorem WarOutcome.of_owner {op : WarOp} {zone' : GangZoneItem}
    (hop : ∀ causedbytimeout, op ≠ .endWar causedbytimeout)
    (hzone : w.1.zones.lookup z = some zone) (h : zone.Agrees w.2)
    (hzone' : u.1.zones.lookup z = some zone') (howner : zone'.owner = zone.owner) :
    WarOutcome z w op u := by
  refine ⟨zone, zone', hzone, hzone', h.inWar, ?_⟩
  cases op
  case endWar causedbytimeout => exact absurd rfl (hop causedbytimeout)
  all_goals
    cases w.2.attacker
    all_goals exact howner

theorem startWar_logged (hzone : w.1.zones.lookup z = some zone) (h : zone.Agrees w.2)
    (hu : WarOp.step z w (.startWar p) = some u) :
    WarOutcome z w (.startWar p) u ∧ Logged z u := by
  rw [WarOp.step] at hu
  split at hu
  case h_1 began t hrun =>
    obtain rfl := Option.some.inj hu
    have hbegan := (wp_of_ok hrun).mp (GangZoneItem.wp_startWar hzone)
    cases began
    case true =>
      obtain ⟨hpeace, team, last, timeout, hteam, howner, hwar⟩ := hbegan
      have hzone' := Map.lookup_adjust_self hzone fun zone =>
        zone.warBegun team w.1.nexthandle (timeout.map fun _ => w.1.nexthandle + 1)
      rw [← hwar.zones] at hzone'
      have hattacker : w.1.teamOf p = some team := hteam
      refine ⟨.of_owner (by simp) hzone h hzone' rfl, _, hzone', ?_⟩
      rw [WarOp.logStart, if_pos rfl, hattacker]
      exact h.started hpeace howner
    case false =>
      obtain rfl : t = w.1 := hbegan
      exact ⟨.of_owner (by simp) hzone h hzone rfl, zone, hzone,
        h.refused ⟨rfl, rfl, rfl, rfl⟩ fun _ => rfl⟩
  case h_2 e t hrun =>
    obtain rfl := Option.some.inj hu
    obtain ⟨hpeace, zone', hzone', hsame⟩ :=
      (wp_of_error hrun).mp (GangZoneItem.wp_startWar_of_error hzone)
    refine ⟨.of_owner (by simp) hzone h hzone' hsame.owner, zone', hzone', h.refused hsame ?_⟩
    intro hwar
    rw [hpeace] at hwar
    cases hwar
  case h_3 => cases hu

theorem endWar_logged {causedbytimeout : Bool} (hzone : w.1.zones.lookup z = some zone)
    (h : zone.Agrees w.2) (hu : WarOp.step z w (.endWar causedbytimeout) = some u) :
    WarOutcome z w (.endWar causedbytimeout) u ∧ Logged z u := by
  rw [WarOp.step] at hu
  split at hu
  case h_2 => cases hu
  rename_i won t hrun
  obtain rfl := Option.some.inj hu
  have hended := (wp_of_ok hrun).mp (GangZoneItem.wp_endWar hzone)
  split at hended
  case isTrue hwar =>
    obtain ⟨rfl, hended⟩ := hended
    obtain ⟨item, hzone'⟩ := hended.ended
    obtain ⟨team, hteam⟩ := Option.isSome_iff_exists.mp (h.inWar.symm.trans hwar)
    obtain ⟨hattacker, howner⟩ := h.attacker team hteam
    refine ⟨⟨zone, _, hzone, hzone', h.inWar, ?_⟩, _, hzone', .ended rfl ⟨rfl, rfl⟩⟩
    have hwins := h.attackerWins hwar causedbytimeout
    rw [hteam]
    refine ⟨by rw [hwins], howner, ?_⟩
    rw [← hwins, ← hattacker]
    rfl
  case isFalse hwar =>
    obtain ⟨rfl, rfl⟩ := hended
    have hpeace : zone.warinfo.inWar = false := by simpa using hwar
    have henemy := h.enemyKill
    have hmember := h.memberDeath
    rw [if_neg hwar] at henemy hmember
    refine ⟨⟨zone, zone, hzone, hzone, h.inWar, ?_⟩, zone, hzone, .ended hpeace ⟨henemy, hmember⟩⟩
    rw [h.attacker_none hpeace]
    exact ⟨rfl, rfl⟩

theorem count_logged {op : WarOp} {event : WarEvent} {g : GangZoneItem → GangZoneItem}
    (hop : ∀ causedbytimeout, op ≠ .endWar causedbytimeout) (howner : ∀ x, (g x).owner = x.owner)
    (hagrees : (g zone).Agrees (event :: w.2)) (hzone : w.1.zones.lookup z = some zone)
    (h : zone.Agrees w.2) (hu : ({ w.1 with zones := w.1.zones.adjust z g }, event :: w.2) = u) :
    WarOutcome z w op u ∧ Logged z u := by
  subst hu
  have hzone' := Map.lookup_adjust_self hzone g
  exact ⟨.of_owner hop hzone h hzone' (howner zone), g zone, hzone', hagrees⟩

/-- One call does what the log tells, and the log goes on telling of the zone. -/
theorem warOp_step_logged (op : WarOp) (h : Logged z w) (hu : WarOp.step z w op = some u) :
    WarOutcome z w op u ∧ Logged z u := by
  obtain ⟨zone, hzone, h⟩ := h
  cases op
  case startWar p => exact startWar_logged hzone h hu
  case countEnemyKill =>
    exact count_logged (g := GangZoneItem.killCounted) (by simp)
      (fun x => by rw [GangZoneItem.killCounted]; split <;> rfl) h.kill hzone h (Option.some.inj hu)
  case countMemberDeath =>
    exact count_logged (g := GangZoneItem.deathCounted) (by simp)
      (fun x => by rw [GangZoneItem.deathCounted]; split <;> rfl) h.death hzone h
      (Option.some.inj hu)
  case endWar causedbytimeout => exact endWar_logged hzone h hu
  case elsewhere t =>
    obtain rfl := Option.some.inj hu
    have hzone' : (w.1.aroundZone z t).zones.lookup z = some zone := by
      simp [Server.aroundZone, hzone]
    exact ⟨.of_owner (by simp) hzone h hzone' rfl, zone, hzone', h⟩

end Calls

/-- In every sequence of calls on a zone, the kills since a war started decide who wins it. -/
theorem wars_are_decided_by_their_kills (z : ℤ) (s : Server)
    (hzone : (s.zones.lookup z).map (·.warinfo) = some {}) (ops : List WarOp) :
    Run.AllSteps (WarOp.step z) (WarOutcome z) (s, []) ops := by
  obtain ⟨zone, hzone, hwarinfo⟩ := Option.map_eq_some_iff.mp hzone
  have hlogged : Logged z (s, []) := ⟨zone, hzone, .empty hwarinfo⟩
  exact Run.AllSteps.of_step (I := Logged z) (fun _ op _ h hu => warOp_step_logged op h hu)
    hlogged ops

/-! ## Two wars on one zone -/

namespace Demo

/-- The zone is loaded, and no war was started on it. -/
def besieged : Server := (ZoneOp.step siege (.load, env)).getD siege

/-- The first war is defended. A death after it does not count in the second one, which the
attackers win. -/
def twoWars : List WarOp :=
  [.startWar 0, .countMemberDeath, .startWar 0, .countEnemyKill, .endWar false,
   .countMemberDeath, .startWar 0, .endWar false, .startWar 0, .countMemberDeath, .endWar false]

end Demo

/-- The owner of a zone and its log after two wars. -/
theorem second_war_is_won :
    Run.AllSteps (WarOp.step 1) (WarOutcome 1) (Demo.besieged, []) Demo.twoWars ∧
      (Run.final (WarOp.step 1) (Demo.besieged, []) Demo.twoWars).any (fun u =>
        u.2.head? = some (.ended true) ∧ (u.1.zones.lookup 1).map (·.owner) = some Demo.rivals) :=
  ⟨wars_are_decided_by_their_kills 1 Demo.besieged (by decide +kernel) Demo.twoWars,
    by decide +kernel⟩

end FreshCity
