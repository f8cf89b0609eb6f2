import FreshCity.EndingWars
import FreshCity.WarOutcomes

/-!
# The timers of a zone's wars

A war sets up an end timer, and a timeout timer if none of the owner's members is in
the zone. The end by timeout cancels the end timer; the other end leaves the timeout
timer pending. `MemberArrived` destroys the timer that a member of the zone names,
whether a war has set that member or not.
-/
namespace FreshCity
open Imperative Prog Run

/-! ## Operations -/

/-- The calls on one zone and the firings of its timers. Between two of them, anything but the
zones and the timers may change, and time may pass. -/
inductive WarTimerOp where
  | startWar (p : ℤ)
  | memberArrived
  | fire (handle : ℤ)
  | elsewhere (t : Server)

/-- A server, and the handles of the timers that the last war on a zone set up. -/
abbrev WarClock := Server × List ℤ

namespace Server
variable (s : Server)

/-- Whether a timer is one of a zone's wars. -/
def timesZone (z : ℤ) (tm : Timer) : Bool :=
  (s.zones.lookup z).any fun zone => tm.callback.war?.any fun war => war.1 = zone.addr

/-- Whether a timer of a zone's wars is due, and none of them is due before it. -/
def firesNext (z : ℤ) (tm : Timer) : Bool :=
  s.timesZone z tm && decide (tm.due ≤ s.env.clock) &&
    s.timers.all fun u => !s.timesZone z u || decide (tm.due ≤ u.due)

/-- The handles of the timers that came since. -/
def setUpSince (t : Server) : List ℤ :=
  (t.timers.filter fun tm => s.nexthandle ≤ tm.handle).map (·.handle)

/-- The end timers of a zone's wars. -/
def endTimers (zone : GangZoneItem) : List Timer :=
  s.timers.filter fun tm => tm.callback = .endTurfWar zone.addr

/-- The timeout timers of a zone's wars. -/
def timeoutTimers (zone : GangZoneItem) : List Timer :=
  s.timers.filter fun tm => tm.callback = .turfWarWaitTimeout zone.addr

variable {s} {zone zone' : GangZoneItem} {tm : Timer}

@[simp] theorem mem_endTimers :
    tm ∈ s.endTimers zone ↔ tm ∈ s.timers ∧ tm.callback = .endTurfWar zone.addr := by
  simp [endTimers]

@[simp] theorem mem_timeoutTimers :
    tm ∈ s.timeoutTimers zone ↔ tm ∈ s.timers ∧ tm.callback = .turfWarWaitTimeout zone.addr := by
  simp [timeoutTimers]

end Server

namespace WarTimerOp

/-- The server after an operation that succeeds. -/
def step (z : ℤ) (w : WarClock) : WarTimerOp → Option WarClock
  | startWar p => match GangZoneItem.startWar z p w.1 with
    | .ok began t => some (t, if began then w.1.setUpSince t else w.2)
    | _ => none
  | memberArrived => match GangZoneItem.memberArrived z w.1 with
    | .ok _ t => some (t, w.2)
    | _ => none
  | fire handle =>
    if (w.1.timers.find? fun tm => tm.handle = handle).any (w.1.firesNext z) then
      match fireTimer handle w.1 with
      | .ok _ t => some (t, w.2)
      | _ => none
    else none
  | elsewhere t =>
    if w.1.env.clock ≤ t.env.clock then
      some ({ t with
        zones := w.1.zones
        timers := w.1.timers
        nexthandle := w.1.nexthandle }, w.2)
    else none

/-- Whether an operation leaves the right timers: an end timer does not fire while a timeout timer
is pending, and `MemberArrived` does not take an end timer for the timeout timer. -/
def keepsTimers (z : ℤ) (w : WarClock) (op : WarTimerOp) : Bool :=
  match op, w.1.zones.lookup z with
  | memberArrived, some zone =>
    decide (zone.timeouttimerid = 0 ∨ ∀ tm ∈ w.1.endTimers zone, tm.handle ≠ zone.timeouttimerid)
  | fire handle, some zone =>
    decide ((∀ tm ∈ w.1.endTimers zone, tm.handle ≠ handle) ∨ w.1.timeoutTimers zone = [])
  | _, _ => true

end WarTimerOp

/-- A zone is at war exactly if the end timer that the war set up is pending, and a timeout timer
is pending only if that war set it up. -/
def WarTimersRight (z : ℤ) (w : WarClock) : Prop :=
  ∀ zone, w.1.zones.lookup z = some zone →
    (zone.warinfo.inWar = true ↔ ∃ tm ∈ w.1.endTimers zone, tm.handle ∈ w.2) ∧
      ∀ tm ∈ w.1.timeoutTimers zone, zone.warinfo.inWar = true ∧ tm.handle ∈ w.2

/-- The one object at an address is found there. -/
theorem keyAt_of_alone {α : Type} {m : Map ℤ α} {address : α → ℕ} {k : ℤ} {v : α}
    (h : m.lookup k = some v)
    (halone : ∀ j u, m.lookup j = some u → address u = address v → j = k) :
    keyAt m address (address v) = some k := by
  have hmem : (⟨k, v⟩ : Sigma fun _ : ℤ => α) ∈ m.entries := AList.mem_lookup_iff.mp h
  rw [keyAt]
  cases hfind : m.entries.find? fun e => address e.2 = address v with
  | none =>
    have hnone := List.find?_eq_none.mp hfind _ hmem
    simp at hnone
  | some e =>
    have haddress : address e.2 = address v := by simpa using List.find?_some hfind
    have hlookup : m.lookup e.1 = some e.2 :=
      AList.mem_lookup_iff.mpr (List.mem_of_find?_eq_some hfind)
    rw [Option.map_some, halone e.1 e.2 hlookup haddress]

/-! ## The timers and the members of the zone -/

/-- The pending timers of a zone's wars are those its members name. -/
structure GangZoneItem.Timed (zone : GangZoneItem) (z : ℤ) (w : WarClock) : Prop where
  registered : w.1.zones.lookup z = some zone
  alone : ∀ y other, w.1.zones.lookup y = some other → other.addr = zone.addr → y = z
  fresh : ∀ tm ∈ w.1.timers, tm.handle < w.1.nexthandle
  once : ∀ tm ∈ w.1.timers, w.1.timesZone z tm = true → tm.repeats = false
  ends : ∀ tm ∈ w.1.endTimers zone, zone.warinfo.inWar = true ∧ tm.handle = zone.endtimerid
  pending : zone.warinfo.inWar = true → ∃ tm ∈ w.1.endTimers zone, tm.handle ∈ w.2
  timeouts : ∀ tm ∈ w.1.timeoutTimers zone, zone.warinfo.inWar = true ∧
    tm.handle = zone.timeouttimerid ∧ tm.handle ≠ zone.endtimerid ∧ tm.handle ∈ w.2

namespace GangZoneItem.Timed
variable {z : ℤ} {w : WarClock} {zone : GangZoneItem}

theorem right (h : zone.Timed z w) : WarTimersRight z w := by
  intro zone' hzone'
  obtain rfl := Option.some.inj (h.registered.symm.trans hzone')
  refine ⟨⟨h.pending, fun hpending => ?_⟩, fun tm htm => ?_⟩
  · obtain ⟨tm, htm, -⟩ := hpending
    exact (h.ends tm htm).1
  · obtain ⟨hwar, -, -, hset⟩ := h.timeouts tm htm
    exact ⟨hwar, hset⟩

/-- What is left of the timers after a change of the zone's members. -/
theorem of_timers {t : Server} {zone' : GangZoneItem} (h : zone.Timed z w)
    (hzone' : t.zones.lookup z = some zone')
    (hothers : ∀ y, y ≠ z → t.zones.lookup y = w.1.zones.lookup y) (haddr : zone'.addr = zone.addr)
    (hnext : t.nexthandle = w.1.nexthandle) (htimers : ∀ tm ∈ t.timers, tm ∈ w.1.timers)
    (hends : ∀ tm ∈ t.endTimers zone', zone'.warinfo.inWar = true ∧ tm.handle = zone'.endtimerid)
    (hpending : zone'.warinfo.inWar = true → ∃ tm ∈ t.endTimers zone', tm.handle ∈ w.2)
    (htimeouts : ∀ tm ∈ t.timeoutTimers zone', zone'.warinfo.inWar = true ∧
      tm.handle = zone'.timeouttimerid ∧ tm.handle ≠ zone'.endtimerid ∧ tm.handle ∈ w.2) :
    zone'.Timed z (t, w.2) where
  registered := hzone'
  alone y other hother hsame := by
    by_contra hy
    exact hy (h.alone y other ((hothers y hy).symm.trans hother) (hsame.trans haddr))
  fresh tm htm := hnext ▸ h.fresh tm (htimers tm htm)
  once tm htm htimes := h.once tm (htimers tm htm) (by
    simpa [Server.timesZone, hzone', h.registered, haddr] using htimes)
  ends := hends
  pending := hpending
  timeouts := htimeouts

end GangZoneItem.Timed

/-! ## Operations keep the timers right -/

section Operations
variable {z : ℤ} {w u : WarClock} {zone : GangZoneItem} {op : WarTimerOp}

/-- An operation leaves the right timers exactly where it should. -/
structure WarTimerOp.Decides (op : WarTimerOp) (z : ℤ) (w u : WarClock) : Prop where
  right_iff : WarTimersRight z u ↔ op.keepsTimers z w = true
  timed : op.keepsTimers z w = true → ∃ zone : GangZoneItem, zone.Timed z u

theorem WarTimerOp.Decides.of_timed (hk : op.keepsTimers z w = true) (h : zone.Timed z u) :
    op.Decides z w u := ⟨iff_of_true h.right hk, fun _ => ⟨zone, h⟩⟩

/-- `MemberArrived` destroys the timer the zone names. -/
theorem GangZoneItem.wp_memberArrived {s : Server} (hzone : s.zones.lookup z = some zone) :
    wp (memberArrived z)
      (fun _ t => (zone.timeouttimerid = 0 ∧ t = s) ∨ zone.timeouttimerid ≠ 0 ∧
        (t.zones = s.zones.adjust z fun zone => { zone with timeouttimerid := 0 }) ∧
        t.nexthandle = s.nexthandle ∧
        t.timers = s.timers.filter fun tm => tm.handle ≠ zone.timeouttimerid)
      (fun _ _ => False) s := by
  simp only [memberArrived, ref, destroyTimer, emit, modifyZone, wp_bind, wp_gets, wp_orUndefined,
    hzone, Option.some.injEq, forall_eq', wp_when, wp_modify]
  split
  case isTrue hset => exact .inr ⟨hset, trivial, trivial, trivial⟩
  case isFalse hset => exact .inl ⟨by simpa using hset, trivial⟩

theorem memberArrived_timed (h : zone.Timed z w)
    (hu : WarTimerOp.memberArrived.step z w = some u) :
    WarTimerOp.memberArrived.Decides z w u := by
  have hkeeps : WarTimerOp.memberArrived.keepsTimers z w = true ↔ zone.timeouttimerid = 0 ∨
      ∀ tm ∈ w.1.endTimers zone, tm.handle ≠ zone.timeouttimerid := by
    simp [WarTimerOp.keepsTimers, h.registered]
  rw [WarTimerOp.step] at hu
  split at hu
  case h_2 => cases hu
  rename_i t hrun
  obtain rfl := Option.some.inj hu
  rcases (wp_of_ok hrun).mp (GangZoneItem.wp_memberArrived h.registered) with
    ⟨hzero, rfl⟩ | ⟨hset, hzones, hnext, htimers⟩
  · exact .of_timed (hkeeps.mpr (.inl hzero)) h
  have hzone' : t.zones.lookup z = some { zone with timeouttimerid := 0 } := by
    rw [hzones]
    exact Map.lookup_adjust_self h.registered _
  have hmem : ∀ tm, tm ∈ t.timers ↔ tm ∈ w.1.timers ∧ tm.handle ≠ zone.timeouttimerid := by
    simp [htimers]
  have htimed : WarTimerOp.memberArrived.keepsTimers z w = true →
      ({ zone with timeouttimerid := 0 } : GangZoneItem).Timed z (t, w.2) := by
    intro hk
    have hother := (hkeeps.mp hk).resolve_left hset
    refine h.of_timers hzone' (fun y hy => by simp [hzones, hy]) rfl hnext
      (fun tm htm => ((hmem tm).mp htm).1) (fun tm htm => ?_) (fun hwar => ?_) (fun tm htm => ?_)
    · obtain ⟨htm, hcallback⟩ := Server.mem_endTimers.mp htm
      exact h.ends tm (Server.mem_endTimers.mpr ⟨((hmem tm).mp htm).1, hcallback⟩)
    · obtain ⟨tm, htm, hgiven⟩ := h.pending hwar
      obtain ⟨hold, hcallback⟩ := Server.mem_endTimers.mp htm
      exact ⟨tm, Server.mem_endTimers.mpr ⟨(hmem tm).mpr ⟨hold, hother tm htm⟩, hcallback⟩, hgiven⟩
    · -- the timeout timer is the one the zone named
      obtain ⟨htm, hcallback⟩ := Server.mem_timeoutTimers.mp htm
      obtain ⟨hold, hne⟩ := (hmem tm).mp htm
      obtain ⟨-, hhandle, -⟩ := h.timeouts tm (Server.mem_timeoutTimers.mpr ⟨hold, hcallback⟩)
      exact absurd hhandle hne
  refine ⟨⟨fun hright => ?_, fun hk => (htimed hk).right⟩, fun hk => ⟨_, htimed hk⟩⟩
  refine hkeeps.mpr (.inr fun tm htm hhandle => ?_)
  obtain ⟨hwar, hend⟩ := h.ends tm htm
  obtain ⟨u, hu, -⟩ := (hright _ hzone').1.mp hwar
  obtain ⟨hu, hcallback⟩ := Server.mem_endTimers.mp hu
  obtain ⟨hold, hne⟩ := (hmem u).mp hu
  have huend := (h.ends u (Server.mem_endTimers.mpr ⟨hold, hcallback⟩)).2
  exact hne (huend.trans (hend.symm.trans hhandle))

/-- The timers of a war that began. -/
theorem Server.WarBegun.timed {s t : Server} {g : List ℤ} {attacker : OID} {last : ℤ}
    {timeout : Option ℤ} (hbegun : s.WarBegun t z zone attacker last timeout)
    (h : zone.Timed z (s, g)) (hpeace : zone.warinfo.inWar = false) :
    (zone.warBegun attacker s.nexthandle (timeout.map fun _ => s.nexthandle + 1)).Timed z
      (t, s.setUpSince t) := by
  have hnew : ∀ tm, tm ∈ t.timers ↔ tm ∈ s.warTimers zone last timeout ∨ tm ∈ s.timers := by
    simp [hbegun.timers]
  have hwar : ∀ tm, tm ∈ s.warTimers zone last timeout ↔
      tm = s.warTimer s.nexthandle (.endTurfWar zone.addr) last ∨ ∃ n, timeout = some n ∧
        tm = s.warTimer (s.nexthandle + 1) (.turfWarWaitTimeout zone.addr) n := by
    intro tm
    cases timeout <;> simp [Server.warTimers, or_comm]
  have hset : ∀ tm ∈ t.timers, s.nexthandle ≤ tm.handle → tm.handle ∈ s.setUpSince t := by
    intro tm htm hle
    exact List.mem_map.mpr ⟨tm, List.mem_filter.mpr ⟨htm, by simpa using hle⟩, rfl⟩
  -- the timers of earlier wars are gone
  have hold : ∀ tm ∈ s.timers, tm.callback ≠ .endTurfWar zone.addr ∧
      tm.callback ≠ .turfWarWaitTimeout zone.addr := by
    refine fun tm htm => ⟨fun hcallback => ?_, fun hcallback => ?_⟩
    · have hin := (h.ends tm (Server.mem_endTimers.mpr ⟨htm, hcallback⟩)).1
      rw [hpeace] at hin
      cases hin
    · have hin := (h.timeouts tm (Server.mem_timeoutTimers.mpr ⟨htm, hcallback⟩)).1
      rw [hpeace] at hin
      cases hin
  have hzone' := Map.lookup_adjust_self h.registered fun zone =>
    zone.warBegun attacker s.nexthandle (timeout.map fun _ => s.nexthandle + 1)
  rw [← hbegun.zones] at hzone'
  constructor
  case registered => exact hzone'
  case alone =>
    intro y other hother hsame
    by_contra hy
    rw [hbegun.zones, Map.lookup_adjust, if_neg hy] at hother
    exact hy (h.alone y other hother hsame)
  case fresh =>
    intro tm htm
    rw [hbegun.nexthandle]
    have hpositive : 0 < (s.warTimers zone last timeout).length := by simp [Server.warTimers]
    rcases (hnew tm).mp htm with hmem | hmem
    · rcases (hwar tm).mp hmem with rfl | ⟨n, rfl, rfl⟩
      · simp only [Server.warTimer]
        omega
      · simp [Server.warTimer, Server.warTimers]
    · have hlt := h.fresh tm hmem
      simp only at hlt
      omega
  case once =>
    intro tm htm htimes
    rcases (hnew tm).mp htm with hmem | hmem
    · rcases (hwar tm).mp hmem with rfl | ⟨n, -, rfl⟩ <;> rfl
    · refine h.once tm hmem ?_
      simpa [Server.timesZone, hzone', h.registered, GangZoneItem.warBegun] using htimes
  case ends =>
    intro tm htm
    obtain ⟨htm, hcallback⟩ := Server.mem_endTimers.mp htm
    rcases (hnew tm).mp htm with hmem | hmem
    · rcases (hwar tm).mp hmem with rfl | ⟨n, -, rfl⟩
      · exact ⟨rfl, rfl⟩
      · cases hcallback
    · exact absurd hcallback (hold tm hmem).1
  case pending =>
    intro _
    have hmem := (hnew _).mpr (.inl ((hwar _).mpr (.inl rfl)))
    exact ⟨_, Server.mem_endTimers.mpr ⟨hmem, rfl⟩, hset _ hmem (le_refl s.nexthandle)⟩
  case timeouts =>
    intro tm htm
    obtain ⟨htm, hcallback⟩ := Server.mem_timeoutTimers.mp htm
    rcases (hnew tm).mp htm with hmem | hmem
    · rcases (hwar tm).mp hmem with rfl | ⟨n, rfl, rfl⟩
      · cases hcallback
      · have hle : s.nexthandle ≤ s.nexthandle + 1 := by omega
        have hne : s.nexthandle + 1 ≠ s.nexthandle := by omega
        exact ⟨rfl, rfl, hne, hset _ ((hnew _).mpr (.inl hmem)) hle⟩
    · exact absurd hcallback (hold tm hmem).2

theorem startWar_timed {p : ℤ} (h : zone.Timed z w)
    (hu : (WarTimerOp.startWar p).step z w = some u) : (WarTimerOp.startWar p).Decides z w u := by
  rw [WarTimerOp.step] at hu
  split at hu
  case h_2 => cases hu
  rename_i began t hrun
  obtain rfl := Option.some.inj hu
  have hbegan := (wp_of_ok hrun).mp (GangZoneItem.wp_startWar h.registered)
  cases began
  case true =>
    obtain ⟨hpeace, attacker, last, timeout, -, -, hbegun⟩ := hbegan
    exact .of_timed rfl (hbegun.timed h hpeace)
  case false =>
    obtain rfl : t = w.1 := hbegan
    exact .of_timed rfl h

theorem TimerCallback.eq_endTurfWar {c : TimerCallback} {addr : ℕ}
    (h : c.war? = some (addr, false)) : c = .endTurfWar addr := by
  cases c
  case endTurfWar a => cases h; rfl
  all_goals cases h

theorem TimerCallback.eq_turfWarWaitTimeout {c : TimerCallback} {addr : ℕ}
    (h : c.war? = some (addr, true)) : c = .turfWarWaitTimeout addr := by
  cases c
  case turfWarWaitTimeout a => cases h; rfl
  all_goals cases h

/-- A timer of the zone that fires is spent, and ends the war. -/
theorem wp_fireTimer_of_war {handle : ℤ} {tm : Timer} {causedbytimeout : Bool} {s : Server}
    {g : List ℤ} (h : zone.Timed z (s, g))
    (hfind : (s.timers.find? fun u => u.handle = handle) = some tm)
    (hcallback : tm.callback.war? = some (zone.addr, causedbytimeout))
    (hwar : zone.warinfo.inWar = true) :
    wp (fireTimer handle) (fun _ t => ({ s with
        timers := s.timers.filter fun u => u.handle ≠ tm.handle } : Server).WarEnded t z zone
          causedbytimeout) (fun _ _ => True) s := by
  rw [wp_fireTimer]
  refine ⟨fun hnone => ?_, fun tm' htm' => ?_⟩
  · rw [hnone] at hfind
    cases hfind
  obtain rfl := Option.some.inj (hfind.symm.trans htm')
  have htimes : s.timesZone z tm = true := by
    simp [Server.timesZone, h.registered, hcallback]
  have honce := h.once tm (List.mem_of_find?_eq_some hfind) htimes
  have hkey : keyAt s.zones (·.addr) zone.addr = some z := keyAt_of_alone h.registered h.alone
  rw [Server.rearmed, honce, if_neg (by simp), TimerCallback.run_of_war hcallback, wp_bind,
    wp_gets, wp_bind, wp_orUndefined]
  intro z' hz'
  obtain rfl := Option.some.inj (hkey.symm.trans hz')
  rw [wp_bind]
  refine wp_mono (GangZoneItem.wp_endWar h.registered) (fun won t ht => ?_) (fun _ _ h => h)
  rw [if_pos hwar] at ht
  exact ht.2

section Firing
variable {handle : ℤ} {tm : Timer} {s t : Server} {g : List ℤ}

/-- When the pending timers of a war that ended are gone, the timers are right. -/
theorem timed_of_ended {r : Server} {causedbytimeout : Bool} (h : zone.Timed z (s, g))
    (hended : r.WarEnded t z zone causedbytimeout) (hzones : r.zones = s.zones)
    (hnext : r.nexthandle = s.nexthandle) (htimers : ∀ u ∈ t.timers, u ∈ s.timers)
    (hends : ∀ u ∈ t.timers, u.callback ≠ .endTurfWar zone.addr)
    (htimeouts : ∀ u ∈ t.timers, u.callback ≠ .turfWarWaitTimeout zone.addr) :
    ∃ zone' : GangZoneItem, zone'.Timed z (t, g) := by
  obtain ⟨item, hitem⟩ := hended.ended
  refine ⟨_, h.of_timers hitem (fun y hy => by rw [hended.others y hy, hzones]) rfl
    (hended.nexthandle.trans hnext) htimers (fun u hu => ?_) (fun hwar => by cases hwar)
    (fun u hu => ?_)⟩
  · obtain ⟨hu, hcallback⟩ := Server.mem_endTimers.mp hu
    exact absurd hcallback (hends u hu)
  · obtain ⟨hu, hcallback⟩ := Server.mem_timeoutTimers.mp hu
    exact absurd hcallback (htimeouts u hu)

/-- The end timer fires: the timeout timer stays. -/
theorem endTimer_timed (h : zone.Timed z (s, g))
    (hfind : (s.timers.find? fun u => u.handle = handle) = some tm)
    (hcallback : tm.callback = .endTurfWar zone.addr)
    (hended : ({ s with timers := s.timers.filter fun u => u.handle ≠ tm.handle } : Server).WarEnded
      t z zone false) :
    (WarTimerOp.fire handle).Decides z (s, g) (t, g) := by
  have hmem := Server.mem_endTimers.mpr ⟨List.mem_of_find?_eq_some hfind, hcallback⟩
  have hhandle : tm.handle = handle := by simpa using List.find?_some hfind
  obtain ⟨hwar, hend⟩ := h.ends tm hmem
  have hleft : ∀ u, u ∈ t.timers ↔ u ∈ s.timers ∧ u.handle ≠ tm.handle := by
    simp [hended.timers]
  have hkeeps : (WarTimerOp.fire handle).keepsTimers z (s, g) = true ↔
      s.timeoutTimers zone = [] := by
    simp only [WarTimerOp.keepsTimers, h.registered, decide_eq_true_eq]
    refine or_iff_right fun hall => hall tm hmem hhandle
  refine ⟨⟨fun hright => hkeeps.mpr ?_, fun hk => ?_⟩, fun hk => ?_⟩
  · obtain ⟨item, hitem⟩ := hended.ended
    refine List.eq_nil_iff_forall_not_mem.mpr fun u hu => ?_
    obtain ⟨-, -, hne, -⟩ := h.timeouts u hu
    obtain ⟨hu, hcall⟩ := Server.mem_timeoutTimers.mp hu
    have hstays := (hleft u).mpr ⟨hu, fun hsame => hne (hsame.trans hend)⟩
    have hin := ((hright _ hitem).2 u (Server.mem_timeoutTimers.mpr ⟨hstays, hcall⟩)).1
    cases hin
  all_goals
    have hnone := hkeeps.mp hk
    have htimed : ∃ zone' : GangZoneItem, zone'.Timed z (t, g) := by
      refine timed_of_ended h hended rfl rfl (fun u hu => ((hleft u).mp hu).1)
        (fun u hu hcall => ?_) (fun u hu hcall => ?_)
      · obtain ⟨hold, hne⟩ := (hleft u).mp hu
        have hsame := (h.ends u (Server.mem_endTimers.mpr ⟨hold, hcall⟩)).2
        exact hne (hsame.trans hend.symm)
      · have hpending := Server.mem_timeoutTimers.mpr ⟨((hleft u).mp hu).1, hcall⟩
        rw [hnone] at hpending
        cases hpending
  · obtain ⟨zone', hzone'⟩ := htimed
    exact hzone'.right
  · exact htimed

/-- The timeout timer fires: the end timer is cancelled. -/
theorem timeoutTimer_timed (h : zone.Timed z (s, g))
    (hfind : (s.timers.find? fun u => u.handle = handle) = some tm)
    (hcallback : tm.callback = .turfWarWaitTimeout zone.addr)
    (hended : ({ s with timers := s.timers.filter fun u => u.handle ≠ tm.handle } : Server).WarEnded
      t z zone true) :
    (WarTimerOp.fire handle).Decides z (s, g) (t, g) := by
  have hmem := Server.mem_timeoutTimers.mpr ⟨List.mem_of_find?_eq_some hfind, hcallback⟩
  have hhandle : tm.handle = handle := by simpa using List.find?_some hfind
  obtain ⟨hwar, htimeout, hother, -⟩ := h.timeouts tm hmem
  have hleft : ∀ u, u ∈ t.timers ↔
      u ∈ s.timers ∧ u.handle ≠ zone.endtimerid ∧ u.handle ≠ tm.handle := by
    simp [hended.timers]
  have hkeeps : (WarTimerOp.fire handle).keepsTimers z (s, g) = true := by
    simp only [WarTimerOp.keepsTimers, h.registered, decide_eq_true_eq]
    refine .inl fun u hu hsame => hother ?_
    exact hhandle.trans (hsame.symm.trans (h.ends u hu).2)
  obtain ⟨zone', hzone'⟩ : ∃ zone' : GangZoneItem, zone'.Timed z (t, g) := by
    refine timed_of_ended h hended rfl rfl (fun u hu => ((hleft u).mp hu).1)
      (fun u hu hcall => ?_) (fun u hu hcall => ?_)
    · obtain ⟨hold, hne, -⟩ := (hleft u).mp hu
      exact hne (h.ends u (Server.mem_endTimers.mpr ⟨hold, hcall⟩)).2
    · obtain ⟨hold, -, hne⟩ := (hleft u).mp hu
      obtain ⟨-, hsame, -⟩ := h.timeouts u (Server.mem_timeoutTimers.mpr ⟨hold, hcall⟩)
      exact hne (hsame.trans htimeout.symm)
  exact .of_timed hkeeps hzone'

end Firing

theorem fire_timed {handle : ℤ} (h : zone.Timed z w)
    (hu : (WarTimerOp.fire handle).step z w = some u) : (WarTimerOp.fire handle).Decides z w u := by
  obtain ⟨s, g⟩ := w
  rw [WarTimerOp.step] at hu
  split at hu
  case isFalse => cases hu
  rename_i hfires
  split at hu
  case h_2 => cases hu
  rename_i t hrun
  obtain rfl := Option.some.inj hu
  obtain ⟨tm, hfind, hnext⟩ := (Option.any_eq_true _ _).mp hfires
  have hmem := List.mem_of_find?_eq_some hfind
  have htimes : s.timesZone z tm = true := by
    simp only [Server.firesNext, Bool.and_eq_true] at hnext
    exact hnext.1.1
  simp only [Server.timesZone, h.registered, Option.any_some] at htimes
  obtain ⟨⟨addr, causedbytimeout⟩, hwar, haddr⟩ := (Option.any_eq_true _ _).mp htimes
  obtain rfl : addr = zone.addr := by simpa using haddr
  cases causedbytimeout
  case false =>
    have hcallback := TimerCallback.eq_endTurfWar hwar
    have hin := (h.ends tm (Server.mem_endTimers.mpr ⟨hmem, hcallback⟩)).1
    exact endTimer_timed h hfind hcallback
      ((wp_of_ok hrun).mp (wp_fireTimer_of_war h hfind hwar hin))
  case true =>
    have hcallback := TimerCallback.eq_turfWarWaitTimeout hwar
    have hin := (h.timeouts tm (Server.mem_timeoutTimers.mpr ⟨hmem, hcallback⟩)).1
    exact timeoutTimer_timed h hfind hcallback
      ((wp_of_ok hrun).mp (wp_fireTimer_of_war h hfind hwar hin))

theorem warTimerOp_step_decides (op : WarTimerOp) (h : zone.Timed z w)
    (hu : op.step z w = some u) : op.Decides z w u := by
  cases op
  case startWar p => exact startWar_timed h hu
  case memberArrived => exact memberArrived_timed h hu
  case fire handle => exact fire_timed h hu
  case elsewhere t =>
    rw [WarTimerOp.step] at hu
    split at hu
    case isFalse => cases hu
    obtain rfl := Option.some.inj hu
    exact .of_timed rfl ⟨h.registered, h.alone, h.fresh, h.once, h.ends, h.pending, h.timeouts⟩

end Operations

/-! ## Runs -/

/-- A zone that no war was started on: no timer points at it. -/
structure GangZoneItem.Untimed (zone : GangZoneItem) (z : ℤ) (s : Server) : Prop where
  registered : s.zones.lookup z = some zone
  alone : ∀ y other, s.zones.lookup y = some other → other.addr = zone.addr → y = z
  peace : zone.warinfo.inWar = false
  fresh : ∀ tm ∈ s.timers, tm.handle < s.nexthandle
  none : ∀ tm ∈ s.timers, s.timesZone z tm = false

theorem GangZoneItem.Untimed.timed {z : ℤ} {s : Server} {zone : GangZoneItem}
    (h : zone.Untimed z s) : zone.Timed z (s, []) := by
  have htimes : ∀ tm ∈ s.timers, tm.callback.war?.any (fun war => war.1 = zone.addr) = false := by
    intro tm htm
    simpa [Server.timesZone, h.registered] using h.none tm htm
  have hends : s.endTimers zone = [] := by
    refine List.eq_nil_iff_forall_not_mem.mpr fun tm htm => ?_
    obtain ⟨htm, hcallback⟩ := Server.mem_endTimers.mp htm
    simpa [hcallback, TimerCallback.war?] using htimes tm htm
  have htimeouts : s.timeoutTimers zone = [] := by
    refine List.eq_nil_iff_forall_not_mem.mpr fun tm htm => ?_
    obtain ⟨htm, hcallback⟩ := Server.mem_timeoutTimers.mp htm
    simpa [hcallback, TimerCallback.war?] using htimes tm htm
  constructor
  case registered => exact h.registered
  case alone => exact h.alone
  case fresh => exact h.fresh
  case once =>
    intro tm htm htrue
    rw [h.none tm htm] at htrue
    cases htrue
  case ends => simp [hends]
  case pending =>
    intro hwar
    rw [h.peace] at hwar
    cases hwar
  case timeouts => simp [htimeouts]

/-- In a run of a zone's wars, every operation leaves the right timers exactly if no end timer fires
while a timeout timer is pending, and `MemberArrived` never destroys an end timer. -/
theorem war_timers_right_iff {z : ℤ} {s : Server} {zone : GangZoneItem} (h : zone.Untimed z s)
    (ops : List WarTimerOp) :
    AllSteps (WarTimerOp.step z) (fun _ _ u => WarTimersRight z u) (s, []) ops ↔
      Meets (WarTimerOp.step z) (fun w op => op.keepsTimers z w = true) (s, []) ops := by
  have hstart : ∃ zone : GangZoneItem, zone.Timed z (s, []) := ⟨zone, h.timed⟩
  refine allSteps_iff_meets (I := fun w => ∃ zone : GangZoneItem, zone.Timed z w)
    (fun w op u hw hu => ?_) (fun w op u hw hu hk => ?_) hstart
  · obtain ⟨zone, hw⟩ := hw
    exact (warTimerOp_step_decides op hw hu).right_iff
  · obtain ⟨zone, hw⟩ := hw
    exact (warTimerOp_step_decides op hw hu).timed hk

/-! ## A timeout after the end of the war -/

namespace Demo

/-- The zone is loaded. A war lasts a minute, and waits for two minutes for a member. -/
def patient : Server :=
  { besieged with
    config := { config with int := fun k => if k = .turfwartimeout then some 2 else some 1 } }

/-- The server some time later. -/
def later (minutes : ℤ) : WarTimerOp :=
  .elsewhere { patient with env := { env with clock := minutes * 60000 } }

def quietZone : GangZoneItem := (patient.zones.lookup 1).getD (.fresh env {} 0 1)

theorem quietZone_untimed : quietZone.Untimed 1 patient where
  registered := by
    have hsome : (patient.zones.lookup 1).isSome = true := by decide +kernel
    obtain ⟨zone, hzone⟩ := Option.isSome_iff_exists.mp hsome
    rw [quietZone, hzone]
    rfl
  alone y other hother _ := by
    have hkeys : patient.zones.keys = [1] := by decide +kernel
    have hmem : y ∈ patient.zones.keys :=
      AList.mem_keys.mpr (Map.mem_iff_lookup.mpr ⟨other, hother⟩)
    rw [hkeys] at hmem
    exact List.mem_singleton.mp hmem
  peace := by decide +kernel
  fresh := by decide +kernel
  none := by decide +kernel

end Demo

/-- A war ends when a member has come to the zone in time. -/
theorem war_timers_right_arrived :
    AllSteps (WarTimerOp.step 1) (fun _ _ u => WarTimersRight 1 u) (Demo.patient, [])
      [.startWar 0, .memberArrived, Demo.later 1, .fire 1] :=
  (war_timers_right_iff Demo.quietZone_untimed _).mpr
    (meets_of_check (b := fun w (op : WarTimerOp) => op.keepsTimers 1 w) (fun _ _ h => h)
      (by decide +kernel))

/-- The timeout timer is still pending once the war is over. -/
theorem timeout_outlives_war :
    ¬∀ (z : ℤ) (s : Server) (zone : GangZoneItem) (last timeout : ℤ), zone.Untimed z s →
      s.config.int .turfwarlast = some last → 0 < last →
      s.config.int .turfwartimeout = some timeout → 0 < timeout → ∀ ops : List WarTimerOp,
      AllSteps (WarTimerOp.step z) (fun _ _ u => WarTimersRight z u) (s, []) ops := by
  intro hall
  have hmeets : Meets (WarTimerOp.step 1) (fun w op => op.keepsTimers 1 w = true) (Demo.patient, [])
      ([.startWar 0, Demo.later 1] ++ [.fire 1]) :=
    (war_timers_right_iff Demo.quietZone_untimed _).mp
      (hall 1 Demo.patient Demo.quietZone 1 2 Demo.quietZone_untimed (by decide +kernel) (by decide)
        (by decide +kernel) (by decide) _)
  exact not_allSteps (T := fun w (op : WarTimerOp) _ => op.keepsTimers 1 w = true)
    [.startWar 0, Demo.later 1] (.fire 1) (fun w _ => (WarTimerOp.fire 1).keepsTimers 1 w)
    (fun _ _ h => h) (by decide +kernel) hmeets

end FreshCity
