import FreshCity.WarOutcomes

/-!
# The timer handles of a zone

A zone keeps the handles of its two timers in members that no constructor writes.
`StartWar` writes the timeout timer's only if no defender was there, so whether
`MemberArrived` destroys a timer of the zone's own depends on all wars before.
-/
namespace FreshCity
open Imperative Prog Run

/-! ## Uses of handles -/

/-- A call of `CreateTimer` or `DestroyTimer`, with the handle it returned or was given. -/
inductive HandleUse where
  | obtained (handle : ℤ) (callback : TimerCallback)
  | destroyed (handle : ℤ)
  deriving DecidableEq

namespace HandleUse

/-- The handles that are held after some calls, the latest first. -/
def held (before : List ℤ) : List HandleUse → List ℤ
  | [] => before
  | obtained h _ :: uses => h :: held before uses
  | destroyed h :: uses => (held before uses).filter fun j => j ≠ h

/-- Every handle that is destroyed was held. -/
def ownOnly (before : List ℤ) : List HandleUse → Bool
  | [] => true
  | obtained _ _ :: uses => ownOnly before uses
  | destroyed h :: uses => ownOnly before uses && decide (h ∈ held before uses)

/-- A timeout timer was created. -/
def createsTimeout : HandleUse → Bool
  | obtained _ (.turfWarWaitTimeout _) => true
  | _ => false

end HandleUse

def Effect.handleUse? : Effect → Option HandleUse
  | createTimer h callback => some (.obtained h callback)
  | destroyTimer h => some (.destroyed h)
  | _ => none

/-- The calls on handles that a trace shows. -/
def Server.handleUses (s : Server) : List HandleUse := s.trace.filterMap Effect.handleUse?

/-! ## Runs on one zone -/

/-- The calls on one zone. Between two of them, anything but the zone may change, and others may
obtain handles. -/
inductive HandleOp where
  | startWar (p : ℤ)
  | memberArrived
  | endWar (causedbytimeout : Bool)
  | elsewhere (t : Server)

/-- What was done to a zone: the handles it obtained and has not destroyed, whether a war ever
created a timeout timer, and whether the end of the present war was tried and threw. -/
structure ZoneHistory where
  held : List ℤ := []
  timed : Bool := false
  failed : Bool := false

namespace HandleOp

/-- The server after a call, which may also throw. -/
def step (z : ℤ) (s : Server) : HandleOp → Option Server
  | startWar p => (GangZoneItem.startWar z p { s with trace := [] }).state?
  | memberArrived => (GangZoneItem.memberArrived z { s with trace := [] }).state?
  | endWar causedbytimeout =>
    (GangZoneItem.endWar z causedbytimeout { s with trace := [] }).state?
  | elsewhere t =>
    if s.nexthandle ≤ t.nexthandle then some { s.aroundZone z t with trace := [] } else none

def isTimeout : HandleOp → Bool
  | endWar causedbytimeout => causedbytimeout
  | _ => false

/-- The history after a call. A war that goes on after `EndWar(true)` was not ended by it. -/
def see (z : ℤ) (_ : Server) (g : ZoneHistory) (op : HandleOp) (t : Server) : ZoneHistory where
  held := HandleUse.held g.held t.handleUses
  timed := g.timed || t.handleUses.any (·.createsTimeout)
  failed := ((t.zones.lookup z).any fun zone => zone.warinfo.inWar) && (g.failed || op.isTimeout)

/-- Whether `MemberArrived` is called with a timeout handle that some war has set, and the end by
timeout is not tried again in a war in which it threw. -/
def keepsHandles (z : ℤ) (w : Server × ZoneHistory) : HandleOp → Bool
  | memberArrived => w.2.timed || (w.1.zones.lookup z).all fun zone => zone.timeouttimerid = 0
  | endWar causedbytimeout => !(causedbytimeout && w.2.failed)
  | _ => true

end HandleOp

/-! ## What the calls do -/

/-- The zone's handles, the calls on handles since the trace began, and the next handle. -/
structure Server.Holds (z : ℤ) (uses : List HandleUse) (endtimer timeout handle : ℤ) (s : Server) :
    Prop where
  zone : ∃ zone, s.zones.lookup z = some zone ∧ zone.endtimerid = endtimer ∧
    zone.timeouttimerid = timeout
  uses : s.handleUses = uses
  nexthandle : s.nexthandle = handle

section Keeps
variable {z : ℤ} {uses : List HandleUse} {endtimer timeout handle : ℤ}

/-- What writes neither the zones, nor the trace, nor the handles. -/
theorem keeps_holds_of_stays {α : Type} {x : Game α} [h : Stays [] x] :
    Keeps (Server.Holds z uses endtimer timeout handle) x :=
  h.keeps fun _ hk => absurd hk List.not_mem_nil

theorem keeps_holds_emit {e : Effect} (he : e.handleUse? = none) :
    Keeps (Server.Holds z uses endtimer timeout handle) (emit e) := by
  refine keeps_of_wp fun s hs => ⟨hs.zone, ?_, hs.nexthandle⟩
  rw [← hs.uses, Server.handleUses, List.filterMap_cons, he]
  rfl

theorem keeps_holds_modifyZone {g : GangZoneItem → GangZoneItem}
    (hend : ∀ zone, (g zone).endtimerid = zone.endtimerid)
    (htimeout : ∀ zone, (g zone).timeouttimerid = zone.timeouttimerid) :
    Keeps (Server.Holds z uses endtimer timeout handle) (GangZoneItem.modifyZone z g) := by
  refine keeps_of_wp fun s hs => ⟨?_, hs.uses, hs.nexthandle⟩
  obtain ⟨zone, hzone, rfl, rfl⟩ := hs.zone
  exact ⟨g zone, Map.lookup_adjust_self hzone g, hend zone, htimeout zone⟩

/-- A write that changes nothing but the database. -/
instance {f : Database → Database} :
    Keeps (Server.Holds z uses endtimer timeout handle) (modifyDatabase f) :=
  keeps_of_wp fun _ hs => ⟨hs.zone, hs.uses, hs.nexthandle⟩

instance {c : Collection} {id : OID} {m : Modifier} :
    Keeps (Server.Holds z uses endtimer timeout handle) (update c id m) := by
  have hmeet : ∀ f : Fault, Keeps (Server.Holds z uses endtimer timeout handle) f.meet :=
    fun _ => keeps_holds_of_stays
  have hemit : Keeps (Server.Holds z uses endtimer timeout handle) (emit (.update c id m)) :=
    keeps_holds_emit rfl
  unfold update issue nextFault
  infer_instance

instance : Keeps (Server.Holds z uses endtimer timeout handle) getLastError := by
  have hmeet : ∀ f : Fault, Keeps (Server.Holds z uses endtimer timeout handle) f.meet :=
    fun _ => keeps_holds_of_stays
  unfold getLastError nextFault
  infer_instance

theorem keeps_holds_setOwner {owner : OID} :
    Keeps (Server.Holds z uses endtimer timeout handle) (GangZoneItem.setOwner z owner) := by
  have hupdate : ∀ m, Keeps
      (fun q : SaveableItem × Server => q.2.Holds z uses endtimer timeout handle)
      (SaveableItem.update .gangzone m false) := by
    intro m
    unfold SaveableItem.update
    simp only [when_false Bool.false_ne_true]
    infer_instance
  have hitem : ∀ m, Keeps (Server.Holds z uses endtimer timeout handle)
      (GangZoneItem.withItem z (SaveableItem.update .gangzone m false)) := by
    refine fun m => keeps_of_wp fun s hs => ?_
    rw [GangZoneItem.withItem, wp_focus]
    intro item _
    have hstore : ∀ q : SaveableItem × Server, q.2.Holds z uses endtimer timeout handle →
        Server.Holds z uses endtimer timeout handle { q.2 with
          zones := q.2.zones.adjust z fun zone => { zone with item := q.1 } } := by
      intro q hq
      obtain ⟨zone, hzone, hend, htimeout⟩ := hq.zone
      exact ⟨⟨_, Map.lookup_adjust_self hzone _, hend, htimeout⟩, hq.uses, hq.nexthandle⟩
    exact wp_mono ((hupdate m).wp_of_keeps hs) (fun _ q hq => hstore q hq)
      (fun _ q hq => hstore q hq)
  exact (hitem _).bind fun _ => keeps_holds_modifyZone (fun _ => rfl) fun _ => rfl

theorem keeps_holds_redraw :
    Keeps (Server.Holds z uses endtimer timeout handle) (GangZoneItem.redraw z) := by
  have hshow : ∀ id color, Keeps (Server.Holds z uses endtimer timeout handle)
      (gangZoneShowForAll id color) := fun _ _ =>
    (keeps_holds_emit rfl).bind fun _ => keeps_of_wp fun _ hs => ⟨hs.zone, hs.uses, hs.nexthandle⟩
  have hflash : ∀ id color, Keeps (Server.Holds z uses endtimer timeout handle)
      (gangZoneFlashForAll id color) := fun _ _ =>
    (keeps_holds_emit rfl).bind fun _ => keeps_of_wp fun _ hs => ⟨hs.zone, hs.uses, hs.nexthandle⟩
  have href : Keeps (Server.Holds z uses endtimer timeout handle) (GangZoneItem.ref z) :=
    keeps_holds_of_stays
  unfold GangZoneItem.redraw
  infer_instance

theorem keeps_holds_announceWinner {zone : GangZoneItem} {won : Bool} :
    Keeps (Server.Holds z uses endtimer timeout handle)
      (GangZoneItem.announceWinner z zone won) := by
  have hteam : ∀ o, Keeps (Server.Holds z uses endtimer timeout handle) (teamMgr o) :=
    fun _ => keeps_holds_of_stays
  have hmessage : ∀ m, Keeps (Server.Holds z uses endtimer timeout handle) (pushMessage m) :=
    fun _ => keeps_holds_emit rfl
  have howner : ∀ o, Keeps (Server.Holds z uses endtimer timeout handle)
      (GangZoneItem.setOwner z o) := fun _ => keeps_holds_setOwner
  unfold GangZoneItem.announceWinner
  infer_instance

end Keeps

namespace GangZoneItem
variable {s : Server} {z p : ℤ} {zone : GangZoneItem} {causedbytimeout : Bool}

theorem holds_self (hzone : s.zones.lookup z = some zone) (htrace : s.trace = []) :
    s.Holds z [] zone.endtimerid zone.timeouttimerid s.nexthandle :=
  ⟨⟨zone, hzone, rfl, rfl⟩, by rw [Server.handleUses, htrace]; rfl, rfl⟩

/-- `MemberArrived` destroys the timer that the zone's timeout handle names. -/
theorem wp_memberArrived_holds (hzone : s.zones.lookup z = some zone) (htrace : s.trace = []) :
    wp (memberArrived z)
      (fun _ t => (t.zones.lookup z).map (·.warinfo) = some zone.warinfo ∧
        if zone.timeouttimerid = 0 then t = s
        else t.Holds z [.destroyed zone.timeouttimerid] zone.endtimerid 0 s.nexthandle)
      (fun _ _ => False) s := by
  simp only [memberArrived, ref, destroyTimer, emit, modifyZone, wp_bind, wp_gets, wp_orUndefined,
    wp_when, wp_modify, hzone, Option.some.injEq, forall_eq']
  split
  case isTrue htimer =>
    have hzone' := Map.lookup_adjust_self hzone fun zone => { zone with timeouttimerid := 0 }
    refine ⟨by rw [hzone']; rfl, ⟨_, hzone', rfl, rfl⟩, ?_, rfl⟩
    simp [Server.handleUses, htrace, Effect.handleUse?]
  case isFalse htimer =>
    rw [not_not] at htimer
    exact ⟨rfl, by rw [if_pos htimer]; trivial⟩

/-- A zone in peace has no war to end. -/
theorem endWar_of_peace (hzone : s.zones.lookup z = some zone) (hpeace : zone.warinfo.inWar = false) :
    endWar z causedbytimeout s = .ok false s := by
  simp [endWar, ref, bind_apply, hzone, hpeace]

/-- `EndWar` destroys the end timer of a war that ends by timeout, and no other. -/
theorem wp_endWar_holds (hzone : s.zones.lookup z = some zone) (hwar : zone.warinfo.inWar = true)
    (htrace : s.trace = []) :
    wp (endWar z causedbytimeout)
      (fun _ t => t.Holds z (if causedbytimeout then [.destroyed zone.endtimerid] else [])
        zone.endtimerid zone.timeouttimerid s.nexthandle)
      (fun _ t => t.Holds z (if causedbytimeout then [.destroyed zone.endtimerid] else [])
        zone.endtimerid zone.timeouttimerid s.nexthandle) s := by
  have hrest : ∀ uses, Keeps
      (Server.Holds z uses zone.endtimerid zone.timeouttimerid s.nexthandle) (do
        announceWinner z zone (zone.attackerWins causedbytimeout)
        modifyZone z fun zone => { zone with warinfo := {} }
        redraw z
        pure (zone.attackerWins causedbytimeout) : Game Bool) := by
    intro uses
    have hannounce : Keeps (Server.Holds z uses zone.endtimerid zone.timeouttimerid s.nexthandle)
        (announceWinner z zone (zone.attackerWins causedbytimeout)) := keeps_holds_announceWinner
    have hpeace : Keeps (Server.Holds z uses zone.endtimerid zone.timeouttimerid s.nexthandle)
        (modifyZone z fun zone => { zone with warinfo := {} }) :=
      keeps_holds_modifyZone (fun _ => rfl) fun _ => rfl
    have hredraw : Keeps (Server.Holds z uses zone.endtimerid zone.timeouttimerid s.nexthandle)
        (redraw z) := keeps_holds_redraw
    infer_instance
  have hs := holds_self hzone htrace
  rw [endWar, ref, wp_bind, wp_bind, wp_gets, hzone, wp_orUndefined]
  rintro _ ⟨⟩
  rw [wp_ite, if_pos hwar, wp_bind, wp_when]
  cases causedbytimeout with
  | false => exact (hrest []).wp_of_keeps hs
  | true =>
    rw [if_pos rfl, destroyTimer, wp_bind, emit, wp_modify, wp_modify]
    refine (hrest [.destroyed zone.endtimerid]).wp_of_keeps ?_
    exact ⟨hs.zone, by simp [Server.handleUses, htrace, Effect.handleUse?], rfl⟩

/-- What a start does to the zone's handles: nothing, or it sets the end timer, or both. -/
inductive StartUse (z : ℤ) (s : Server) (zone : GangZoneItem) (t : Server) : Prop where
  | none (holds : t.Holds z [] zone.endtimerid zone.timeouttimerid s.nexthandle)
      (inWar : (t.zones.lookup z).map (·.warinfo.inWar) = some zone.warinfo.inWar)
  | endTimer (peace : zone.warinfo.inWar = false)
      (holds : t.Holds z [.obtained s.nexthandle (.endTurfWar zone.addr)]
        s.nexthandle zone.timeouttimerid (s.nexthandle + 1))
  | both (peace : zone.warinfo.inWar = false)
      (holds : t.Holds z [.obtained (s.nexthandle + 1) (.turfWarWaitTimeout zone.addr),
        .obtained s.nexthandle (.endTurfWar zone.addr)]
        s.nexthandle (s.nexthandle + 1) (s.nexthandle + 1 + 1))

theorem wp_beginWar_holds {attacker : OID} (hzone : s.zones.lookup z = some zone)
    (hpeace : zone.warinfo.inWar = false) (htrace : s.trace = []) :
    wp (beginWar z zone attacker) (fun _ t => StartUse z s zone t)
      (fun _ t => StartUse z s zone t) s := by
  have hattacked := Map.lookup_adjust_self hzone fun zone =>
    { zone with warinfo := { zone.warinfo with attacker := attacker } }
  have htimed := Map.lookup_adjust_self hattacked fun zone => { zone with endtimerid := s.nexthandle }
  simp only [beginWar, teamMgr, pushMessage, emit, createWarTimer, configInt, createTimer,
    modifyZone, wp_bind, wp_gets, wp_orRaise, wp_modify, wp_pure]
  refine ⟨fun team _ => ⟨fun last _ => ⟨fun owner _ => ?_, fun _ => .endTimer hpeace ?_⟩,
    fun _ => .none ?_ (by rw [hattacked]; rfl)⟩,
    fun _ => .none (holds_self hzone htrace) (by rw [hzone]; rfl)⟩
  case refine_2 =>
    exact ⟨⟨_, htimed, rfl, rfl⟩, by simp [Server.handleUses, htrace, Effect.handleUse?], rfl⟩
  case refine_3 =>
    exact ⟨⟨_, hattacked, rfl, rfl⟩, by simp [Server.handleUses, htrace, Effect.handleUse?], rfl⟩
  have hscan := (inferInstance : Stays []
    (memberInZone zone.zone owner.onlineplayers.keys)).unchanged
  refine wp_mono (hscan _) (fun arrived t ht => ?_) (fun _ t ht => .endTimer hpeace ?_)
  case refine_2 =>
    subst ht
    exact ⟨⟨_, htimed, rfl, rfl⟩, by simp [Server.handleUses, htrace, Effect.handleUse?], rfl⟩
  subst ht
  simp only [wp_when, wp_bind, wp_gets, wp_orRaise, wp_modify, wp_pure]
  split
  case isTrue =>
    refine ⟨fun minutes _ => ?_, fun _ => .endTimer hpeace ?_⟩
    · have htimeout := Map.lookup_adjust_self htimed fun zone =>
        { zone with timeouttimerid := s.nexthandle + 1 }
      have hwar := Map.lookup_adjust_self htimeout fun zone =>
        { zone with warinfo := { zone.warinfo with inWar := true } }
      refine wp_mono (keeps_holds_redraw.wp_of_keeps ?_) (fun _ _ => .both hpeace)
        (fun _ _ => .both hpeace)
      exact ⟨⟨_, hwar, rfl, rfl⟩, by simp [Server.handleUses, htrace, Effect.handleUse?], rfl⟩
    · exact ⟨⟨_, htimed, rfl, rfl⟩, by simp [Server.handleUses, htrace, Effect.handleUse?], rfl⟩
  case isFalse =>
    have hwar := Map.lookup_adjust_self htimed fun zone =>
      { zone with warinfo := { zone.warinfo with inWar := true } }
    refine wp_mono (keeps_holds_redraw.wp_of_keeps ?_) (fun _ _ => .endTimer hpeace)
      (fun _ _ => .endTimer hpeace)
    exact ⟨⟨_, hwar, rfl, rfl⟩, by simp [Server.handleUses, htrace, Effect.handleUse?], rfl⟩

theorem wp_startWar_holds (hzone : s.zones.lookup z = some zone) (htrace : s.trace = []) :
    wp (startWar z p) (fun _ t => StartUse z s zone t) (fun _ t => StartUse z s zone t) s := by
  have hself : StartUse z s zone s := .none (holds_self hzone htrace) (by rw [hzone]; rfl)
  simp only [startWar, ref, Profile.ref, wp_bind, wp_gets, wp_orUndefined, hzone,
    Option.some.injEq, forall_eq', wp_ite]
  intro pr _
  split
  case isTrue => exact hself
  case isFalse hwar =>
    split
    case isTrue => exact hself
    case isFalse =>
      refine wp_mono (wp_beginWar_holds hzone (by simpa using hwar) htrace) (fun _ t ht => ?_)
        (fun _ _ h => h)
      exact ht

end GangZoneItem

/-! ## Runs of calls -/

/-- What the handles of a zone have in common with what was done to it. -/
structure GangZoneItem.Custody (zone : GangZoneItem) (g : ZoneHistory) (handle : ℤ) : Prop where
  below : ∀ h ∈ g.held, h < handle
  timeout : g.timed = true → zone.timeouttimerid ≠ 0 →
    zone.timeouttimerid ∈ g.held ∧ zone.timeouttimerid ≠ zone.endtimerid
  endtimer : zone.warinfo.inWar = true → g.failed = false → zone.endtimerid ∈ g.held
  failed : g.failed = true → zone.warinfo.inWar = true

/-- The zone is registered, and its handles agree with its history. -/
def InCustody (z : ℤ) (w : Server × ZoneHistory) : Prop :=
  ∃ zone, w.1.zones.lookup z = some zone ∧ zone.Custody w.2 w.1.nexthandle

/-- A step destroys only handles that the zone has obtained and not destroyed. -/
def DestroysOwn (w : Server × ZoneHistory) (_ : HandleOp) (u : Server × ZoneHistory) : Prop :=
  HandleUse.ownOnly w.2.held u.1.handleUses = true

namespace HandleOp
variable {z : ℤ} {s t : Server} {g : ZoneHistory} {zone : GangZoneItem} {op : HandleOp}

/-- The history after a call whose calls on handles are known. -/
theorem see_of_holds (s : Server) (g : ZoneHistory) (op : HandleOp) {uses : List HandleUse}
    {endtimer timeout handle : ℤ} (h : t.Holds z uses endtimer timeout handle) : ∃ zone', t.zones.lookup z = some zone' ∧
      zone'.endtimerid = endtimer ∧ zone'.timeouttimerid = timeout ∧
      see z s g op t = {
        held := HandleUse.held g.held uses
        timed := g.timed || uses.any (·.createsTimeout)
        failed := zone'.warinfo.inWar && (g.failed || op.isTimeout) } := by
  obtain ⟨zone', hzone', hend, htimeout⟩ := h.zone
  refine ⟨zone', hzone', hend, htimeout, ?_⟩
  rw [see, h.uses, hzone', Option.any_some]

/-- A call after which the handles of the zone agree with its history again. -/
theorem inCustody_of_holds {uses : List HandleUse} {endtimer timeout handle : ℤ}
    (h : t.Holds z uses endtimer timeout handle)
    (hown : HandleUse.ownOnly g.held uses = true)
    (hcustody : ∀ zone', t.zones.lookup z = some zone' → zone'.endtimerid = endtimer →
      zone'.timeouttimerid = timeout → zone'.Custody
        { held := HandleUse.held g.held uses
          timed := g.timed || uses.any (·.createsTimeout)
          failed := zone'.warinfo.inWar && (g.failed || op.isTimeout) } handle) :
    DestroysOwn (s, g) op (t, see z s g op t) ∧ InCustody z (t, see z s g op t) := by
  obtain ⟨zone', hzone', hend, htimeout, hsee⟩ := see_of_holds s g op h
  refine ⟨by rw [DestroysOwn, h.uses, hown], zone', hzone', ?_⟩
  rw [hsee, h.nexthandle]
  exact hcustody zone' hzone' hend htimeout

/-- A call that touches no handle of the zone. -/
theorem idle_custody {handle : ℤ} (h : zone.Custody g s.nexthandle)
    (holds : t.Holds z [] zone.endtimerid zone.timeouttimerid handle)
    (hhandle : s.nexthandle ≤ handle)
    (hwar : (t.zones.lookup z).map (·.warinfo.inWar) = some zone.warinfo.inWar) :
    DestroysOwn (s, g) op (t, see z s g op t) ∧ InCustody z (t, see z s g op t) := by
  refine inCustody_of_holds holds rfl fun zone' hzone' hend htimeout => ?_
  rw [hzone', Option.map_some, Option.some.injEq] at hwar
  refine ⟨fun j hj => (h.below j hj).trans_le hhandle, fun htimed => ?_, fun hin hfailed => ?_,
    fun hfailed => ?_⟩
  · rw [htimeout, hend]
    exact h.timeout (by simpa using htimed)
  · simp only [hin, Bool.true_and, Bool.or_eq_false_iff] at hfailed
    rw [hend]
    exact h.endtimer (hwar ▸ hin) hfailed.1
  · simp only [Bool.and_eq_true] at hfailed
    exact hfailed.1

theorem startWar_custody {p : ℤ} (h : zone.Custody g s.nexthandle)
    (hstart : GangZoneItem.StartUse z s zone t) :
    DestroysOwn (s, g) (startWar p) (t, see z s g (startWar p) t) ∧
      InCustody z (t, see z s g (startWar p) t) := by
  have hbelow := h.below
  cases hstart
  case none holds inWar => exact idle_custody h holds le_rfl inWar
  case endTimer peace holds =>
    -- the end timer of the peace was forgotten; the timeout timer is still the old one
    refine inCustody_of_holds holds rfl fun zone' _ hend htimeout => ?_
    refine ⟨fun j hj => ?_, fun htimed hne => ?_, fun _ _ => ?_, fun hfailed => ?_⟩
    · rcases List.mem_cons.mp hj with rfl | hj
      · omega
      · have := hbelow j hj
        omega
    · rw [htimeout] at hne ⊢
      obtain ⟨hmem, -⟩ := h.timeout (by simpa [HandleUse.createsTimeout] using htimed) hne
      have hlt := hbelow _ hmem
      exact ⟨List.mem_cons_of_mem _ hmem, by rw [hend]; omega⟩
    · rw [hend]
      exact List.mem_cons_self ..
    · simp only [Bool.and_eq_true] at hfailed
      exact hfailed.1
  case both peace holds =>
    refine inCustody_of_holds holds rfl fun zone' _ hend htimeout => ?_
    refine ⟨fun j hj => ?_, fun _ _ => ?_, fun _ _ => ?_, fun hfailed => ?_⟩
    · rcases List.mem_cons.mp hj with rfl | hj
      · omega
      rcases List.mem_cons.mp hj with rfl | hj
      · omega
      · have := hbelow j hj
        omega
    · rw [htimeout, hend]
      exact ⟨List.mem_cons_self .., by omega⟩
    · rw [hend]
      exact List.mem_cons_of_mem _ (List.mem_cons_self ..)
    · simp only [Bool.and_eq_true] at hfailed
      exact hfailed.1

theorem memberArrived_custody (hzone : s.zones.lookup z = some zone)
    (h : zone.Custody g s.nexthandle) (hkeeps : keepsHandles z (s, g) memberArrived = true)
    (hwar : (t.zones.lookup z).map (·.warinfo) = some zone.warinfo)
    (hrun : if zone.timeouttimerid = 0 then t = { s with trace := [] }
      else t.Holds z [.destroyed zone.timeouttimerid] zone.endtimerid 0 s.nexthandle) :
    DestroysOwn (s, g) memberArrived (t, see z s g memberArrived t) ∧
      InCustody z (t, see z s g memberArrived t) := by
  split at hrun
  case isTrue =>
    subst hrun
    exact idle_custody h (GangZoneItem.holds_self (s := { s with trace := [] }) hzone rfl) le_rfl
      (by rw [hzone]; rfl)
  case isFalse hne =>
    have htimed : g.timed = true := by simpa [keepsHandles, hzone, hne] using hkeeps
    obtain ⟨hmem, hother⟩ := h.timeout htimed hne
    refine inCustody_of_holds hrun (Bool.and_eq_true_iff.mpr ⟨rfl, decide_eq_true hmem⟩)
      fun zone' hzone' hend htimeout => ?_
    rw [hzone', Option.map_some, Option.some.injEq] at hwar
    refine ⟨fun j hj => h.below j (List.mem_of_mem_filter hj), fun _ hne => absurd htimeout hne,
      fun hin hfailed => ?_, fun hfailed => ?_⟩
    · simp only [hin, Bool.true_and, Bool.or_eq_false_iff] at hfailed
      rw [hend]
      have hheld := h.endtimer (hwar ▸ hin) hfailed.1
      exact List.mem_filter.mpr ⟨hheld, by simpa using Ne.symm hother⟩
    · simp only [Bool.and_eq_true] at hfailed
      exact hfailed.1

theorem endWar_custody {causedbytimeout : Bool} (h : zone.Custody g s.nexthandle)
    (hkeeps : keepsHandles z (s, g) (endWar causedbytimeout) = true)
    (hwar : zone.warinfo.inWar = true)
    (hrun : t.Holds z (if causedbytimeout then [.destroyed zone.endtimerid] else [])
      zone.endtimerid zone.timeouttimerid s.nexthandle) :
    DestroysOwn (s, g) (endWar causedbytimeout) (t, see z s g (endWar causedbytimeout) t) ∧
      InCustody z (t, see z s g (endWar causedbytimeout) t) := by
  cases causedbytimeout
  case false =>
    refine inCustody_of_holds hrun rfl fun zone' _ hend htimeout => ?_
    refine ⟨h.below, fun htimed => ?_, fun hin hfailed => ?_, fun hfailed => ?_⟩
    · rw [htimeout, hend]
      exact h.timeout (by simpa using htimed)
    · simp only [hin, Bool.true_and, Bool.or_eq_false_iff] at hfailed
      rw [hend]
      exact h.endtimer hwar hfailed.1
    · simp only [Bool.and_eq_true] at hfailed
      exact hfailed.1
  case true =>
    have hfresh : g.failed = false := by simpa [keepsHandles] using hkeeps
    have hmem := h.endtimer hwar hfresh
    refine inCustody_of_holds hrun (Bool.and_eq_true_iff.mpr ⟨rfl, decide_eq_true hmem⟩)
      fun zone' _ hend htimeout => ?_
    refine ⟨fun j hj => h.below j (List.mem_of_mem_filter hj), fun htimed hne => ?_,
      fun hin hfailed => ?_, fun hfailed => ?_⟩
    · rw [htimeout] at hne ⊢
      obtain ⟨hheld, hother⟩ := h.timeout (by simpa [HandleUse.createsTimeout] using htimed) hne
      exact ⟨List.mem_filter.mpr ⟨hheld, by simpa using hother⟩, by rw [hend]; exact hother⟩
    · -- a war that goes on after its end by timeout was not ended by it
      simp [hin, isTimeout] at hfailed
    · simp only [Bool.and_eq_true] at hfailed
      exact hfailed.1

/-- One call on a zone in custody. -/
theorem step_custody {w u : Server × ZoneHistory} (hw : InCustody z w)
    (hstep : watch (step z) (see z) w op = some u) (hkeeps : keepsHandles z w op = true) :
    DestroysOwn w op u ∧ InCustody z u := by
  obtain ⟨s, g⟩ := w
  obtain ⟨t, g'⟩ := u
  obtain ⟨hrun, hsee⟩ := watch_eq_some.mp hstep
  change see z s g op t = g' at hsee
  subst hsee
  obtain ⟨zone, hzone, h⟩ := hw
  have hzone' : ({ s with trace := [] } : Server).zones.lookup z = some zone := hzone
  cases op
  case startWar p =>
    exact startWar_custody (s := { s with trace := [] }) h
      (state_of_wp (P := GangZoneItem.StartUse z { s with trace := [] } zone)
        (GangZoneItem.wp_startWar_holds hzone' rfl) hrun)
  case memberArrived =>
    have hruns := GangZoneItem.wp_memberArrived_holds hzone' rfl
    have ht := state_of_wp (P := fun t => (t.zones.lookup z).map (·.warinfo) = some zone.warinfo ∧
        if zone.timeouttimerid = 0 then t = { s with trace := [] }
        else t.Holds z [.destroyed zone.timeouttimerid] zone.endtimerid 0 s.nexthandle)
      (wp_mono hruns (fun _ _ h => h) (fun _ _ h => h.elim)) hrun
    exact memberArrived_custody hzone h hkeeps ht.1 ht.2
  case endWar causedbytimeout =>
    cases hwar : zone.warinfo.inWar with
    | false =>
      have ht : t = { s with trace := [] } := by
        simpa only [step, GangZoneItem.endWar_of_peace hzone' hwar, Outcome.state?_ok,
          Option.some.injEq, eq_comm] using hrun
      subst ht
      exact idle_custody h (GangZoneItem.holds_self hzone' rfl) le_rfl (by rw [hzone']; rfl)
    | true =>
      exact endWar_custody h hkeeps hwar (state_of_wp
        (GangZoneItem.wp_endWar_holds (s := { s with trace := [] }) hzone' hwar rfl) hrun)
  case elsewhere t' =>
    simp only [step, Option.ite_none_right_eq_some, Option.some.injEq] at hrun
    obtain ⟨hhandle, rfl⟩ := hrun
    have hlookup : ({ s.aroundZone z t' with trace := [] } : Server).zones.lookup z = some zone := by
      simp [Server.aroundZone, hzone]
    exact idle_custody h (GangZoneItem.holds_self hlookup rfl) hhandle (by rw [hlookup]; rfl)

end HandleOp

/-! ## New zones -/

namespace GangZoneItem

/-- One of the constructors has built the zone. -/
inductive Constructed (zone : GangZoneItem) : Prop where
  | ofName {s t : Server} {name : Text} (run : ofName name s = .ok zone t)
  | ofData {s t : Server} {data : Document} (run : ofData data s = .ok zone t)
  | ofNew {s t : Server} {name : Text} {owner spawnpoint : OID} {min max : CoordinatePlane}
      {trigger : Coordinate3D} (run : ofNew name owner min max spawnpoint trigger s = .ok zone t)

/-- No war was started on the zone yet. -/
def Untouched (zone : GangZoneItem) : Prop := zone.warinfo = {}

section Construction
set_option synthInstance.maxSize 1000
variable {item : SaveableItem}

theorem keeps_untouched_assign {f : GangZoneItem → GangZoneItem}
    (hf : ∀ zone, (f zone).warinfo = zone.warinfo) :
    Keeps (fun q : GangZoneItem × Server => q.1.Untouched)
      (assign f : Method GangZoneItem Unit) :=
  keeps_assign (P := Untouched) fun zone hzone => (hf zone).trans hzone

instance : Keeps (fun q : GangZoneItem × Server => q.1.Untouched) loadOwnerData := by
  have hname : ∀ n, Keeps (fun q : GangZoneItem × Server => q.1.Untouched)
      (assign fun z : GangZoneItem => { z with name := n } : Method GangZoneItem Unit) :=
    fun _ => keeps_untouched_assign fun _ => rfl
  have howner : ∀ o, Keeps (fun q : GangZoneItem × Server => q.1.Untouched)
      (assign fun z : GangZoneItem => { z with owner := o } : Method GangZoneItem Unit) :=
    fun _ => keeps_untouched_assign fun _ => rfl
  have hcolor : ∀ c, Keeps (fun q : GangZoneItem × Server => q.1.Untouched)
      (assign fun z : GangZoneItem => { z with color := c } : Method GangZoneItem Unit) :=
    fun _ => keeps_untouched_assign fun _ => rfl
  have hspawn : ∀ o, Keeps (fun q : GangZoneItem × Server => q.1.Untouched)
      (assign fun z : GangZoneItem => { z with spawnpoint := o } : Method GangZoneItem Unit) :=
    fun _ => keeps_untouched_assign fun _ => rfl
  have hcheck : ∀ (β : Type) (o : Option β), Keeps
      (fun q : GangZoneItem × Server => q.1.Untouched) (check o : Method GangZoneItem β) :=
    fun _ _ => within_orRaise _ _
  unfold loadOwnerData rethrowAs
  infer_instance

instance : Keeps (fun q : GangZoneItem × Server => q.1.Untouched) placeArea := by
  have harea : ∀ id, Keeps (fun q : GangZoneItem × Server => q.1.Untouched)
      (assign fun z : GangZoneItem => { z with areaid := id } : Method GangZoneItem Unit) :=
    fun _ => keeps_untouched_assign fun _ => rfl
  have htrigger : ∀ id, Keeps (fun q : GangZoneItem × Server => q.1.Untouched)
      (assign fun z : GangZoneItem => { z with triggerid := id } : Method GangZoneItem Unit) :=
    fun _ => keeps_untouched_assign fun _ => rfl
  unfold placeArea
  infer_instance

/-- A zone is built in peace. -/
theorem wp_construct_untouched {rest : Method GangZoneItem Unit}
    (h : Keeps (fun q : GangZoneItem × Server => q.1.Untouched) rest) {s : Server} :
    wp (construct item rest) (fun zone _ => zone.Untouched) (fun _ _ => True) s := by
  rw [construct, wp_bind, wp_gets]
  refine wp_last fun addr t => wp_last fun id u => ?_
  rw [wp_handle, wp_map, wp_withLocal]
  exact wp_mono (h.wp_of_keeps rfl) (fun _ _ h => h) (fun _ _ _ => wp_last fun _ _ => trivial)

theorem wp_build_untouched {s : Server} :
    wp (build item) (fun zone _ => zone.Untouched) (fun _ _ => True) s :=
  wp_last fun _ _ => wp_construct_untouched inferInstance

theorem Constructed.untouched {zone : GangZoneItem} (h : zone.Constructed) : zone.Untouched := by
  cases h
  case ofName s t name run =>
    refine (wp_of_ok (Q := fun zone _ => zone.Untouched) (E := fun _ _ => True) run).mp ?_
    exact wp_last fun _ _ => wp_last fun _ _ => wp_build_untouched
  case ofData s t data run =>
    refine (wp_of_ok (Q := fun zone _ => zone.Untouched) (E := fun _ _ => True) run).mp ?_
    exact wp_last fun _ _ => wp_last fun _ _ => wp_build_untouched
  case ofNew s t name owner spawnpoint min max trigger run =>
    refine (wp_of_ok (Q := fun zone _ => zone.Untouched) (E := fun _ _ => True) run).mp ?_
    refine wp_last fun _ _ => wp_last fun _ _ => wp_construct_untouched ?_
    have hitem : ∀ x : Method SaveableItem Unit,
        Keeps (fun q : GangZoneItem × Server => q.1.Untouched)
          (part (·.item) (fun it z => { z with item := it }) x) := by
      refine fun x => keeps_of_wp fun q hq => ?_
      rw [wp_part]
      exact wp_mono (wp_true x) (fun _ _ _ => hq) (fun _ _ _ => hq)
    infer_instance

end Construction
end GangZoneItem

/-- In every run of calls on a zone that a constructor has built, the zone destroys only timers
of its own and each of them once, if `MemberArrived` is called only where the timeout handle is 0
or some war has set it, and no war is ended by timeout again after that threw. -/
theorem zone_destroys_own_timers {z : ℤ} {s : Server} {zone : GangZoneItem}
    (hzone : s.zones.lookup z = some zone) (hbuilt : zone.Constructed) (ops : List HandleOp)
    (hmeets : Meets (watch (HandleOp.step z) (HandleOp.see z))
      (fun w op => op.keepsHandles z w = true) (s, {}) ops) :
    AllSteps (watch (HandleOp.step z) (HandleOp.see z)) DestroysOwn (s, {}) ops := by
  refine hmeets.of_invariant (I := InCustody z)
    (fun _ _ _ hw hstep hkeeps => HandleOp.step_custody hw hstep hkeeps) ?_
  have hpeace : zone.warinfo = {} := hbuilt.untouched
  refine ⟨zone, hzone, fun _ h => absurd h List.not_mem_nil, fun h => Bool.noConfusion h,
    fun hwar => ?_, fun h => Bool.noConfusion h⟩
  rw [hpeace] at hwar
  cases hwar

namespace Demo

/-- Memory that was never written holds 77. -/
def littered : Server := { siege with env := { env with uninitialised := fun _ => 77 } }

/-- The zone of the documents, as it is built there. -/
def newZone : GangZoneItem :=
  (GangZoneItem.ofData ((docs .gangzone).headD []) littered).value?.getD (.fresh env {} 0 1)

theorem newZone_constructed : newZone.Constructed := by
  have hvalue : (GangZoneItem.ofData ((docs .gangzone).headD []) littered).value?.isSome = true := by
    decide +kernel
  obtain ⟨zone, t, hrun⟩ := Outcome.exists_ok hvalue
  have hzone : newZone = zone := by rw [newZone, hrun]; rfl
  rw [hzone]
  exact .ofData hrun

def newlyBuilt : Server := { littered with zones := (∅ : Map ℤ GangZoneItem).insert 1 newZone }

theorem newZone_registered : newlyBuilt.zones.lookup 1 = some newZone := AList.lookup_insert _

end Demo

/-- A war sets the timeout timer, and the member who arrives destroys it. -/
theorem zone_destroys_own_timers_arrived :
    AllSteps (watch (HandleOp.step 1) (HandleOp.see 1)) DestroysOwn (Demo.newlyBuilt, {})
      [.startWar 0, .memberArrived, .endWar true] :=
  zone_destroys_own_timers Demo.newZone_registered Demo.newZone_constructed _
    (meets_of_check (b := fun w (op : HandleOp) => op.keepsHandles 1 w) (fun _ _ h => h)
      (by decide +kernel))

/-- Before any war, `MemberArrived` destroys the timer of whatever is in memory. -/
theorem stray_handle_is_destroyed :
    ¬∀ (z : ℤ) (s : Server) (zone : GangZoneItem) (ops : List HandleOp),
      s.zones.lookup z = some zone → zone.Constructed →
      AllSteps (watch (HandleOp.step z) (HandleOp.see z)) DestroysOwn (s, {}) ops := by
  intro hall
  exact not_allSteps [] .memberArrived
    (fun w u => HandleUse.ownOnly w.2.held u.1.handleUses) (fun _ _ h => h) (by decide +kernel)
    (hall 1 Demo.newlyBuilt Demo.newZone _ Demo.newZone_registered Demo.newZone_constructed)

end FreshCity
