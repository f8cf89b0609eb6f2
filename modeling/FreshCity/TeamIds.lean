import FreshCity.Existence
import FreshCity.TeamNumbers

/-!
# Identifiers that are held and identifiers that leak

The allocator hands out the ids it was given back before it counts on, and answers 0 when it has
none. Nobody can hold an id twice. The manager draws an id before it builds the team that is to
have it, so that a team that cannot be built or registered takes its id with it.
-/
namespace FreshCity
open Imperative Prog Run

/-! ## Who holds which id -/

/-- The calls on an allocator. -/
inductive IdOp where
  | get
  | return_ (id : ℤ)
  deriving DecidableEq

/-- An allocator, and the answers that were not given back. -/
abbrev Holding : Type := IdentifierAllocator × List ℤ

/-- One call. Only what is held can be given back, the answer 0 included. -/
def IdOp.step (w : Holding) : IdOp → Option Holding
  | get => some (w.1.get.2, w.1.get.1 :: w.2)
  | return_ id => if id ∈ w.2 then some (w.1.return_ id, w.2.erase id) else none

/-- The ids that are held are different and in range, and no returned id is held or there twice. -/
structure HeldApart (max : ℤ) (w : Holding) : Prop where
  distinct : (w.2.filter fun id => id ≠ 0).Nodup
  range : ∀ id ∈ w.2, id ≠ 0 → 1 ≤ id ∧ id ≤ max
  returned : ∀ id ∈ w.1.returned, id ≠ 0 → id ∉ w.2 ∧ w.1.returned.count id = 1

/-- The ids, held or returned, are different and were counted. -/
structure Counted (max : ℤ) (w : Holding) : Prop where
  max_eq : w.1.max = max
  count : 0 ≤ w.1.count ∧ w.1.count ≤ max
  distinct : ((w.2 ++ w.1.returned).filter fun id => id ≠ 0).Nodup
  range : ∀ id ∈ w.2 ++ w.1.returned, id ≠ 0 → 1 ≤ id ∧ id ≤ w.1.count

namespace Counted
variable {max : ℤ} {w u : Holding} {id : ℤ}

/-- Ids that change hands. -/
theorem perm (h : Counted max w) (hmax : u.1.max = w.1.max) (hcount : u.1.count = w.1.count)
    (hp : (u.2 ++ u.1.returned).Perm (w.2 ++ w.1.returned)) : Counted max u where
  max_eq := hmax.trans h.max_eq
  count := hcount ▸ h.count
  distinct := (hp.filter _).nodup_iff.mpr h.distinct
  range id hid := hcount ▸ h.range id (hp.mem_iff.mp hid)

theorem heldApart (h : Counted max w) : HeldApart max w := by
  have hsplit := h.distinct
  rw [List.filter_append] at hsplit
  obtain ⟨hheld, hreturned, hdisjoint⟩ := List.nodup_append.mp hsplit
  refine ⟨hheld, fun id hid hne => ?_, fun id hid hne => ⟨fun hmem => ?_, ?_⟩⟩
  · obtain ⟨hlow, hhigh⟩ := h.range id (List.mem_append_left _ hid) hne
    exact ⟨hlow, hhigh.trans h.count.2⟩
  · exact hdisjoint id (by simp [hmem, hne]) id (by simp [hid, hne]) rfl
  · have hone : (w.1.returned.filter fun id => id ≠ 0).count id = 1 :=
      List.count_eq_one_of_mem hreturned (by simp [hid, hne])
    rwa [List.count_filter (by simpa using hne)] at hone

/-- `Get`: a returned id is held again, or one more is counted, or the answer is 0. -/
theorem get (h : Counted max w) : Counted max (w.1.get.2, w.1.get.1 :: w.2) := by
  obtain ⟨a, held⟩ := w
  cases hr : a.returned with
  | cons id ids =>
    have hget : a.get = (id, { a with returned := ids }) := by simp [IdentifierAllocator.get, hr]
    refine h.perm (by rw [hget]) (by rw [hget]) ?_
    simp only [hget, hr, List.cons_append]
    exact List.perm_middle.symm
  | nil =>
    by_cases hlast : a.count = a.max
    · have hget : a.get = (0, a) := by simp [IdentifierAllocator.get, hr, hlast]
      refine ⟨by rw [hget]; exact h.max_eq, by rw [hget]; exact h.count, ?_, ?_⟩
      · simpa [hget] using h.distinct
      · rw [hget]
        intro id hid hne
        exact h.range id (by simpa [hne] using hid) hne
    · have hget : a.get = (a.count + 1, { a with count := a.count + 1 }) := by
        simp [IdentifierAllocator.get, hr, hlast]
      have hmax : a.max = max := h.max_eq
      have hcount : 0 ≤ a.count ∧ a.count ≤ max := h.count
      have hrange : ∀ id ∈ held, id ≠ 0 → 1 ≤ id ∧ id ≤ a.count := by
        intro id hid
        exact h.range id (List.mem_append_left _ hid)
      have hheld : (held.filter fun id => id ≠ 0).Nodup := by simpa [hr] using h.distinct
      rw [hget]
      refine ⟨hmax, ⟨?_, ?_⟩, ?_, fun id hid hne => ?_⟩
      · change 0 ≤ a.count + 1
        omega
      · change a.count + 1 ≤ max
        omega
      · simp only [hr, List.append_nil]
        have hne : a.count + 1 ≠ 0 := by omega
        rw [List.filter_cons_of_pos (by simpa using hne), List.nodup_cons]
        refine ⟨fun hmem => ?_, hheld⟩
        obtain ⟨hmem, hne⟩ := List.mem_filter.mp hmem
        have hle := (hrange _ hmem (by simpa using hne)).2
        omega
      · simp only [hr, List.append_nil, List.mem_cons] at hid
        change 1 ≤ id ∧ id ≤ a.count + 1
        rcases hid with rfl | hid
        · omega
        · have hle := hrange id hid hne
          omega

theorem return_ (h : Counted max w) (hid : id ∈ w.2) :
    Counted max (w.1.return_ id, w.2.erase id) := by
  refine h.perm rfl rfl ?_
  refine List.perm_middle.trans ?_
  exact (List.perm_cons_erase hid).symm.append_right _

theorem step {op : IdOp} (h : Counted max w) (hstep : op.step w = some u) : Counted max u := by
  cases op with
  | get =>
    obtain rfl := Option.some.inj hstep
    exact h.get
  | return_ id =>
    simp only [IdOp.step, Option.ite_none_right_eq_some, Option.some.injEq] at hstep
    obtain ⟨hid, rfl⟩ := hstep
    exact h.return_ hid

end Counted

/-- In every run of calls on a new allocator, where each id that is given back is held, the ids
that are held are different and in range, and no returned id is held or there twice. -/
theorem ids_held_apart (max : ℕ) (ops : List IdOp) :
    AllSteps IdOp.step (fun _ _ u => HeldApart max u) ({ max := max }, []) ops := by
  refine AllSteps.of_step (I := Counted max) (fun w op u hw hstep => ?_) ?_ ops
  · have hu := hw.step hstep
    exact ⟨hu.heldApart, hu⟩
  · exact ⟨rfl, ⟨le_rfl, Int.natCast_nonneg max⟩, List.nodup_nil, fun id hid => nomatch hid⟩

/-! ## The ids of the teams -/

namespace TeamManager
variable (m : TeamManager)

/-- How many ids the allocator has left. -/
def idsLeft : ℤ := 255 - m.idgen.count + m.idgen.returned.length

/-- The ids of the registered teams. The answer 0 is no id. -/
def liveIds : List ℤ := m.numbers.filter fun id => id ≠ 0

/-- How many ids there are: those that are left, and those of the registered teams. -/
def ids : ℤ := m.idsLeft + m.liveIds.length

/-- How many teams are registered. -/
def live : ℕ := m.members.values.length

end TeamManager

/-- The calls on the manager. Between two of them, anything but the teams may change. -/
inductive TeamOp where
  | add (leader : OID) (name : Text) (color : ℤ)
  | remove (t : OID)
  | loadAllFromDatabase
  | meanwhile (t : Server)

namespace TeamOp

/-- The server after a call, which may also have thrown. -/
def after (s : Server) : TeamOp → Option Server
  | add leader name color => (TeamManager.add leader name color s).state?
  | remove t => (TeamManager.remove t s).state?
  | loadAllFromDatabase => (TeamManager.loadAllFromDatabase s).state?
  | meanwhile t => some { t with teams := s.teams }

/-- A call that leaves no more teams than there are ids. -/
def step (s : Server) (op : TeamOp) : Option Server :=
  (op.after s).filter fun t => t.teams.live ≤ 255

/-- Whether the documents that a reload gets to can be read and have ids of their own, until all
255 ids are drawn. -/
def readsTeams : List Document → List Fault → List OID → Bool
  | [], _, _ => true
  | doc :: docs, faults, seen =>
    (faults.headD .none).isThrow || decide (255 ≤ seen.length) ||
      (TeamManager.loads doc && (documentId doc).any fun id =>
        decide (id ∉ seen) && readsTeams docs faults.tail (id :: seen))

/-- Whether the database takes the document of a new team. -/
def builds (s : Server) (leader : OID) (name : Text) (color : ℤ) : Bool :=
  s.config.collection .team && !s.database.refusesInsert .team (Team.document
    (s.env.genoid s.genoids).val (s.platform.gbkToUTF8 name) leader color)

/-- Whether a new team is built and registered. -/
def registers (s : Server) (leader : OID) (name : Text) (color : ℤ) : Bool :=
  builds s leader name color && decide ((s.env.genoid s.genoids).val ∉ s.teams.members)

/-- Whether every id that a call draws comes to a registered team. -/
def keepsIds (s : Server) : TeamOp → Bool
  | add leader name color => decide (s.teams.idsLeft = 0) || registers s leader name color
  | loadAllFromDatabase => !s.config.collection .team || s.database.fault.isThrow ||
      readsTeams (s.database.docs .team) s.database.next.faults []
  | _ => true

end TeamOp

namespace TeamManager

/-- No id is lost, and a team without one is registered only when none is left. -/
structure Tallied (m : TeamManager) : Prop where
  keyed : ∀ t team, m.members.lookup t = some team → team.item.uniqueid = t
  max_eq : m.idgen.max = 255
  count : 0 ≤ m.idgen.count ∧ m.idgen.count ≤ 255
  returned : (0 : ℤ) ∉ m.idgen.returned
  ids_eq : m.ids = 255
  zero : (0 : ℤ) ∈ m.numbers → m.idsLeft = 0

/-- The counts that stay in range even when ids are lost. -/
structure Ranged (m : TeamManager) : Prop where
  max_eq : m.idgen.max = 255
  count : 0 ≤ m.idgen.count ∧ m.idgen.count ≤ 255

variable {m : TeamManager} {id : ℤ}

theorem Tallied.ranged (h : m.Tallied) : m.Ranged := ⟨h.max_eq, h.count⟩

theorem length_liveIds_le : m.liveIds.length ≤ m.live := by
  have hle := List.length_filter_le (fun id => decide (id ≠ 0)) m.numbers
  rwa [numbers, List.length_map] at hle

theorem Ranged.idsLeft_nonneg (h : m.Ranged) : 0 ≤ m.idsLeft := by
  have hcount := h.count
  simp only [idsLeft]
  omega

/-- With no more teams than ids, no team is without one. -/
theorem Tallied.zero_notMem (h : m.Tallied) (hlive : m.live ≤ 255) : (0 : ℤ) ∉ m.numbers := by
  intro hzero
  have hids := h.ids_eq
  have hleft := h.zero hzero
  simp only [ids, hleft, zero_add] at hids
  have hlt : m.liveIds.length < m.numbers.length :=
    List.length_filter_lt_length_iff_exists.mpr ⟨0, hzero, by simp⟩
  rw [numbers, List.length_map] at hlt
  rw [live] at hlive
  omega

/-- `Get` draws an id, or answers 0 if none is left. -/
theorem Ranged.draw (h : m.Ranged) :
    ({ m with idgen := m.idgen.get.2 } : TeamManager).Ranged ∧
      ({ m with idgen := m.idgen.get.2 } : TeamManager).idsLeft =
        (if m.idsLeft = 0 then 0 else m.idsLeft - 1) ∧
      (m.idsLeft = 0 → m.idgen.get.1 = 0) ∧
      ((0 : ℤ) ∉ m.idgen.returned → m.idsLeft ≠ 0 → m.idgen.get.1 ≠ 0) ∧
      ((0 : ℤ) ∉ m.idgen.returned → (0 : ℤ) ∉ m.idgen.get.2.returned) := by
  obtain ⟨hmax, hcount⟩ := h
  cases hr : m.idgen.returned with
  | cons id ids =>
    have hget : m.idgen.get = (id, { m.idgen with returned := ids }) := by
      simp [IdentifierAllocator.get, hr]
    have hleft : m.idsLeft ≠ 0 := by
      simp only [idsLeft, hr, List.length_cons]
      omega
    rw [hget]
    refine ⟨⟨hmax, hcount⟩, ?_, fun h => absurd h hleft, fun hzero _ h => ?_, fun hzero h => ?_⟩
    · simp only [idsLeft, hr, List.length_cons]
      omega
    · exact hzero (h ▸ List.mem_cons_self ..)
    · exact hzero (List.mem_cons_of_mem _ h)
  | nil =>
    by_cases hlast : m.idgen.count = m.idgen.max
    · have hget : m.idgen.get = (0, m.idgen) := by simp [IdentifierAllocator.get, hr, hlast]
      have hleft : m.idsLeft = 0 := by
        simp only [idsLeft, hr, List.length_nil, hlast, hmax]
        omega
      rw [hget]
      exact ⟨⟨hmax, hcount⟩, by rw [if_pos hleft]; exact hleft, fun _ => rfl,
        fun _ h => absurd hleft h, fun _ => by simp [hr]⟩
    · have hget : m.idgen.get = (m.idgen.count + 1, { m.idgen with count := m.idgen.count + 1 }) := by
        simp [IdentifierAllocator.get, hr, hlast]
      have hleft : m.idsLeft ≠ 0 := by
        simp only [idsLeft, hr, List.length_nil]
        omega
      rw [hget]
      refine ⟨⟨hmax, ?_⟩, ?_, fun h => absurd h hleft, fun _ _ => ?_, fun _ => by simp [hr]⟩
      · change 0 ≤ m.idgen.count + 1 ∧ m.idgen.count + 1 ≤ 255
        omega
      · simp only [idsLeft, hr, List.length_nil]
        omega
      · change m.idgen.count + 1 ≠ 0
        omega

/-- Ids are lost. -/
structure Short (m : TeamManager) : Prop where
  ranged : m.Ranged
  lost : m.ids < 255

/-- The manager once an id is drawn. -/
def drawnFrom (m : TeamManager) : TeamManager := { m with idgen := m.idgen.get.2 }

/-- The manager once a team has the id that was drawn. -/
def register (m : TeamManager) (team : Team) : TeamManager :=
  { m with members := m.members.insert team.item.uniqueid team }

theorem liveIds_register {team : Team} (hnew : team.item.uniqueid ∉ m.members) :
    (m.register team).numbers = team.ingameteamid :: m.numbers ∧
      (m.register team).liveIds =
        if team.ingameteamid = 0 then m.liveIds else team.ingameteamid :: m.liveIds := by
  have hnumbers : (m.register team).numbers = team.ingameteamid :: m.numbers := by
    rw [register, numbers, Map.values_insert team hnew]
    rfl
  refine ⟨hnumbers, ?_⟩
  rw [liveIds, hnumbers, List.filter_cons]
  by_cases hzero : team.ingameteamid = 0
  · simp [hzero, liveIds]
  · simp [hzero, liveIds]

/-- An id that was there to draw is lost with the team it was for. -/
theorem Tallied.lose (h : m.Tallied) (hleft : m.idsLeft ≠ 0) : m.drawnFrom.Short := by
  obtain ⟨hranged, hfewer, -, -, -⟩ := h.ranged.draw
  have hids := h.ids_eq
  refine ⟨hranged, ?_⟩
  rw [if_neg hleft] at hfewer
  change m.drawnFrom.idsLeft = m.idsLeft - 1 at hfewer
  have hlive : m.drawnFrom.liveIds = m.liveIds := rfl
  simp only [ids] at hids ⊢
  rw [hfewer, hlive]
  omega

/-- Without ids, there are none to lose. -/
theorem Tallied.idle (h : m.Tallied) (hleft : m.idsLeft = 0) : m.drawnFrom.Tallied := by
  obtain ⟨hranged, hsame, -, -, hreturned⟩ := h.ranged.draw
  rw [if_pos hleft] at hsame
  change m.drawnFrom.idsLeft = 0 at hsame
  have hids := h.ids_eq
  refine ⟨h.keyed, hranged.max_eq, hranged.count, hreturned h.returned, ?_, fun _ => hsame⟩
  have hlive : m.drawnFrom.liveIds = m.liveIds := rfl
  simp only [ids] at hids ⊢
  rw [hsame, hlive]
  omega

/-- The id that is drawn comes to a team. -/
theorem Tallied.register {team : Team} (h : m.Tallied) (hid : team.ingameteamid = m.idgen.get.1)
    (hnew : team.item.uniqueid ∉ m.members) : (m.drawnFrom.register team).Tallied := by
  obtain ⟨hranged, hleft, hnone, hsome, hreturned⟩ := h.ranged.draw
  change m.drawnFrom.idsLeft = _ at hleft
  have hids := h.ids_eq
  obtain ⟨hnumbers, hlive⟩ := liveIds_register (m := m.drawnFrom) hnew
  have hleft' : (m.drawnFrom.register team).idsLeft = m.drawnFrom.idsLeft := rfl
  have hsame : m.drawnFrom.liveIds = m.liveIds := rfl
  have hkeyed : ∀ t u, (m.drawnFrom.register team).members.lookup t = some u →
      u.item.uniqueid = t := by
    intro t u hu
    simp only [TeamManager.register, drawnFrom, Map.lookup_insert_ite] at hu
    split at hu
    · obtain rfl := Option.some.inj hu
      exact ‹t = _›.symm
    · exact h.keyed t u hu
  simp only [ids] at hids
  by_cases hout : m.idsLeft = 0
  · have hzero : team.ingameteamid = 0 := hid.trans (hnone hout)
    rw [if_pos hout] at hleft
    refine ⟨hkeyed, hranged.max_eq, hranged.count, hreturned h.returned, ?_,
      fun _ => hleft'.trans hleft⟩
    rw [ids, hleft', hleft, hlive, if_pos hzero, hsame]
    omega
  · have hne : team.ingameteamid ≠ 0 := by
      rw [hid]
      exact hsome h.returned hout
    rw [if_neg hout] at hleft
    refine ⟨hkeyed, hranged.max_eq, hranged.count, hreturned h.returned, ?_, fun hzero => ?_⟩
    · rw [ids, hleft', hleft, hlive, if_neg hne, hsame, List.length_cons]
      push_cast
      omega
    · rw [hnumbers, List.mem_cons] at hzero
      rcases hzero with hzero | hzero
      · exact absurd hzero.symm hne
      · exact absurd (h.zero hzero) hout

theorem Short.lose (h : m.Short) : m.drawnFrom.Short := by
  obtain ⟨hranged, hleft, -, -, -⟩ := h.ranged.draw
  change m.drawnFrom.idsLeft = _ at hleft
  have hlost := h.lost
  have hlive : m.drawnFrom.liveIds = m.liveIds := rfl
  have hnonneg := h.ranged.idsLeft_nonneg
  refine ⟨hranged, ?_⟩
  simp only [ids] at hlost ⊢
  rw [hleft, hlive]
  split <;> omega

theorem Short.register {team : Team} (h : m.Short) (hid : team.ingameteamid = m.idgen.get.1)
    (hnew : team.item.uniqueid ∉ m.members) : (m.drawnFrom.register team).Short := by
  obtain ⟨hranged, hleft, hnone, -, -⟩ := h.ranged.draw
  change m.drawnFrom.idsLeft = _ at hleft
  have hlost := h.lost
  obtain ⟨-, hlive⟩ := liveIds_register (m := m.drawnFrom) hnew
  have hleft' : (m.drawnFrom.register team).idsLeft = m.drawnFrom.idsLeft := rfl
  have hsame : m.drawnFrom.liveIds = m.liveIds := rfl
  have hnonneg := h.ranged.idsLeft_nonneg
  refine ⟨⟨hranged.max_eq, hranged.count⟩, ?_⟩
  simp only [ids] at hlost
  rw [ids, hleft', hleft, hlive, hsame]
  by_cases hout : m.idsLeft = 0
  · rw [if_pos hout, if_pos (hid.trans (hnone hout))]
    omega
  · rw [if_neg hout]
    split
    · omega
    · rw [List.length_cons]
      push_cast
      omega

/-- The id of a team that goes is returned. -/
theorem Tallied.remove {t : OID} {team : Team} (h : m.Tallied) (hlive : m.live ≤ 255)
    (hteam : m.members.lookup t = some team) :
    ({ members := m.members.erase t, idgen := m.idgen.return_ team.ingameteamid } :
      TeamManager).Tallied := by
  have hzero := h.zero_notMem hlive
  have hids := h.ids_eq
  have hperm : m.numbers.Perm (team.ingameteamid :: (Map.values (m.members.erase t)).map
      (·.ingameteamid)) := (Map.values_perm_erase hteam).map _
  have hne : team.ingameteamid ≠ 0 := fun heq => hzero (hperm.mem_iff.mpr (by simp [heq]))
  have hfewer := (hperm.filter fun id => id ≠ 0).length_eq
  rw [List.filter_cons_of_pos (by simpa using hne), List.length_cons] at hfewer
  refine ⟨fun u v hv => ?_, h.max_eq, h.count, fun hmem => ?_, ?_, fun hmem => ?_⟩
  · simp only [Map.lookup_erase_ite] at hv
    split at hv
    · cases hv
    · exact h.keyed u v hv
  · rcases List.mem_cons.mp hmem with hmem | hmem
    · exact hne hmem.symm
    · exact h.returned hmem
  · simp only [ids, idsLeft, liveIds, IdentifierAllocator.return_, List.length_cons] at hids ⊢
    simp only [numbers] at hfewer hids ⊢
    rw [hfewer] at hids
    push_cast at hids ⊢
    omega
  · exact absurd (hperm.mem_iff.mpr (List.mem_cons_of_mem _ hmem)) hzero

/-! ## What a call does to the ids -/

section Programs
variable {s : Server} {team : Team} {t : OID} {doc : Document} {seen : List OID}

/-- Ids are lost exactly if not all of them are kept. -/
def Balanced (kept : Bool) (m : TeamManager) : Prop := if kept then m.Tallied else m.Short

@[simp] theorem balanced_true : Balanced true m ↔ m.Tallied := Iff.rfl

@[simp] theorem balanced_false : Balanced false m ↔ m.Short := by simp [Balanced]

theorem documentId_document {id leader : OID} {name : Text} {color : ℤ} :
    documentId (Team.document id name leader color) = some id := rfl

theorem wp_addMember_iff {Q : Bool → Server → Prop} {E : Exn → Server → Prop} :
    wp (addMember team) Q E s ↔ if team.item.uniqueid ∈ s.teams.members then Q false s
      else Q true { s with teams := s.teams.register team } := by
  simp only [addMember, wp_bind, wp_gets, wp_ite, wp_pure, wp_modify, id_eq]
  rfl

/-- A team is built for the id it is given exactly if the database takes its document. -/
theorem wp_create {leader : OID} {name : Text} {color id : ℤ} :
    wp (Team.create leader name color id)
      (fun team u => u.teams = s.teams ∧ team.ingameteamid = id ∧
        team.item.uniqueid = (s.env.genoid s.genoids).val ∧
        TeamOp.builds s leader name color = true)
      (fun _ u => u.teams = s.teams ∧ TeamOp.builds s leader name color = false) s := by
  have hstay : Stays [.counters, .output, .database, .insert .team]
      (Team.create leader name color id) := inferInstance
  have hteams := wp_teams_eq (s := s) hstay (by simp [Kind.writesTeams])
  have hcreate : wp (Team.create leader name color id)
      (fun team _ => team.ingameteamid = id ∧
        team.item.uniqueid = (s.env.genoid s.genoids).val ∧
        TeamOp.builds s leader name color = true)
      (fun _ _ => TeamOp.builds s leader name color = false) s := by
    simp only [Team.create, SaveableItem.unsaved, configCollection, genOID, wp_bind, wp_gets,
      wp_raiseIf, wp_pure, wp_modify, wp_withLocal, TeamOp.builds]
    have hid : documentId (Team.document (s.env.genoid s.genoids).val (s.platform.gbkToUTF8 name)
        leader color) = some (s.env.genoid s.genoids).val := documentId_document
    generalize Team.document (s.env.genoid s.genoids).val (s.platform.gbkToUTF8 name) leader color =
      doc at hid ⊢
    split
    case isTrue hunknown => simp_all
    case isFalse hknown =>
      have hknown' : s.config.collection .team = true := by simpa using hknown
      have hempty : ({} : SaveableItem).isEmpty = true := rfl
      refine wp_mono create_leaves (fun _ q hq => ?_) (fun _ q hq => ?_)
      · obtain ⟨hreturns, hitem⟩ := hq
        simp only [ItemOp.returns, ItemOp.after, ItemOp.accepted, hempty, hid] at hreturns hitem
        simp_all
      · have hreturns := hq.1
        simp only [ItemOp.returns, ItemOp.accepted, hempty, hid] at hreturns
        simp_all
  exact wp_mono (wp_and hteams hcreate) (fun _ _ h => h) (fun _ _ h => h)

theorem wp_add_balanced {leader : OID} {name : Text} {color : ℤ} (h : s.teams.Tallied) :
    wp (add leader name color)
      (fun _ u => Balanced ((TeamOp.add leader name color).keepsIds s) u.teams)
      (fun _ u => Balanced ((TeamOp.add leader name color).keepsIds s) u.teams) s := by
  simp only [add, getId, wp_bind, wp_gets, wp_modify, wp_pure]
  have hfailed : TeamOp.registers s leader name color = false →
      Balanced ((TeamOp.add leader name color).keepsIds s) s.teams.drawnFrom := by
    intro hregisters
    simp only [TeamOp.keepsIds, hregisters, Bool.or_false, Balanced, decide_eq_true_eq]
    split
    · exact h.idle ‹_›
    · exact h.lose ‹_›
  refine wp_mono wp_create (fun team u hu => ?_) (fun _ u hu => ?_)
  · obtain ⟨hteams, hnumber, hid, hbuilds⟩ := hu
    change u.teams = s.teams.drawnFrom at hteams
    change TeamOp.builds s leader name color = true at hbuilds
    rw [wp_addMember_iff, hteams, hid]
    change if (s.env.genoid s.genoids).val ∈ s.teams.members then _ else _
    split
    case isTrue hmem => exact hteams ▸ hfailed (by simp [TeamOp.registers, hmem])
    case isFalse hnew =>
      have hregisters : TeamOp.registers s leader name color = true := by
        simp [TeamOp.registers, hbuilds, hnew]
      simp only [TeamOp.keepsIds, hregisters, Bool.or_true, balanced_true]
      exact h.register hnumber (by rw [hid]; exact hnew)
  · obtain ⟨hteams, hbuilds⟩ := hu
    change TeamOp.builds s leader name color = false at hbuilds
    rw [hteams]
    exact hfailed (by simp [TeamOp.registers, hbuilds])

theorem wp_remove_tallied (h : s.teams.Tallied) (hlive : s.teams.live ≤ 255) :
    wp (remove t) (fun _ u => u.teams.Tallied) (fun _ u => u.teams.Tallied) s := by
  simp only [remove, Team.ref, returnId, wp_bind, wp_gets, wp_orUndefined, wp_ite, wp_modify,
    wp_pure, id_eq]
  intro team hteam
  rw [h.keyed t team hteam]
  split
  · exact h.remove hlive hteam
  · exact h

/-- The ids of the teams that were read, when there are as many teams as the list has. -/
structure Loaded (m : TeamManager) (seen : List OID) : Prop where
  tallied : m.Tallied
  seen_iff : ∀ id, id ∈ m.members ↔ id ∈ seen
  live_eq : m.live = seen.length

/-- With fewer teams than ids, there is one to draw. -/
theorem Loaded.idsLeft_ne (h : m.Loaded seen) (hseen : seen.length < 255) : m.idsLeft ≠ 0 := by
  have hids := h.tallied.ids_eq
  have hlive := length_liveIds_le (m := m)
  have heq := h.live_eq
  simp only [ids] at hids
  omega

/-- With as many teams as ids, all of them are drawn. -/
theorem Loaded.idsLeft_eq (h : m.Loaded seen) (hseen : 255 ≤ seen.length) : m.idsLeft = 0 := by
  by_cases hzero : (0 : ℤ) ∈ m.numbers
  · exact h.tallied.zero hzero
  · have hids := h.tallied.ids_eq
    have hall : m.liveIds = m.numbers :=
      List.filter_eq_self.mpr fun id hid => by
        have hne : id ≠ 0 := fun heq => hzero (heq ▸ hid)
        simpa using hne
    have hlive := h.live_eq
    have hnonneg := h.tallied.ranged.idsLeft_nonneg
    simp only [ids, hall, numbers, List.length_map] at hids
    rw [live] at hlive
    omega

theorem Loaded.register (h : m.Loaded seen) (hid : team.ingameteamid = m.idgen.get.1)
    (hnew : team.item.uniqueid ∉ m.members) :
    (m.drawnFrom.register team).Loaded (team.item.uniqueid :: seen) where
  tallied := h.tallied.register hid hnew
  seen_iff id := by
    simp only [TeamManager.register, drawnFrom, AList.mem_insert, h.seen_iff, List.mem_cons]
  live_eq := by
    have hvalues := Map.values_insert (m := m.members) team hnew
    simp only [live, TeamManager.register, drawnFrom]
    rw [hvalues, List.length_cons, List.length_cons]
    exact congrArg (· + 1) h.live_eq

/-- The body of a reload. -/
abbrev loadTeam (doc : Document) : Game Unit := do
  let _ ← nextFault
  let id ← getId
  let team ← Team.ofData doc id
  let _ ← addMember team
  pure ()

/-- Once ids are lost, no document makes up for them. -/
theorem wp_loadTeams_short (docs : List Document) (h : s.teams.Short) :
    wp (forEach loadTeam docs) (fun _ u => u.teams.Short) (fun _ u => u.teams.Short) s := by
  induction docs generalizing s with
  | nil => exact h
  | cons doc docs ih =>
    simp only [forEach, loadTeam, getId, wp_bind, wp_nextFault, wp_gets, wp_modify, wp_pure]
    refine ⟨fun _ _ => h, fun _ => ?_⟩
    refine wp_mono wp_ofData (fun team u hu => ?_) (fun _ u hu => ?_)
    · obtain ⟨rfl, hid, -, -⟩ := hu
      rw [wp_bind, wp_addMember_iff]
      split
      · exact ih h.lose
      · exact ih (h.register hid ‹_›)
    · rw [hu.1]
      exact h.lose

/-- Once all ids are drawn, none can be lost. -/
theorem wp_loadTeams_idle (docs : List Document) (h : s.teams.Tallied) (hleft : s.teams.idsLeft = 0) :
    wp (forEach loadTeam docs) (fun _ u => u.teams.Tallied) (fun _ u => u.teams.Tallied) s := by
  induction docs generalizing s with
  | nil => exact h
  | cons doc docs ih =>
    simp only [forEach, loadTeam, getId, wp_bind, wp_nextFault, wp_gets, wp_modify, wp_pure]
    refine ⟨fun _ _ => h, fun _ => ?_⟩
    have hnone : s.teams.drawnFrom.idsLeft = 0 := by
      have hdraw := h.ranged.draw.2.1
      rwa [if_pos hleft] at hdraw
    refine wp_mono wp_ofData (fun team u hu => ?_) (fun _ u hu => ?_)
    · obtain ⟨rfl, hid, -, -⟩ := hu
      rw [wp_bind, wp_addMember_iff]
      split
      · exact ih (h.idle hleft) hnone
      · exact ih (h.register hid ‹_›) hnone
    · rw [hu.1]
      exact h.idle hleft

/-- A reload that has read some teams already. -/
theorem wp_loadTeams (docs : List Document) (h : s.teams.Loaded seen)
    (hknown : s.config.collection .team = true) : wp (forEach loadTeam docs)
      (fun _ u => Balanced (TeamOp.readsTeams docs s.database.faults seen) u.teams)
      (fun _ u => Balanced (TeamOp.readsTeams docs s.database.faults seen) u.teams) s := by
  induction docs generalizing s seen with
  | nil => exact h.tallied
  | cons doc docs ih =>
    simp only [TeamOp.readsTeams]
    by_cases hfull : 255 ≤ seen.length
    · simp only [hfull, decide_true, Bool.or_true, Bool.true_or, Balanced, if_true]
      exact wp_loadTeams_idle (doc :: docs) h.tallied (h.idsLeft_eq hfull)
    have hleft : s.teams.idsLeft ≠ 0 := h.idsLeft_ne (by omega)
    simp only [forEach, loadTeam, getId, wp_bind, wp_nextFault, wp_gets, wp_modify, wp_pure]
    refine ⟨fun exn hexn => ?_, fun hthrow => ?_⟩
    · have hexn' : (s.database.faults.headD .none).isThrow = true := isThrow_of_eq hexn
      simp only [hexn', Bool.true_or, balanced_true]
      exact h.tallied
    have hthrow' : (s.database.faults.headD .none).isThrow = false := hthrow
    have hlost := h.tallied.lose hleft
    simp only [hthrow', hfull, decide_false, Bool.or_false, Bool.false_or]
    refine wp_mono wp_ofData (fun team u hu => ?_) (fun _ u hu => ?_)
    · obtain ⟨rfl, hid, hloads, hdoc⟩ := hu
      simp only [hloads, hdoc, Option.any_some, Bool.true_and]
      rw [wp_bind, wp_addMember_iff]
      have hmem := h.seen_iff team.item.uniqueid
      split
      case isTrue hold =>
        have hseen := hmem.mp hold
        simp only [hseen, not_true_eq_false, decide_false, Bool.false_and, balanced_false]
        exact wp_loadTeams_short docs hlost
      case isFalse hnew =>
        have hseen : team.item.uniqueid ∉ seen := fun hold => hnew (hmem.mpr hold)
        simp only [hseen, not_false_eq_true, decide_true, Bool.true_and]
        exact ih (h.register hid hnew) hknown
    · rw [hu.1]
      have hloads : loads doc = false := hu.2 hknown
      simp only [hloads, Bool.false_and, balanced_false]
      exact hlost

/-- Returning the ids of all teams leaves none in use. -/
theorem wp_returnIds (teams : List Team) :
    wp (forEach (fun team => returnId team.ingameteamid) teams)
      (fun _ u => u = { s with teams := { s.teams with idgen := { s.teams.idgen with
        returned := (teams.map (·.ingameteamid)).reverse ++ s.teams.idgen.returned } } })
      (fun _ _ => False) s := by
  induction teams generalizing s with
  | nil => rfl
  | cons team teams ih =>
    simp only [forEach, wp_bind, returnId, wp_modify]
    refine wp_mono ih (fun _ u hu => ?_) (fun _ _ hf => hf)
    simp [hu, IdentifierAllocator.return_]

/-- A manager that has given back all ids and dropped all teams. -/
theorem Tallied.returnAll (h : m.Tallied) (hlive : m.live ≤ 255) :
    ({ members := ∅, idgen := { m.idgen with
      returned := m.numbers.reverse ++ m.idgen.returned } } : TeamManager).Loaded [] := by
  have hzero := h.zero_notMem hlive
  have hids := h.ids_eq
  have hall : m.liveIds = m.numbers :=
    List.filter_eq_self.mpr fun id hid => by
      have hne : id ≠ 0 := fun heq => hzero (heq ▸ hid)
      simpa using hne
  refine ⟨⟨fun t team hteam => by simp at hteam, h.max_eq, h.count, ?_, ?_, fun hmem => nomatch hmem⟩,
    fun id => by simp, rfl⟩
  · simpa using ⟨hzero, h.returned⟩
  · have hnone : ({ members := ∅, idgen := { m.idgen with
        returned := m.numbers.reverse ++ m.idgen.returned } } : TeamManager).liveIds = [] := rfl
    rw [ids, hnone]
    simp only [ids, idsLeft, hall, List.length_append, List.length_reverse, List.length_nil]
      at hids ⊢
    push_cast
    omega

theorem wp_reload_balanced (h : s.teams.Tallied) (hlive : s.teams.live ≤ 255) :
    wp loadAllFromDatabase (fun _ u => Balanced (TeamOp.loadAllFromDatabase.keepsIds s) u.teams)
      (fun _ u => Balanced (TeamOp.loadAllFromDatabase.keepsIds s) u.teams) s := by
  simp only [loadAllFromDatabase, emit, clear, fetchAllFromDatabase, configCollection, wp_bind,
    wp_modify, wp_gets]
  refine wp_mono (wp_returnIds s.teams.members.values) (fun _ u hu => ?_) (fun _ _ hf => hf.elim)
  subst hu
  have hempty := h.returnAll hlive
  simp only [wp_bind, wp_modify, wp_gets, wp_raiseIf, TeamOp.keepsIds]
  split
  case isTrue hunknown =>
    have hunknown' : s.config.collection .team = false := by simpa using hunknown
    simp only [hunknown', Bool.not_false, Bool.true_or, balanced_true]
    exact hempty.tallied
  case isFalse hknown =>
    have hknown' : s.config.collection .team = true := by simpa using hknown
    rw [wp_issue]
    refine ⟨fun exn hexn => ?_, fun hfault => ?_⟩
    · have hfault : s.database.fault.isThrow = true := isThrow_of_eq hexn
      simp only [hfault, Bool.or_true, Bool.true_or, balanced_true]
      exact hempty.tallied
    · have hfault' : s.database.fault.isThrow = false := hfault
      simp only [hknown', hfault', Bool.not_true, Bool.false_or]
      exact wp_loadTeams _ hempty hknown'

end Programs
end TeamManager

/-! ## Runs -/

namespace TeamOp
variable {s t : Server} {op : TeamOp}

/-- A call from a server that has lost no ids. -/
theorem balanced_step (h : s.teams.Tallied) (hlive : s.teams.live ≤ 255) (hstep : op.step s = some t) :
    t.teams.live ≤ 255 ∧ TeamManager.Balanced (op.keepsIds s) t.teams := by
  obtain ⟨hstate, hfew⟩ := Option.filter_eq_some_iff.mp hstep
  refine ⟨by simpa using hfew, ?_⟩
  let P : Server → Prop := fun u => TeamManager.Balanced (op.keepsIds s) u.teams
  cases op with
  | add leader name color => exact state_of_wp (P := P) (TeamManager.wp_add_balanced h) hstate
  | remove o =>
    refine state_of_wp (P := P) (wp_mono (TeamManager.wp_remove_tallied h hlive) (fun _ u hu => ?_)
      (fun _ u hu => ?_)) hstate
    · exact TeamManager.balanced_true.mpr hu
    · exact TeamManager.balanced_true.mpr hu
  | loadAllFromDatabase => exact state_of_wp (P := P) (TeamManager.wp_reload_balanced h hlive) hstate
  | meanwhile u =>
    obtain rfl := Option.some.inj hstate
    exact TeamManager.balanced_true.mpr h

end TeamOp

/-- In a run with no more teams than ids, the ids that are left and those of the teams are always
255 together exactly if every id that is drawn comes to a registered team. -/
theorem no_team_id_leaks_iff (platform : Platform) (config : Config)
    (docs : Collection → List Document) (ops : List TeamOp) :
    AllSteps TeamOp.step (fun _ _ t => t.teams.ids = 255) (Server.initial platform config docs) ops ↔
      Meets TeamOp.step (fun s op => op.keepsIds s = true) (Server.initial platform config docs)
        ops := by
  refine allSteps_iff_meets (I := fun s => s.teams.Tallied ∧ s.teams.live ≤ 255)
    (fun s op t hI hstep => ?_) (fun s op t hI hstep hC => ?_) ?_
  · have hbalanced := (TeamOp.balanced_step hI.1 hI.2 hstep).2
    cases hkept : op.keepsIds s with
    | true =>
      rw [hkept, TeamManager.balanced_true] at hbalanced
      exact iff_of_true hbalanced.ids_eq rfl
    | false =>
      rw [hkept, TeamManager.balanced_false] at hbalanced
      exact iff_of_false hbalanced.lost.ne (by simp)
  · obtain ⟨hlive, hbalanced⟩ := TeamOp.balanced_step hI.1 hI.2 hstep
    rw [hC, TeamManager.balanced_true] at hbalanced
    exact ⟨hbalanced, hlive⟩
  · refine ⟨⟨fun t team hteam => by simp [Server.initial] at hteam, rfl, ?_, List.not_mem_nil, rfl,
      fun hmem => nomatch hmem⟩, ?_⟩
    · exact ⟨le_rfl, show (0 : ℤ) ≤ 255 by omega⟩
    · exact Nat.zero_le 255

/-- A server whose database refuses to insert. -/
def Demo.refusing : Server :=
  { Demo.initial with database := { Demo.initial.database with faults := [.error (ascii "not master")] } }

/-- The team cannot be inserted, and the id that was drawn for it is gone. -/
theorem refused_team_leaks_id :
    ¬∀ ops, AllSteps TeamOp.step (fun _ _ t => t.teams.ids = 255) Demo.initial ops := by
  intro hall
  refine not_allSteps (T := fun _ _ (t : Server) => t.teams.ids = 255)
    [TeamOp.meanwhile Demo.refusing] (.add OID.unset (ascii "other") 3)
    (fun _ t => decide (t.teams.ids = 255)) (fun _ t h => decide_eq_true h) (by decide +kernel)
    (hall _)

end FreshCity
