import FreshCity.Saving
import FreshCity.TeamMembership

/-!
# The in-game numbers of teams

Every team draws a number from the manager's allocator, which gives back what was
returned before it counts on. The numbers in use and the returned ones stay
different, but the last number the allocator counts to is that of no team, and
after it the allocator only answers 0.
-/
namespace FreshCity
open Imperative Prog Run

/-! ## The allocator -/

namespace IdentifierAllocator
variable {a : IdentifierAllocator} {live live' : List ℤ} {id : ℤ}

/-- How many numbers there are to give that belong to a team. -/
def room (a : IdentifierAllocator) : ℕ := a.returned.length + (noTeam - 1 - a.count).toNat

/-- The numbers in use and the returned ones are different and lie below that of no team. -/
structure Issued (a : IdentifierAllocator) (live : List ℤ) : Prop where
  max : a.max = noTeam
  below : a.count < noTeam
  distinct : (live ++ a.returned).Nodup
  range : ∀ id ∈ live ++ a.returned, 1 ≤ id ∧ id ≤ a.count
  nonneg : 0 ≤ a.count

/-- Only which numbers are in use matters. -/
theorem Issued.perm (h : a.Issued live) (hp : live.Perm live') : a.Issued live' where
  max := h.max
  below := h.below
  distinct := (hp.append_right a.returned).nodup_iff.mp h.distinct
  range id hid := h.range id ((hp.append_right a.returned).mem_iff.mpr hid)
  nonneg := h.nonneg

/-- A number that is in use may be forgotten. -/
theorem Issued.forget (h : a.Issued (id :: live)) : a.Issued live where
  max := h.max
  below := h.below
  distinct := (List.nodup_cons.mp h.distinct).2
  range id hid := h.range id (List.mem_cons_of_mem _ hid)
  nonneg := h.nonneg

/-- A number that is returned is no longer in use. -/
theorem Issued.return_ (h : a.Issued (id :: live)) : (a.return_ id).Issued live where
  max := h.max
  below := h.below
  distinct := List.perm_middle.symm.nodup_iff.mp h.distinct
  range i hi := h.range i (List.perm_middle.mem_iff.mp hi)
  nonneg := h.nonneg

@[simp] theorem room_return : (a.return_ id).room = a.room + 1 := by
  simp only [room, IdentifierAllocator.return_, List.length_cons]
  omega

/-- While there is room, the number that is drawn is a new one. -/
theorem Issued.get (h : a.Issued live) (hroom : 0 < a.room) : a.get.2.Issued (a.get.1 :: live) := by
  have hmax : a.max = 255 := h.max
  have hbelow : a.count < 255 := h.below
  have hnonneg := h.nonneg
  cases hr : a.returned with
  | cons id ids =>
    have hget : a.get = (id, { a with returned := ids }) := by simp [IdentifierAllocator.get, hr]
    have hperm : (live ++ a.returned).Perm (id :: live ++ ids) := hr ▸ List.perm_middle
    rw [hget]
    exact ⟨h.max, h.below, hperm.nodup_iff.mp h.distinct,
      fun i hi => h.range i (hperm.mem_iff.mpr hi), h.nonneg⟩
  | nil =>
    have hcount : a.count < 254 := by
      simp only [room, hr, List.length_nil, noTeam] at hroom
      omega
    have hget : a.get = (a.count + 1, { a with count := a.count + 1 }) := by
      simp [IdentifierAllocator.get, hr, show a.count ≠ a.max by omega]
    have hrange : ∀ i ∈ live, 1 ≤ i ∧ i ≤ a.count := fun i hi => h.range i (by simp [hi])
    have hnodup : live.Nodup := by simpa [hr] using h.distinct
    rw [hget]
    refine ⟨h.max, show a.count + 1 < 255 by omega, ?_, fun i hi => ?_, show 0 ≤ a.count + 1 by omega⟩
    · simp only [hr, List.append_nil]
      refine List.nodup_cons.mpr ⟨fun hmem => ?_, hnodup⟩
      have hle := (hrange _ hmem).2
      omega
    · simp only [hr, List.append_nil, List.mem_cons] at hi
      change 1 ≤ i ∧ i ≤ a.count + 1
      rcases hi with rfl | hi
      · omega
      · have hle := hrange i hi
        omega

theorem Issued.room_get (h : a.Issued live) (hroom : 0 < a.room) : a.get.2.room + 1 = a.room := by
  have hmax : a.max = 255 := h.max
  cases hr : a.returned with
  | cons id ids =>
    simp only [IdentifierAllocator.get, room, hr, List.length_cons]
    omega
  | nil =>
    have hcount : a.count < 254 := by
      simp only [room, hr, List.length_nil, noTeam] at hroom
      omega
    have hne : a.count ≠ a.max := by omega
    simp only [IdentifierAllocator.get, room, hr, if_neg hne, List.length_nil, noTeam]
    omega

end IdentifierAllocator

/-! ## The manager -/

namespace TeamManager
variable {m : TeamManager} {id : ℤ} {t : OID}

/-- The numbers of the registered teams. -/
def numbers (m : TeamManager) : List ℤ := m.members.values.map (·.ingameteamid)

/-- Teams are kept under their own ids, and a list of numbers is in use besides theirs. -/
structure Reserves (m : TeamManager) (ids : List ℤ) : Prop where
  keyed : ∀ t team, m.members.lookup t = some team → team.item.uniqueid = t
  issued : m.idgen.Issued (ids ++ m.numbers)

theorem Reserves.forget (h : m.Reserves [id]) : m.Reserves [] := ⟨h.keyed, h.issued.forget⟩

theorem Reserves.draw (h : m.Reserves []) (hroom : 0 < m.idgen.room) :
    ({ m with idgen := m.idgen.get.2 } : TeamManager).Reserves [m.idgen.get.1] :=
  ⟨h.keyed, h.issued.get hroom⟩

/-- A number that was drawn goes to a new team. -/
theorem Reserves.insert {team : Team} (h : m.Reserves [team.ingameteamid])
    (hnew : team.item.uniqueid ∉ m.members) :
    ({ m with members := m.members.insert team.item.uniqueid team } : TeamManager).Reserves [] := by
  refine ⟨fun t u hu => ?_, ?_⟩
  · simp only [Map.lookup_insert_ite] at hu
    split at hu
    · obtain rfl := Option.some.inj hu
      exact ‹t = _›.symm
    · exact h.keyed t u hu
  · have hnumbers : ({ m with members := m.members.insert team.item.uniqueid team } :
        TeamManager).numbers = team.ingameteamid :: m.numbers := by
      rw [numbers, Map.values_insert team hnew]
      rfl
    rw [hnumbers]
    exact h.issued

/-- The number of a team that goes is returned. -/
theorem Reserves.erase {team : Team} (h : m.Reserves []) (hteam : m.members.lookup t = some team) :
    ({ members := m.members.erase t, idgen := m.idgen.return_ team.ingameteamid } :
      TeamManager).Reserves [] := by
  refine ⟨fun u team' h' => ?_, ?_⟩
  · simp only [Map.lookup_erase_ite] at h'
    split at h'
    · cases h'
    · exact h.keyed u team' h'
  · have hperm : m.numbers.Perm (team.ingameteamid :: (Map.values (m.members.erase t)).map
        (·.ingameteamid)) := (Map.values_perm_erase hteam).map _
    exact (h.issued.perm hperm).return_

end TeamManager

namespace Server

/-- Every registered team has a number of its own from 1 to 254. -/
structure TeamsNumbered (s : Server) : Prop where
  range : ∀ t team, s.teams.members.lookup t = some team →
    1 ≤ team.ingameteamid ∧ team.ingameteamid ≤ 254
  distinct : ∀ t u team team', s.teams.members.lookup t = some team →
    s.teams.members.lookup u = some team' → team.ingameteamid = team'.ingameteamid → t = u

theorem teamsNumbered {s : Server} (h : s.teams.Reserves []) : s.TeamsNumbered where
  range t team hteam := by
    have hmem : team.ingameteamid ∈ s.teams.numbers :=
      List.mem_map_of_mem (Map.mem_values_of_lookup hteam)
    have hrange := h.issued.range _ (List.mem_append_left _ hmem)
    have hbelow : s.teams.idgen.count < 255 := h.issued.below
    omega
  distinct t u team team' ht hu heq := by
    have hnodup : s.teams.numbers.Nodup := (List.nodup_append.mp h.issued.distinct).1
    simp only [TeamManager.numbers, Map.values, List.map_map] at hnodup
    have hentry := List.inj_on_of_nodup_map hnodup (AList.mem_lookup_iff.mp ht)
      (AList.mem_lookup_iff.mp hu) heq
    exact congrArg Sigma.fst hentry

end Server

/-! ## Adding, removing and reloading -/

namespace TeamManager

/-- A document `Team::__LoadData` can read. -/
def loads (doc : Document) : Bool :=
  (documentId doc).isSome && ((doc.field? .name).bind Bson.asString).isSome &&
    (readInt (doc.field? .color)).isSome && ((doc.field? .leader).bind Bson.asOid).isSome

/-- How many of the documents a reload gets to, and draws a number for. -/
def reached : List Document → List Fault → ℕ
  | [], _ => 0
  | doc :: docs, faults =>
    if (faults.headD .none).isThrow then 0
    else if loads doc then reached docs faults.tail + 1
    else 1

/-- How many numbers a reload of the teams draws. -/
def drawn (config : Config) (db : Database) : ℕ :=
  if config.collection .team && !db.fault.isThrow then reached (db.docs .team) db.next.faults else 0

section Programs
variable {s : Server} {id : ℤ} {t : OID}

theorem wp_ofData {doc : Document} : wp (Team.ofData doc id)
    (fun team u => u = s ∧ team.ingameteamid = id ∧ loads doc = true ∧
      documentId doc = some team.item.uniqueid)
    (fun _ u => u = s ∧ (s.config.collection .team = true → loads doc = false)) s := by
  have hstay : Stays [] (Team.ofData doc id) := inferInstance
  have hteam : wp (Team.ofData doc id) (fun team _ => team.ingameteamid = id ∧ loads doc = true ∧
      documentId doc = some team.item.uniqueid)
      (fun _ _ => s.config.collection .team = true → loads doc = false) s := by
    simp only [Team.ofData, SaveableItem.unsaved, configCollection, wp_bind, wp_gets, wp_raiseIf,
      wp_pure]
    split
    case isTrue hunknown =>
      intro hknown
      simp [hknown] at hunknown
    case isFalse hknown =>
      simp only [SaveableItem.initData, Team.loadData, check, wp_bind, wp_withLocal, wp_self,
        wp_raiseIf, wp_assign, wp_orRaise, wp_map, wp_shared, wp_gets, loads]
      simp +contextual [SaveableItem.isEmpty]
  exact wp_mono (wp_and (hstay.unchanged s) hteam) (fun _ _ h => h) (fun _ _ h => h)

/-- A team whose number was drawn for it is added, or its number is forgotten. -/
theorem wp_addMember {team : Team} {E : Exn → Server → Prop}
    (h : s.teams.Reserves [team.ingameteamid]) :
    wp (addMember team) (fun _ u => u.teams.Reserves [] ∧ u.teams.idgen = s.teams.idgen ∧
      u.database = s.database) E s := by
  simp only [addMember, wp_bind, wp_gets, wp_ite, wp_pure, wp_modify, id_eq]
  split
  · exact ⟨h.forget, trivial, trivial⟩
  · exact ⟨h.insert ‹_›, trivial, trivial⟩

/-- `TeamManager::Add`, while there is a number to give. -/
theorem wp_add {leader : OID} {name : Text} {color : ℤ} (h : s.teams.Reserves [])
    (hroom : 0 < s.teams.idgen.room) : wp (add leader name color)
      (fun _ u => u.teams.Reserves []) (fun _ u => u.teams.Reserves []) s := by
  simp only [add, getId, wp_bind, wp_gets, wp_modify, wp_pure]
  have hdrawn := h.draw hroom
  have hstay : Stays [.counters, .output, .database, .insert .team]
      (Team.create leader name color s.teams.idgen.get.1) := inferInstance
  have hid : ∀ u, wp (Team.create leader name color s.teams.idgen.get.1)
      (fun team _ => team.ingameteamid = s.teams.idgen.get.1) (fun _ _ => True) u := fun u =>
    wp_last fun _ _ => wp_last fun _ _ => wp_last fun _ _ => wp_last fun _ _ => by simp
  refine wp_mono (wp_and (wp_teams_eq hstay (by simp [Kind.writesTeams])) (hid _))
    (fun team u hu => ?_) (fun _ u hu => ?_)
  · refine wp_mono (wp_addMember (E := fun _ _ => False) ?_) (fun _ _ hv => hv.1)
      (fun _ _ hf => hf.elim)
    rw [hu.1, hu.2]
    exact hdrawn
  · rw [hu.1]
    exact hdrawn.forget

/-- `TeamManager::Remove` of a registered team. -/
theorem wp_remove (h : s.teams.Reserves []) :
    wp (remove t) (fun _ u => u.teams.Reserves []) (fun _ u => u.teams.Reserves []) s := by
  simp only [remove, Team.ref, returnId, wp_bind, wp_gets, wp_orUndefined, wp_ite, wp_modify,
    wp_pure, id_eq]
  intro team hteam
  rw [h.keyed t team hteam]
  split
  · exact h.erase hteam
  · exact h

/-- The body of a reload, run over the documents. There is room for those it gets to. -/
theorem wp_loadDocs (docs : List Document) (h : s.teams.Reserves [])
    (hroom : reached docs s.database.faults ≤ s.teams.idgen.room) :
    wp (forEach (fun doc => do
        let _ ← nextFault
        let id ← getId
        let team ← Team.ofData doc id
        let _ ← addMember team
        pure ()) docs)
      (fun _ u => u.teams.Reserves []) (fun _ u => u.teams.Reserves []) s := by
  induction docs generalizing s with
  | nil => exact h
  | cons doc docs ih =>
    simp only [forEach, getId, wp_bind, wp_nextFault, wp_gets, wp_modify, wp_pure]
    refine ⟨fun _ _ => h, fun hthrow => ?_⟩
    have hthrow' : (s.database.faults.headD .none).isThrow = false := hthrow
    have hpos : 0 < s.teams.idgen.room := by
      refine Nat.lt_of_lt_of_le ?_ hroom
      simp only [reached, hthrow', Bool.false_eq_true, if_false]
      split <;> omega
    have hdrawn := h.draw hpos
    refine wp_mono wp_ofData (fun team u hu => ?_) (fun _ u hu => ?_)
    · obtain ⟨rfl, hid, hloads, -⟩ := hu
      rw [wp_bind]
      refine wp_mono (wp_addMember (E := fun _ _ => False) (by rw [hid]; exact hdrawn))
        (fun _ v hv => ih hv.1 ?_) (fun _ _ hf => hf.elim)
      obtain ⟨-, hidgen, hdatabase⟩ := hv
      have hdraw := h.issued.room_get hpos
      have hreached := hroom
      simp only [reached, hthrow', hloads, Bool.false_eq_true, if_false, if_true] at hreached
      rw [hidgen, hdatabase]
      change reached docs s.database.faults.tail ≤ s.teams.idgen.get.2.room
      omega
    · rw [hu.1]
      exact hdrawn.forget

/-- Returning the numbers of all teams makes room for as many. -/
theorem wp_returnAll (teams : List Team) (h : s.teams.idgen.Issued (teams.map (·.ingameteamid))) :
    wp (forEach (fun team => returnId team.ingameteamid) teams)
      (fun _ u => u.teams.idgen.Issued [] ∧
        u.teams.idgen.room = s.teams.idgen.room + teams.length ∧
        u.config = s.config ∧ u.database = s.database) (fun _ _ => False) s := by
  induction teams generalizing s with
  | nil => exact ⟨h, rfl, rfl, rfl⟩
  | cons team teams ih =>
    simp only [forEach, wp_bind, returnId, wp_modify]
    refine wp_mono (ih h.return_) (fun _ u hu => ?_) (fun _ _ hf => hf)
    refine ⟨hu.1, ?_, hu.2.2⟩
    rw [hu.2.1, IdentifierAllocator.room_return, List.length_cons]
    omega

/-- `TeamManager::LoadAllFromDatabase`, while there are enough numbers to give. -/
theorem wp_loadAllFromDatabase (h : s.teams.Reserves [])
    (hroom : drawn s.config s.database ≤ s.teams.idgen.room + s.teams.members.values.length) :
    wp loadAllFromDatabase (fun _ u => u.teams.Reserves []) (fun _ u => u.teams.Reserves []) s := by
  simp only [loadAllFromDatabase, emit, clear, fetchAllFromDatabase, configCollection, wp_bind,
    wp_modify, wp_gets]
  refine wp_mono (wp_returnAll s.teams.members.values h.issued) (fun _ u hu => ?_)
    (fun _ _ hf => hf.elim)
  obtain ⟨hissued, hmore, hconfig, hdatabase⟩ := hu
  have hempty : ({ u.teams with members := ∅ } : TeamManager).Reserves [] :=
    ⟨fun t team hteam => by simp at hteam, hissued⟩
  simp only [wp_bind, wp_modify, wp_gets, wp_raiseIf]
  split
  · exact hempty
  · rename_i hcollection
    rw [wp_issue]
    refine ⟨fun _ _ => hempty, fun hfault => wp_loadDocs _ hempty ?_⟩
    change reached (u.database.docs .team) u.database.next.faults ≤ u.teams.idgen.room
    have hfault' : u.database.fault.isThrow = false := hfault
    have hknown : s.config.collection .team = true := by simpa [hconfig] using hcollection
    rw [hmore]
    rw [hdatabase] at hfault' ⊢
    simpa [drawn, hknown, hfault'] using hroom

end Programs
end TeamManager

/-! ## Events -/

/-- There are enough numbers for the teams the event adds or reloads. -/
def Event.hasNumbers (s : Server) (i : Event × Env) : Bool :=
  match i.1 with
  | .teamAdd _ _ _ => decide (0 < s.teams.idgen.room)
  | e => !e.reloadsTeams s || decide (TeamManager.drawn s.config (s.begin i.2).database ≤
      s.teams.idgen.room + s.teams.members.values.length)

section Events
open TeamManager
variable {s t : Server} {e : Event} {env : Env}

/-- The kinds that leave the numbers of the teams alone. -/
def Kind.keepsNumbers : Kind → Bool
  | teamRoster => true
  | k => !k.writesTeams

theorem Kind.reserves {k : Kind} (h : k.change s t) (hk : k.keepsNumbers = true)
    (hs : s.teams.Reserves []) : t.teams.Reserves [] := by
  by_cases hroster : k = .teamRoster
  · subst hroster
    obtain ⟨o, g, rfl⟩ := h
    refine ⟨fun u team hu => ?_, ?_⟩
    · simp only [Map.lookup_adjust] at hu
      split at hu
      · obtain ⟨old, hold, rfl⟩ := Option.map_eq_some_iff.mp hu
        exact (hs.keyed o old hold).trans (Eq.symm ‹u = o›)
      · exact hs.keyed u team hu
    · have hnumbers : ({ s.teams with members := s.teams.members.adjust o fun team =>
          { team with onlineplayers := g team } } : TeamManager).numbers = s.teams.numbers :=
        Map.map_values_adjust (f := fun team : Team => { team with onlineplayers := g team })
          (g := Team.ingameteamid) (fun _ => rfl) s.teams.members o
      rw [hnumbers]
      exact hs.issued
  · rw [(frame h).teams]
    · exact hs
    · revert hk
      cases k <;> simp_all [keepsNumbers]

theorem reserves_of_stays {α : Type} {K : List Kind} {x : Game α} (hx : Stays K x)
    (hK : ∀ k ∈ K, k.keepsNumbers = true) (hs : s.teams.Reserves []) :
    wp x (fun _ u => u.teams.Reserves []) (fun _ u => u.teams.Reserves []) s :=
  hx.invariant (fun k hk _ _ h => Kind.reserves h (hK k hk)) hs

/-- The kinds of change `OnGameModeInit` makes after it loaded the teams. -/
abbrev loadKinds : List Kind :=
  [.output, .sampZones, .streamer, .database, .counters, .insertProfile (-1), .zones, .areas,
    .pickups, .properties, .destroyTimer, .createTimer .nothing, .reload .gangzone,
    .reload .property]

set_option synthInstance.maxSize 3000 in
/-- `OnGameModeInit` loads the teams first, and does not touch them after that. -/
theorem wp_loadGameMode_reserves (hs : s.teams.Reserves [])
    (hroom : drawn s.config s.database ≤ s.teams.idgen.room + s.teams.members.values.length) :
    wp loadGameMode (fun _ u => u.teams.Reserves []) (fun _ u => u.teams.Reserves []) s := by
  have hweather : Stays loadKinds (createTimer .changeWeather 300000 true) :=
    stays_createTimer .nothing rfl
  have htime : Stays loadKinds (createTimer .changeTime 60000 true) := stays_createTimer .nothing rfl
  rw [loadGameMode, wp_bind]
  refine wp_mono (wp_loadAllFromDatabase hs hroom) (fun _ u hu => ?_) (fun _ _ hu => hu)
  exact reserves_of_stays (K := loadKinds) inferInstance
    (by simp [loadKinds, Kind.keepsNumbers, Kind.writesTeams]) hu

/-- A step for which there are enough numbers keeps them apart. -/
theorem reserves_step (h : s.step (e, env) = some t) (hC : Event.hasNumbers s (e, env) = true)
    (hs : s.teams.Reserves []) : t.teams.Reserves [] := by
  have hbegin : (s.begin env).teams.Reserves [] := hs
  cases e
  case gameModeInit =>
    have hroom : drawn s.config (s.begin env).database ≤
        s.teams.idgen.room + s.teams.members.values.length := by
      simpa [Event.hasNumbers, Event.reloadsTeams] using hC
    refine Server.of_step (P := fun u => u.teams.Reserves []) h ?_
    refine wp_gameModeInit (I := fun u => u.teams = s.teams ∧ u.config = s.config ∧
      u.database = (s.begin env).database) (fun a b hab ha => ?_) ⟨rfl, rfl, rfl⟩ fun u hu => ?_
    · have hframe := Kind.frame hab
      exact ⟨(hframe.teams rfl).trans ha.1, (hframe.config (by simp)).trans ha.2.1,
        (hframe.database (by simp)).trans ha.2.2⟩
    · obtain ⟨hteams, hconfig, hdatabase⟩ := hu
      exact wp_loadGameMode_reserves (hteams ▸ hs) (by rw [hteams, hconfig, hdatabase]; exact hroom)
  case dialogResponse p dialogid response listitem inputtext =>
    refine Server.of_step (P := fun u => u.teams.Reserves []) h ?_
    refine wp_dialogResponse (fun _ _ hab => Kind.reserves hab rfl) hbegin
      fun pr d hpr hd hresponse => ?_
    have hstay := Dialog.stays_callback p listitem inputtext d
    by_cases hitem : d = .serverMain ∧ listitem = 0
    · obtain ⟨rfl, rfl⟩ := hitem
      have hmem : p ∈ s.profiles := Map.mem_iff_lookup.mpr ⟨pr, hpr⟩
      have hresponse : response = 1 := by simpa [Dialog.mustResponse] using hresponse
      have hroom : drawn s.config (s.begin env).database ≤
          s.teams.idgen.room + s.teams.members.values.length := by
        simpa [Event.hasNumbers, Event.reloadsTeams, hd, hmem, hresponse] using hC
      exact wp_loadAllFromDatabase hbegin hroom
    · by_cases hmain : d = .serverMain
      · subst hmain
        have hitem' : listitem ≠ 0 := by simpa using hitem
        have hother := stays_serverMain_other hitem'
        exact reserves_of_stays hother (by simp [Kind.keepsNumbers, Kind.writesTeams]) hbegin
      · refine reserves_of_stays hstay ?_ hbegin
        revert hmain
        cases d <;> simp [Dialog.footprint, Kind.keepsNumbers, Kind.writesTeams]
  case teamAdd leader name color =>
    refine Server.of_step (P := fun u => u.teams.Reserves []) h ?_
    simp only [Event.run, discard, wp_bind]
    have hroom : 0 < s.teams.idgen.room := by simpa [Event.hasNumbers] using hC
    exact wp_add hbegin hroom
  case teamRemove o =>
    refine Server.of_step (P := fun u => u.teams.Reserves []) h ?_
    simp only [Event.run, discard, wp_bind]
    exact wp_remove hbegin
  case playerCommandText p cmdtext =>
    refine Server.step_invariant h (fun k hk a b hab => Kind.reserves hab ?_) hbegin
    revert k
    simp [Event.footprint, CommandId.all, Command.footprint, Kind.keepsNumbers, Kind.writesTeams]
  all_goals
    exact Server.step_invariant h (fun k hk _ _ hab => Kind.reserves hab
      (by revert k; simp [Event.footprint, Kind.keepsNumbers, Kind.writesTeams])) hbegin

end Events

/-! ## Runs -/

/-- In every run whose steps find enough numbers, the registered teams are told apart by theirs. -/
theorem team_numbers_apart (platform : Platform) (config : Config)
    (docs : Collection → List Document) (is : List (Event × Env))
    (h : Meets Server.step (fun s i => Event.hasNumbers s i = true)
      (Server.initial platform config docs) is) :
    AllSteps Server.step (fun _ _ t => t.TeamsNumbered) (Server.initial platform config docs)
      is := by
  refine AllSteps.of_invariant (I := fun s => s.teams.Reserves []) (fun s i t hI hstep hC => ?_) ?_ h
  · have hreserves : t.teams.Reserves [] := reserves_step hstep hC hI
    exact ⟨t.teamsNumbered hreserves, hreserves⟩
  · exact ⟨fun t team hteam => by simp [Server.initial] at hteam,
      ⟨rfl, show (0 : ℤ) < 255 by omega, List.nodup_nil, fun id hid => (nomatch hid), le_rfl⟩⟩

/-- The two teams are loaded, one is added, all are reloaded and one is removed. -/
theorem team_numbers_apart_three :
    AllSteps Server.step (fun _ _ t => t.TeamsNumbered) Demo.initial
      (Demo.quietly [.gameModeInit, .playerConnect 0, .teamAdd OID.unset (ascii "other") 3,
        Demo.reloadTeams 0, .teamRemove Demo.team]) :=
  team_numbers_apart _ _ _ _ (meets_of_check (b := Event.hasNumbers) (fun _ _ h => h)
    (by decide +kernel))

/-- Adding a team while the database refuses to insert anything. -/
def refusedAdd : Event × Env :=
  (.teamAdd OID.unset (ascii "other") 3, { faults := [.error (ascii "not master")] })

/-- Every team that could not be inserted costs a number, and the next one is that of no team. -/
theorem refused_adds_use_up_numbers :
    ¬∀ is, AllSteps Server.step (fun _ _ t => t.TeamsNumbered) Demo.initial is := by
  intro hall
  refine not_allSteps (T := fun _ _ t => Server.TeamsNumbered t) (List.replicate 254 refusedAdd)
    (.teamAdd OID.unset (ascii "other") 3, Demo.env)
    (fun _ t => t.teams.members.values.all fun team => decide (team.ingameteamid ≤ 254))
    (fun _ t h => ?_) (by decide +kernel) (hall _)
  refine List.all_eq_true.mpr fun team hmem => ?_
  obtain ⟨⟨o, _⟩, hentry, rfl⟩ := List.mem_map.mp hmem
  exact decide_eq_true (h.range o _ (AList.mem_lookup_iff.mpr hentry)).2

end FreshCity
