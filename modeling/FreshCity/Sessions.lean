import FreshCity.Imperative.Run
import FreshCity.Saving
import FreshCity.Views

/-!
# Sessions

The profile under a player id is the one its `OnPlayerConnect` constructed as long
as no earlier `OnPlayerDisconnect` of that id gave up before it removed its own.
-/
namespace FreshCity
open Imperative Prog Run

/-! ## Which players are there -/

/-- Which player ids are connected. -/
abbrev Occupancy : Type := ℤ → Bool

namespace Event

/-- The connected players after an event. -/
def occupy : Event → Occupancy → Occupancy
  | playerConnect p, c => Function.update c p true
  | playerDisconnect p _, c => Function.update c p false
  | _, c => c

/-- SA-MP gives a new player an id that is not in use, and calls back about no one
who is not there. -/
def possible (c : Occupancy) : Event → Bool
  | playerConnect p => decide (0 ≤ p) && !c p
  | e => e.player.all c

end Event

namespace Server

/-- Steps, with the players who are connected. -/
def occupied : Server × Occupancy → Event × Env → Option (Server × Occupancy) :=
  watch step fun _ c i _ => i.1.occupy c

end Server

/-- SA-MP can make the call. -/
def possibleAt (w : Server × Occupancy) (i : Event × Env) : Bool := i.1.possible w.2

/-! ## Connecting -/

/-- The server when `OnPlayerConnect` constructs a profile. -/
def Server.connecting (s : Server) (env : Env) (p : ℤ) : Server :=
  { s.begin env with trace := [.message p .welcome, .native (.streamerOnPlayerConnect p)] }

/-- The profile under an id is the one this call constructed from the player's name. -/
def ConstructedNow (s : Server) (env : Env) (p : ℤ) (t : Server) : Prop :=
  ∃ new u pr, Profile.construct (env.name p) (s.connecting env p) = .ok new u ∧
    t.profiles.lookup p = some pr ∧ pr.item = new.item ∧ pr.addr = new.addr

section Connect
variable {s : Server} {p : ℤ}

theorem construct_profiles {name : Text} {pr : Profile} {u : Server}
    (h : Profile.construct name s = .ok pr u) : u.profiles = s.profiles := by
  have hstay : Stays [.output, .database, .counters] (Profile.construct name) := inferInstance
  have hpath := hstay.path s
  rw [wp_of_ok h] at hpath
  refine hpath.view_eq fun k hk a b hab => (Kind.frame hab).profiles ?_
  simp only [List.mem_cons, List.not_mem_nil, or_false] at hk
  rcases hk with rfl | rfl | rfl <;> rfl

/-- Where there was no profile, `ProfileMgr.Add` leaves the one it constructs. -/
theorem wp_profileMgrAdd_new (hp : p ∉ s.profiles) :
    wp (profileMgrAdd p) (fun _ t => ∃ new u, Profile.construct (s.env.name p) s = .ok new u ∧
      t.profiles.lookup p = some new) (fun _ _ => True) s := by
  simp only [profileMgrAdd, wp_bind, wp_gets]
  cases hc : Profile.construct (s.env.name p) s with
  | ok new u =>
    have hu : p ∉ u.profiles := by rwa [construct_profiles hc]
    rw [wp_of_ok hc]
    simp [hu]
  | error e u => rw [wp_of_error hc]; trivial
  | undefined => exact wp_of_undefined hc

/-- The profile under an id keeps its object and its document. -/
def Holds (p : ℤ) (new : Profile) (t : Server) : Prop :=
  ∃ pr, t.profiles.lookup p = some pr ∧ pr.item = new.item ∧ pr.addr = new.addr

theorem Kind.holds {k : Kind} {s t : Server} {new : Profile} (h : k.change s t)
    (hitem : k ≠ .profileItem) (herase : k ≠ .eraseProfile p) (hs : Holds p new s) :
    Holds p new t := by
  obtain ⟨pr, hpr, hi, ha⟩ := hs
  obtain ⟨pr', hpr', hev⟩ := Kind.evolves h herase hpr
  exact ⟨pr', hpr', (hev.item hitem).trans hi, hev.addr.trans ha⟩

/-- The kinds of change that starting a session makes. -/
def startKinds (p : ℤ) : List Kind :=
  [.output, .samp, .sampTeam p, .profileSignIn, .profileGame, .createTimer .profile]

theorem wp_startSession {new : Profile} (hs : Holds p new s) :
    wp (startSession p) (fun _ => Holds p new) (fun _ => Holds p new) s := by
  have hstay : Stays (startKinds p) (startSession p) := by unfold startKinds; infer_instance
  refine hstay.invariant (fun k hk a b hab => Kind.holds hab ?_ ?_) hs
  · rintro rfl; simp [startKinds] at hk
  · rintro rfl; simp [startKinds] at hk

/-- A connection that finds no profile under its id constructs one. -/
theorem constructedNow_of_connect {env : Env} {t : Server} (hp : p ∉ s.profiles)
    (ht : onPlayerConnect p (s.begin env) = .ok true t) : ConstructedNow s env p t := by
  have hbody : wp (connectPlayer p) (fun _ => ConstructedNow s env p) (fun _ _ => True)
      (s.begin env) := by
    have hadd : wp (profileMgrAdd p) (fun _ u => ∃ new v,
        Profile.construct (env.name p) (s.connecting env p) = .ok new v ∧
        u.profiles.lookup p = some new) (fun _ _ => True) (s.connecting env p) :=
      wp_profileMgrAdd_new (s := s.connecting env p) hp
    change wp (do let _ ← profileMgrAdd p; startSession p) _ _ (s.connecting env p)
    rw [wp_bind]
    refine wp_mono hadd (fun _ u hu => ?_) (fun _ _ _ => trivial)
    obtain ⟨new, v, hnew, hlookup⟩ := hu
    refine wp_mono (wp_startSession ⟨new, hlookup, rfl, rfl⟩) (fun _ w hw => ?_) (fun _ _ _ => trivial)
    obtain ⟨pr, hpr, hi, ha⟩ := hw
    exact ⟨new, v, pr, hnew, hpr, hi, ha⟩
  have hwp : wp (onPlayerConnect p) (fun b u => b = true → ConstructedNow s env p u)
      (fun _ _ => True) (s.begin env) := by
    simp only [onPlayerConnect, wp_handle, wp_bind, sendClientMessage, emit]
    exact wp_mono hbody (fun _ _ h _ => h) (fun _ _ _ h => by cases h)
  rw [wp_of_ok ht] at hwp
  exact hwp rfl

end Connect
/-! ## Leaving -/

/-- `OnPlayerDisconnect` gets as far as removing the profile: the profile can be saved if
it has to be, and the team it names exists and lists the player. -/
def canLeave (s : Server) (env : Env) (p reason : ℤ) : Bool :=
  (s.profiles.lookup p).all fun pr =>
    (decide (reason = 0) || !pr.auth.signedin || Profile.canSync (s.begin env) p pr) &&
    (!pr.team.isSet || (s.teams.members.lookup pr.team).any fun team => team.inGame p)

section Leave
variable {s : Server} {p reason : ℤ}

theorem wp_profileMgrRemove :
    wp (profileMgrRemove p) (fun _ t => p ∉ t.profiles) (fun _ t => p ∉ t.profiles) s := by
  simp only [profileMgrRemove, wp_bind, wp_gets, wp_modify]
  have hstay : Stays [.output, .destroyTimer, .streamer]
      (forEach Profile.destruct (s.profiles.lookup p).toList) := inferInstance
  refine hstay.invariant (I := fun t => p ∉ t.profiles) (fun k hk a b hab ha hb => ha ?_) ?_
  · refine Kind.mem_profiles hab ?_ hb
    rintro rfl
    simp at hk
  · simp

/-- The team of a profile, and the teams there are. -/
def InTeam (p : ℤ) (team : OID) (teams : TeamManager) (t : Server) : Prop :=
  (∃ pr, t.profiles.lookup p = some pr ∧ pr.team = team) ∧ t.teams = teams

theorem Kind.inTeam {k : Kind} {s t : Server} {team : OID} {teams : TeamManager}
    (h : k.change s t) (herase : k ≠ .eraseProfile p) (hteam : k ≠ .profileTeam)
    (hteams : k.writesTeams = false) (hs : InTeam p team teams s) : InTeam p team teams t := by
  obtain ⟨⟨pr, hpr, hpt⟩, hst⟩ := hs
  obtain ⟨pr', hpr', hev⟩ := Kind.evolves h herase hpr
  exact ⟨⟨pr', hpr', (hev.team hteam).trans hpt⟩, ((Kind.frame h).teams hteams).trans hst⟩

/-- A save that succeeds leaves the teams as they are. -/
theorem wp_sync_inTeam {pr : Profile} (hpr : s.profiles.lookup p = some pr)
    (hsync : Profile.canSync s p pr = true) :
    wp (Profile.sync p) (fun _ => InTeam p pr.team s.teams) (fun _ _ => False) s := by
  have hreturns : wp (Profile.sync p) (fun _ _ => True) (fun _ _ => False) s := by
    refine Profile.wp_sync.mpr fun pr' hpr' => ?_
    obtain rfl : pr = pr' := Option.some.inj (hpr.symm.trans hpr')
    exact hsync
  have hstay : Stays [.output, .database, .profileItem, .profileLoaded, .update .profile]
      (Profile.sync p) := inferInstance
  have hkeep := hstay.invariant (I := InTeam p pr.team s.teams)
    (fun k hk a b hab => Kind.inTeam hab (by rintro rfl; simp at hk) (by rintro rfl; simp at hk)
      (by revert k; simp [Kind.writesTeams])) ⟨⟨pr, hpr, rfl⟩, rfl⟩
  exact wp_mono (wp_and hreturns hkeep) (fun _ _ h => h.2) (fun _ _ h => h.1)

theorem wp_leaveTeam {team : OID} {teams : TeamManager} (hs : InTeam p team teams s)
    (hteam : team.isSet = true → (teams.members.lookup team).any (·.inGame p) = true) :
    wp (leaveTeam p) (fun _ _ => True) (fun _ _ => False) s := by
  obtain ⟨⟨pr, hpr, rfl⟩, rfl⟩ := hs
  by_cases hset : pr.team.isSet = true
  · obtain ⟨tm, htm, hin⟩ := (Option.any_eq_true _ _).mp (hteam hset)
    simp [leaveTeam, Profile.ref, teamMgr, Team.ref, Team.quit, hpr, hset, htm, hin, setPlayerTeam,
      Profile.modifyTeam, Team.modifyTeam, sendClientMessage, emit]
  · simp [leaveTeam, Profile.ref, hpr, hset]

theorem wp_endSession {team : OID} {teams : TeamManager} (hs : InTeam p team teams s)
    (hteam : team.isSet = true → (teams.members.lookup team).any (·.inGame p) = true) :
    wp (endSession p) (fun _ t => p ∉ t.profiles) (fun _ t => p ∉ t.profiles) s := by
  simp only [endSession, native, sendClientMessageToAll, emit, wp_bind]
  exact wp_mono (wp_leaveTeam hs hteam) (fun _ _ _ => wp_profileMgrRemove) (fun _ _ hf => hf.elim)

/-- A disconnect that gets as far as removing the profile leaves none. -/
theorem notMem_of_disconnect {env : Env} {t : Server} (h : canLeave s env p reason = true)
    (ht : s.step (.playerDisconnect p reason, env) = some t) : p ∉ t.profiles := by
  refine Server.of_step (P := fun t => p ∉ t.profiles) ht (wp_playerDisconnect.mpr ?_)
  refine ⟨fun hnone => AList.lookup_eq_none.mp hnone, fun pr hpr => ?_⟩
  rw [wp_when]
  replace hpr : s.profiles.lookup p = some pr := hpr
  simp only [canLeave, hpr, Option.all_some, Bool.and_eq_true, Bool.or_eq_true, Bool.not_eq_true',
    decide_eq_true_eq] at h
  obtain ⟨hsave, hteam⟩ := h
  replace hteam : pr.team.isSet = true → (s.teams.members.lookup pr.team).any (·.inGame p) = true :=
    fun hset => hteam.resolve_left (by simp [hset])
  split
  case isTrue hc =>
    have hsync := hsave.resolve_left (by simp [hc.1, hc.2])
    exact wp_mono (wp_sync_inTeam hpr hsync) (fun _ u hu => wp_endSession hu hteam)
      (fun _ _ hf => hf.elim)
  case isFalse => exact wp_endSession ⟨⟨pr, hpr, rfl⟩, rfl⟩ hteam

end Leave

/-! ## Runs -/

/-- A connection that succeeds leaves its own profile. -/
def ConnectsNew (w : Server × Occupancy) (i : Event × Env) (u : Server × Occupancy) : Prop :=
  ∀ p, i.1 = .playerConnect p → (onPlayerConnect p (w.1.begin i.2)).value? = some true →
    ConstructedNow w.1 i.2 p u.1

/-- The inputs under which no profile is left behind. -/
def leavesNone (w : Server × Occupancy) (i : Event × Env) : Bool :=
  possibleAt w i && match i.1 with
    | .playerDisconnect p reason => canLeave w.1 i.2 p reason
    | _ => true

/-- Who has a profile is connected. -/
def NoneLeft (w : Server × Occupancy) : Prop := ∀ p, 0 ≤ p → p ∈ w.1.profiles → w.2 p = true

theorem noneLeft_step {w u : Server × Occupancy} {i : Event × Env} (hI : NoneLeft w)
    (hstep : Server.occupied w i = some u) (hC : leavesNone w i = true) : ConnectsNew w i u ∧ NoneLeft u := by
  obtain ⟨e, env⟩ := i
  obtain ⟨ht, hsee⟩ := watch_eq_some.mp hstep
  obtain ⟨hpossible, hleave⟩ := Bool.and_eq_true_iff.mp hC
  constructor
  · rintro p rfl hok
    simp only [possibleAt, Event.possible, Bool.and_eq_true, decide_eq_true_eq, Bool.not_eq_true'] at hpossible
    have hfree : p ∉ w.1.profiles := fun hmem => by simp [hI p hpossible.1 hmem] at hpossible
    cases hc : onPlayerConnect p (w.1.begin env) with
    | ok b t =>
      rw [hc] at hok
      obtain rfl : b = true := by simpa using hok
      have htu : t = u.1 := by
        simpa [Server.step, Event.run, discard, bind_apply, hc] using ht
      exact htu ▸ constructedNow_of_connect hfree hc
    | error e t => simp [hc] at hok
    | undefined => simp [hc] at hok
  · intro p hp hmem
    rw [← hsee]
    by_cases hconnect : e = .playerConnect p
    · subst hconnect
      simp [Event.occupy]
    · have hmem' := Server.step_mem_profiles ht hp hconnect hmem
      have hused := hI p hp hmem'
      cases e
      case playerConnect q => simp [Event.occupy, Function.update_apply, hused]
      case playerDisconnect q reason =>
        have hne : p ≠ q := fun heq => notMem_of_disconnect hleave ht (heq ▸ hmem)
        simp [Event.occupy, hne, hused]
      all_goals exact hused

/-- In every run in which no disconnect gives up before it removes its profile, a
connection that succeeds leaves the profile it constructed. -/
theorem connect_constructs_profile (platform : Platform) (config : Config)
    (docs : Collection → List Document) (is : List (Event × Env))
    (h : Meets Server.occupied (fun w i => leavesNone w i = true)
      (Server.initial platform config docs, fun _ => false) is) :
    AllSteps Server.occupied ConnectsNew (Server.initial platform config docs, fun _ => false) is :=
  AllSteps.of_invariant (fun _ _ _ hI hstep hC => noneLeft_step hI hstep hC)
    (fun _ _ hmem => absurd hmem (by simp [Server.initial])) h

/-- Two sessions under one id. -/
theorem connect_constructs_profile_twice :
    AllSteps Server.occupied ConnectsNew (Demo.initial, fun _ => false)
      (Demo.quietly [.gameModeInit, .playerConnect 0, Demo.chooseTeam 0, .playerDisconnect 0 1,
        .playerConnect 0]) :=
  connect_constructs_profile _ _ _ _
    (meets_of_check (b := leavesNone) (fun _ _ h => h) (by decide +kernel))

/-- A test for the profile of a player who connects to be new. -/
def isNew (env : Env) (p : ℤ) (s t : Server) : Bool :=
  decide ((onPlayerConnect p (s.begin env)).value? ≠ some true) ||
    match Profile.construct (env.name p) (s.connecting env p) with
    | .ok new _ => decide ((t.profiles.lookup p).map (·.addr) = some new.addr)
    | _ => false

theorem isNew_of_connectsNew {env : Env} {p : ℤ} {w u : Server × Occupancy}
    (h : ConnectsNew w (.playerConnect p, env) u) : isNew env p w.1 u.1 = true := by
  by_cases hok : (onPlayerConnect p (w.1.begin env)).value? = some true
  · obtain ⟨new, v, pr, hnew, hpr, -, haddr⟩ := h p rfl hok
    simp [isNew, hnew, hpr, haddr]
  · simp [isNew, hok]

/-- A player joins the team, the teams are reloaded, and the player leaves. -/
def leftover : List (Event × Env) :=
  Demo.quietly [.gameModeInit, .playerConnect 0, Demo.chooseTeam 0, Demo.reloadTeams 0,
    .playerDisconnect 0 1]

/-- After a reload of the teams a player cannot leave theirs. Their profile stays, and
the next player under the id gets it. -/
theorem connect_finds_leftover_profile :
    ¬∀ is, Meets Server.occupied (fun w i => possibleAt w i = true)
        (Demo.initial, fun _ => false) is →
      AllSteps Server.occupied ConnectsNew (Demo.initial, fun _ => false) is := by
  intro hall
  have hpossible : Meets Server.occupied (fun w i => possibleAt w i = true)
      (Demo.initial, fun _ => false) (leftover ++ [(.playerConnect 0, Demo.env)]) :=
    meets_of_check (b := possibleAt) (fun _ _ h => h) (by decide +kernel)
  have hold : ((final Server.occupied (Demo.initial, fun _ => false) leftover).bind fun w =>
      (Server.occupied w (.playerConnect 0, Demo.env)).map fun u => isNew Demo.env 0 w.1 u.1) =
      some false := by
    decide +kernel
  exact not_allSteps (T := ConnectsNew) leftover (.playerConnect 0, Demo.env)
    (fun w u => isNew Demo.env 0 w.1 u.1) (fun _ _ => isNew_of_connectsNew) hold (hall _ hpossible)

end FreshCity
