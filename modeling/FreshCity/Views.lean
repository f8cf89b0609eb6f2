import FreshCity.Events

/-!
# What each kind of change leaves alone

The lemmas that turn a footprint into an invariant: for each part of the server
that an invariant speaks of, the kinds that can change it, and how.
-/
namespace FreshCity
open Imperative

namespace Kind

/-- The kinds that change some profile or which profiles there are. -/
def writesProfiles : Kind → Bool
  | insertProfile _ => true
  | eraseProfile _ => true
  | profileItem => true
  | profileLoaded => true
  | profileSignIn => true
  | profileTeam => true
  | profileKills => true
  | profileRole => true
  | profileVars => true
  | profileRace => true
  | profileGame => true
  | profileMoney => true
  | _ => false

/-- The kinds that change some team or which teams there are. -/
def writesTeams : Kind → Bool
  | teamIds => true
  | insertTeam => true
  | teamRoster => true
  | adjustTeam => true
  | eraseTeam _ => true
  | clearTeams => true
  | _ => false

def writesTimers : Kind → Bool
  | createTimer _ => true
  | destroyTimer => true
  | rearmTimer => true
  | _ => false

/-- The kinds that record an output. -/
def writesTrace : Kind → Bool
  | output => true
  | insert _ => true
  | update _ => true
  | remove _ => true
  | reload _ => true
  | readConfig => true
  | setVar _ => true
  | _ => false

/-- The parts of the server that a change of a kind leaves alone. -/
structure Frame (k : Kind) (s t : Server) : Prop where
  platform : t.platform = s.platform
  env : t.env = s.env
  config : k ≠ .config → t.config = s.config
  profiles : k.writesProfiles = false → t.profiles = s.profiles
  teams : k.writesTeams = false → t.teams = s.teams
  sampTeam : (∀ p, k ≠ .sampTeam p) → t.samp.team = s.samp.team
  timers : k.writesTimers = false → t.timers = s.timers
  nexthandle : (∀ c, k ≠ .createTimer c) → t.nexthandle = s.nexthandle
  nextaddr : s.nextaddr ≤ t.nextaddr
  sampMoney : k ≠ .sampMoney → t.samp.money = s.samp.money
  sampZones : k ≠ .sampZones → t.samp.zones = s.samp.zones ∧ t.samp.zoneColor = s.samp.zoneColor
  zones : k ≠ .zones → k ≠ .zoneData → t.zones = s.zones
  races : k ≠ .races → t.races = s.races
  properties : k ≠ .properties → t.properties = s.properties
  areas : k ≠ .areas → t.areas = s.areas
  pickups : k ≠ .pickups → t.pickups = s.pickups
  streamer : k ≠ .streamer → t.streamer = s.streamer
  database : k ≠ .database → t.database = s.database
  trace : k.writesTrace = false → t.trace = s.trace

variable {k : Kind} {s t : Server} {p : ℤ}

theorem frame (h : k.change s t) : k.Frame s t := by
  cases k
  case samp => obtain ⟨_, _, _, rfl⟩ := h; constructor <;> simp
  case zoneData => obtain ⟨_, _, _, rfl⟩ := h; constructor <;> simp
  case createTimer => obtain ⟨_, _, _, rfl⟩ := h; constructor <;> simp [writesTimers]
  case counters => obtain ⟨_, _, _, _, rfl⟩ := h; constructor <;> simp_all
  case insertProfile => obtain ⟨_, _, _, rfl⟩ := h; constructor <;> simp [writesProfiles]
  case eraseProfile => obtain rfl := h; constructor <;> simp [writesProfiles]
  case insertTeam => obtain ⟨_, _, _, rfl⟩ := h; constructor <;> simp [writesTeams]
  case clearTeams => obtain rfl := h; constructor <;> simp [writesTeams]
  all_goals first
    | (obtain ⟨_, rfl⟩ := h; constructor <;> simp [writesTeams, writesTimers])
    | (obtain ⟨_, _, rfl⟩ := h; constructor <;> simp [writesProfiles, writesTeams, writesTrace])

end Kind

/-- A program none of whose kinds writes to the teams leaves them alone. -/
theorem wp_teams_eq {α : Type} {K : List Kind} {x : Game α} {s : Server} (h : Stays K x)
    (hK : ∀ k ∈ K, k.writesTeams = false) :
    Prog.wp x (fun _ t => t.teams = s.teams) (fun _ t => t.teams = s.teams) s :=
  h.invariant (fun k hk _ _ hab ha => ((Kind.frame hab).teams (hK k hk)).trans ha) rfl

/-! ## Profiles -/

/-- What a change of a kind can do to one profile. -/
structure Profile.Evolves (k : Kind) (pr pr' : Profile) : Prop where
  addr : pr'.addr = pr.addr
  item : k ≠ .profileItem → pr'.item = pr.item
  signedin : k ≠ .profileSignIn → pr'.auth.signedin = pr.auth.signedin
  autosavetimer : k ≠ .profileSignIn → pr'.auth.autosavetimer = pr.auth.autosavetimer
  team : k ≠ .profileTeam → pr'.team = pr.team
  raceJoined : k ≠ .profileRace → pr'.pvars.raceJoined = pr.pvars.raceJoined
  money : k ≠ .profileMoney → pr'.gamedata.money = pr.gamedata.money

namespace Kind
variable {k : Kind} {s t : Server} {p : ℤ}

/-- A write to one profile, seen at any id. -/
theorem evolves_adjust {q : ℤ} {g : Profile → Profile} {m : Map ℤ Profile} {pr : Profile}
    (hg : pr.Evolves k (g pr)) (hpr : m.lookup p = some pr) :
    ∃ pr', (m.adjust q g).lookup p = some pr' ∧ pr.Evolves k pr' := by
  by_cases hq : p = q
  · subst hq
    exact ⟨g pr, by rw [Map.lookup_adjust, if_pos rfl, hpr]; rfl, hg⟩
  · exact ⟨pr, by rw [Map.lookup_adjust, if_neg hq, hpr], by constructor <;> simp⟩

/-- A profile that is not erased is still there, and is changed by its kind alone. -/
theorem evolves {pr : Profile} (h : k.change s t) (hk : k ≠ .eraseProfile p)
    (hpr : s.profiles.lookup p = some pr) :
    ∃ pr', t.profiles.lookup p = some pr' ∧ pr.Evolves k pr' := by
  by_cases hw : k.writesProfiles = false
  · exact ⟨pr, by rw [(frame h).profiles hw, hpr], by constructor <;> simp⟩
  cases k
  case insertProfile q =>
    obtain ⟨_, _, hq, rfl⟩ := h
    have hne : p ≠ q := fun heq => hq (Map.mem_iff_lookup.mpr ⟨pr, heq ▸ hpr⟩)
    exact ⟨pr, by simpa [hne] using hpr, by constructor <;> simp⟩
  case eraseProfile q =>
    obtain rfl := h
    have hne : p ≠ q := fun heq => hk (heq ▸ rfl)
    exact ⟨pr, by simpa [hne] using hpr, by constructor <;> simp⟩
  all_goals first
    | exact absurd rfl hw
    | (obtain ⟨q, g, rfl⟩ := h; exact evolves_adjust (by constructor <;> simp [Profile.takeLoaded]) hpr)

theorem mem_profiles (h : k.change s t) (hk : k ≠ .insertProfile p) (hp : p ∈ t.profiles) :
    p ∈ s.profiles := by
  by_cases hw : k.writesProfiles = false
  · rwa [(frame h).profiles hw] at hp
  cases k
  case insertProfile q =>
    obtain ⟨_, _, _, rfl⟩ := h
    have hne : p ≠ q := fun heq => hk (heq ▸ rfl)
    simpa [hne] using hp
  case eraseProfile q =>
    obtain rfl := h
    exact (AList.mem_erase.mp hp).2
  all_goals first
    | (obtain ⟨_, _, rfl⟩ := h; simpa using hp)
    | exact absurd rfl hw

/-- A part of a profile that a kind keeps, seen at any id it neither inserts nor erases. -/
theorem view_profile {γ : Type*} {f : Profile → γ} (h : k.change s t) (hi : k ≠ .insertProfile p)
    (he : k ≠ .eraseProfile p) (hf : ∀ pr pr', pr.Evolves k pr' → f pr' = f pr) :
    (t.profiles.lookup p).map f = (s.profiles.lookup p).map f := by
  cases hp : s.profiles.lookup p with
  | none =>
    have hnot : p ∉ t.profiles := fun hmem => AList.lookup_eq_none.mp hp (mem_profiles h hi hmem)
    rw [AList.lookup_eq_none.mpr hnot]
  | some pr =>
    obtain ⟨pr', hpr', hev⟩ := evolves h he hp
    simp [hpr', hf pr pr' hev]

end Kind

/-- Only the callback of a connecting player inserts a profile under an id of SA-MP. -/
theorem Event.insertProfile_notMem {e : Event} {p : ℤ} (hp : 0 ≤ p) (he : e ≠ .playerConnect p) :
    Kind.insertProfile p ∉ e.footprint := by
  cases e
  case playerConnect q =>
    have hne : p ≠ q := fun heq => he (heq ▸ rfl)
    simp [footprint, hne]
  case gameModeInit =>
    have hne : p ≠ -1 := by omega
    simp [footprint, hne]
  case playerCommandText q cmdtext => simp [footprint, CommandId.all, Command.footprint]
  case dialogResponse q dialogid response listitem inputtext =>
    rcases hd : dialog dialogid with _ | d
    · simp [footprint, hd]
    · cases d <;> simp [footprint, hd, Dialog.footprint]
  all_goals simp [footprint]

namespace Server
variable {s t : Server} {e : Event} {env : Env} {p : ℤ}

/-- A profile appears only where its player connects. -/
theorem step_mem_profiles (h : s.step (e, env) = some t) (hp : 0 ≤ p) (he : e ≠ .playerConnect p)
    (hmem : p ∈ t.profiles) : p ∈ s.profiles := by
  refine step_invariant (I := fun u => p ∈ u.profiles → p ∈ s.profiles) h ?_ id hmem
  intro k hk a b hab ih hb
  have hne : k ≠ .insertProfile p := fun heq => e.insertProfile_notMem hp he (heq ▸ hk)
  exact ih (Kind.mem_profiles hab hne hb)

end Server
end FreshCity
