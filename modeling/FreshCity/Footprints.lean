import FreshCity.Imperative.Footprint
import FreshCity.State

/-!
# The kinds of change the gamemode makes

A kind names one component of the server, one part of one player's profile, or
one class of outputs. A callback's footprint is the list of kinds it stays within.
-/
namespace FreshCity
open Imperative

/-- The kinds of change. Profile parts are told apart because most callbacks touch
a profile, but few touch its sign-in, its team or its race. -/
inductive Kind where
  | output
  | insert (c : Collection)
  | update (c : Collection)
  | remove (c : Collection)
  | reload (c : Collection)
  | readConfig
  | setVar (k : VarKey)
  | samp
  | sampTeam (p : ℤ)
  | sampMoney
  | sampZones
  | streamer
  | database
  | createTimer (target : TimerTarget)
  | destroyTimer
  | rearmTimer
  | counters
  | config
  | insertProfile (p : ℤ)
  | eraseProfile (p : ℤ)
  | profileItem
  | profileLoaded
  | profileSignIn
  | profileTeam
  | profileKills
  | profileRole
  | profileVars
  | profileRace
  | profileGame
  | profileMoney
  | teamIds
  | insertTeam
  | teamRoster
  | adjustTeam
  | eraseTeam (t : OID)
  | clearTeams
  | zones
  | zoneData
  | areas
  | pickups
  | properties
  | races
  deriving DecidableEq

namespace Effect

/-- The kind of the change that records an output. -/
def kind : Effect → Kind
  | insert c _ => .insert c
  | update c _ _ => .update c
  | remove c _ => .remove c
  | reload c => .reload c
  | readConfig => .readConfig
  | setVar _ k => .setVar k
  | _ => .output

end Effect

namespace Kind

/-- What a change of each kind does to the server. -/
def change : Kind → Server → Server → Prop
  | samp, s, t => ∃ x c r, t = { s with samp := { s.samp with
      score := x, color := c, raceCheckpoint := r } }
  | sampTeam p, s, t => ∃ x, t = { s with samp := { s.samp with
      team := Function.update s.samp.team p x } }
  | sampMoney, s, t => ∃ x, t = { s with samp := { s.samp with money := x } }
  | sampZones, s, t => ∃ z c, t = { s with samp := { s.samp with zones := z, zoneColor := c } }
  | streamer, s, t => ∃ x, t = { s with streamer := x }
  | database, s, t => ∃ x, t = { s with database := x }
  | createTimer c, s, t => ∃ tm : Timer, tm.callback.target = c ∧ tm.handle = s.nexthandle ∧
      t = { s with timers := tm :: s.timers, nexthandle := s.nexthandle + 1 }
  | destroyTimer, s, t => ∃ h, t = { s with timers := s.timers.filter fun tm => tm.handle ≠ h }
  | rearmTimer, s, t => ∃ d : Timer → ℤ,
      t = { s with timers := s.timers.map fun tm => { tm with due := d tm } }
  | counters, s, t => ∃ a g w, s.nextaddr ≤ a ∧
      t = { s with nextaddr := a, genoids := g, worldtime := w }
  | config, s, t => ∃ x, t = { s with config := x }
  | insertProfile p, s, t => ∃ pr : Profile, pr.IsNew ∧ p ∉ s.profiles ∧
      t = { s with profiles := s.profiles.insert p pr }
  | eraseProfile p, s, t => t = { s with profiles := s.profiles.erase p }
  | profileItem, s, t => ∃ p, ∃ g : Profile → SaveableItem,
      t = { s with profiles := s.profiles.adjust p fun q => { q with item := g q } }
  | profileLoaded, s, t => ∃ p pr,
      t = { s with profiles := s.profiles.adjust p fun q => q.takeLoaded pr }
  | profileSignIn, s, t => ∃ p, ∃ g : Profile → AuthData,
      t = { s with profiles := s.profiles.adjust p fun q => { q with auth := g q } }
  | profileTeam, s, t => ∃ p, ∃ g : Profile → OID,
      t = { s with profiles := s.profiles.adjust p fun q => { q with team := g q } }
  | profileKills, s, t => ∃ p, ∃ g : Profile → KillCounter,
      t = { s with profiles := s.profiles.adjust p fun q => { q with killcounter := g q } }
  | profileRole, s, t => ∃ p, ∃ g : Profile → Option Role,
      t = { s with profiles := s.profiles.adjust p fun q => { q with role := g q } }
  | profileVars, s, t => ∃ p, ∃ g : Profile → PVars,
      t = { s with profiles := s.profiles.adjust p fun q =>
        { q with pvars := { g q with raceJoined := q.pvars.raceJoined } } }
  | profileRace, s, t => ∃ p, ∃ g : Profile → Option ℤ,
      t = { s with profiles := s.profiles.adjust p fun q =>
        { q with pvars := { q.pvars with raceJoined := g q } } }
  | profileGame, s, t => ∃ p, ∃ g : Profile → GameData,
      t = { s with profiles := s.profiles.adjust p fun q =>
        { q with gamedata := { g q with money := q.gamedata.money } } }
  | profileMoney, s, t => ∃ p, ∃ g : Profile → ℤ,
      t = { s with profiles := s.profiles.adjust p fun q =>
        { q with gamedata := { q.gamedata with money := g q } } }
  | teamIds, s, t => ∃ x, t = { s with teams := { s.teams with idgen := x } }
  | insertTeam, s, t => ∃ team : Team, team.onlineplayers = ∅ ∧
      team.item.uniqueid ∉ s.teams.members ∧ t = { s with teams := { s.teams with
        members := s.teams.members.insert team.item.uniqueid team } }
  | teamRoster, s, t => ∃ o, ∃ g : Team → Map ℤ OID, t = { s with teams := { s.teams with
      members := s.teams.members.adjust o fun team => { team with onlineplayers := g team } } }
  | adjustTeam, s, t => ∃ o g, t = { s with teams := { s.teams with
      members := s.teams.members.adjust o g } }
  | eraseTeam o, s, t => ∃ team, s.teams.members.lookup o = some team ∧
      t = { s with teams := { s.teams with members := s.teams.members.erase team.item.uniqueid } }
  | clearTeams, s, t => t = { s with teams := { s.teams with members := ∅ } }
  | zones, s, t => ∃ x, t = { s with zones := x }
  | zoneData, s, t => ∃ z, ∃ g : GangZoneItem → GangZoneItem, (∀ x, GangZoneItem.SameZone x (g x)) ∧
      t = { s with zones := s.zones.adjust z g }
  | areas, s, t => ∃ x, t = { s with areas := x }
  | pickups, s, t => ∃ x, t = { s with pickups := x }
  | properties, s, t => ∃ x, t = { s with properties := x }
  | races, s, t => ∃ x, t = { s with races := x }
  | k, s, t => ∃ e : Effect, e.kind = k ∧ t = { s with trace := e :: s.trace }

end Kind

/-- A program of the gamemode that stays within the kinds `K`. -/
abbrev Stays {α : Type} (K : List Kind) (x : Game α) : Prop := Prog.Within Kind.change K x

theorem stays_modify {K : List Kind} (k : Kind) [Listed k K] {f : Server → Server}
    (h : ∀ s, k.change s (f s)) : Stays K (Prog.modify f) := Prog.Within.modify k h

/-- A method that changes its own object and stays within the kinds `K` otherwise. -/
abbrev MethodStays {τ α : Type} (K : List Kind) (x : Method τ α) : Prop :=
  Prog.MethodWithin Kind.change K x

theorem stays_focus {α τ : Type} {K : List Kind} (k : Kind) [Listed k K]
    {get : Server → Option τ} {put : τ → Server → Server} {x : Method τ α}
    (hput : ∀ a s, k.change s (put a s)) (hx : MethodStays K x) :
    Stays K (Prog.focus get put x) := Prog.Within.focus k hput hx

end FreshCity
