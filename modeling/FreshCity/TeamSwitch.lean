import FreshCity.TeamMembership

/-!
# Changing the team

A team is changed by leaving the old one and joining the new one. The new one is looked up in
between, so the player is left without a team if it is not there or refuses him.
-/
namespace FreshCity
open Imperative Prog

namespace Server

/-- The player's team and its number are the same, and so are the players of all teams. -/
structure SameTeams (s t : Server) (p : ℤ) : Prop where
  team : (t.profiles.lookup p).map (·.team) = (s.profiles.lookup p).map (·.team)
  number : t.samp.team p = s.samp.team p
  players : ∀ o, (t.teams.members.lookup o).map (·.onlineplayers) =
    (s.teams.members.lookup o).map (·.onlineplayers)

/-- `Quit` of a team would go through. -/
def quits (s : Server) (p : ℤ) (o : OID) : Bool :=
  (s.teams.members.lookup o).any fun team => team.inGame p

/-- `Join` of a team would go through, for a player who has none. -/
def admits (s : Server) (p : ℤ) (o : OID) : Bool :=
  (s.teams.members.lookup o).any fun team => !team.inGame p

/-- A selection that makes the player leave his team names one that he can join. -/
def switches (s : Server) (p : ℤ) (id : Text) : Bool :=
  (s.profiles.lookup p).all fun pr => (OID.ofText id).all fun new =>
    decide (pr.team = new) || !pr.team.isSet || !s.quits p pr.team || s.admits p new

variable {s : Server} {p : ℤ} {t : OID}

theorem SameTeams.refl : s.SameTeams s p := ⟨rfl, rfl, fun _ => rfl⟩

/-- Who left his team has another one than before. -/
theorem not_sameTeams_quitTeam {pr : Profile} {name : Text} (hpr : s.profiles.lookup p = some pr)
    (hset : pr.team.isSet = true) : ¬s.SameTeams (s.quitTeam pr.team p name) p := by
  intro hsame
  have hteam := hsame.team
  rw [Server.quitTeam, Map.lookup_adjust_self hpr, hpr, Option.map_some, Option.map_some] at hteam
  have hunset : OID.unset = pr.team := Option.some.inj hteam
  rw [← hunset] at hset
  exact absurd hset (by decide)

/-- Leaving one team does not change who can join another. -/
theorem admits_quitTeam {name : Text} {o : OID} (hne : o ≠ t) :
    (s.quitTeam t p name).admits p o = s.admits p o := by
  rw [admits, Server.quitTeam, Map.lookup_adjust, if_neg hne, admits]

end Server

section Handler
open Server
variable {s : Server} {p : ℤ} {o : OID} {P : Server → Prop}

/-- What stops a player from leaving a team leaves the server as it is. -/
theorem wp_leave_refused {Q : Unit → Server → Prop} (h : s.quits p o = false) (hs : P s) :
    wp (do let _ ← teamMgr o; Team.quit o p) Q (fun _ => P) s := by
  simp only [teamMgr, Team.quit, Team.ref, wp_bind, wp_gets, wp_orRaise, wp_orUndefined, wp_raiseIf]
  refine ⟨fun _ _ team hteam => ?_, fun _ => hs⟩
  have hin : team.inGame p = false := by
    rw [quits, hteam] at h
    exact h
  rw [hin]
  exact hs

/-- A player leaves a team that lists him. -/
theorem wp_leave {Q : Unit → Server → Prop} (h : s.quits p o = true) :
    ∃ name, wp (do let _ ← teamMgr o; Team.quit o p) Q (fun _ => P) s ↔ Q () (s.quitTeam o p name) := by
  obtain ⟨team, hteam, hin⟩ := (Option.any_eq_true _ _).mp h
  refine ⟨team.name, ?_⟩
  simp only [teamMgr, Team.quit, Team.ref, wp_bind, wp_gets, wp_orRaise, wp_orUndefined, wp_raiseIf,
    hteam, Option.some.injEq, forall_eq', reduceCtorEq, false_imp_iff, and_true, hin]
  rfl

/-- What stops a player from joining a team leaves the server as it is. -/
theorem wp_enter_refused (hs : P s) :
    wp (do let _ ← teamMgr o; Team.join o p) (fun _ _ => True) (fun _ => P) s := by
  simp only [teamMgr, Team.join, Team.ref, Profile.ref, wp_bind, wp_gets, wp_orRaise, wp_orUndefined,
    wp_raiseIf]
  refine ⟨fun _ _ team _ pr _ => ?_, fun _ => hs⟩
  split
  · exact hs
  · split
    · exact hs
    · trivial

/-- A player without a team joins exactly the teams that are there and do not list him. -/
theorem wp_enter {pr : Profile} (hpr : s.profiles.lookup p = some pr)
    (hunset : pr.team.isSet = false) :
    wp (do let _ ← teamMgr o; Team.join o p) (fun _ _ => True) (fun _ => P) s ↔
      (s.admits p o = true ∨ P s) := by
  by_cases hs : P s
  · exact iff_of_true (wp_enter_refused hs) (.inr hs)
  simp only [teamMgr, Team.join, Team.ref, Profile.ref, wp_bind, wp_gets, wp_orRaise, wp_orUndefined,
    wp_raiseIf, hpr, hunset, Option.some.injEq, forall_eq', hs, or_false, admits]
  cases s.teams.members.lookup o with
  | none => simp
  | some team =>
    simp only [Option.some.injEq, forall_eq', Option.any_some]
    cases team.inGame p with
    | true => simp
    | false => exact iff_of_true ⟨trivial, fun h => absurd h (Option.some_ne_none team)⟩ rfl

/-- The case that goes wrong is the one where `Quit` has gone through and the rest does not. -/
theorem wp_changeTeam_iff {id : Text} : wp (Dialog.changeTeam p id) (fun _ _ => True)
    (fun _ t => s.SameTeams t p) s ↔ s.switches p id = true := by
  have hrefl : s.SameTeams s p := .refl
  rw [Dialog.changeTeam]
  simp only [Profile.ref, wp_bind, wp_gets, wp_orUndefined, wp_orRaise, Server.switches,
    Option.all_eq_true]
  refine forall₂_congr fun pr hpr => ?_
  rw [and_iff_left fun _ => hrefl]
  refine forall₂_congr fun new _ => ?_
  rw [wp_when]
  by_cases heq : pr.team = new
  · simp [heq]
  rw [if_pos heq, wp_bind, wp_when]
  by_cases hset : pr.team.isSet = true
  case neg =>
    rw [if_neg hset]
    exact iff_of_true (wp_enter_refused hrefl) (by simp [hset])
  rw [if_pos hset]
  by_cases hquits : s.quits p pr.team = true
  case neg =>
    have hquits' : s.quits p pr.team = false := by simpa using hquits
    exact iff_of_true (wp_leave_refused hquits' hrefl) (by simp [hquits'])
  -- the player has left when the new team is looked up
  obtain ⟨name, hleave⟩ := wp_leave hquits
  have hleft : ¬s.SameTeams (s.quitTeam pr.team p name) p := not_sameTeams_quitTeam hpr hset
  have hunset : OID.unset.isSet = false := by decide
  have hpr' : (s.quitTeam pr.team p name).profiles.lookup p = some { pr with team := OID.unset } :=
    Map.lookup_adjust_self hpr _
  refine hleave.trans ((wp_enter hpr' hunset).trans ?_)
  rw [admits_quitTeam (Ne.symm heq)]
  simp [heq, hset, hquits, hleft]

/-- The list of roles is shown at the end, which does not fail. -/
theorem wp_teamSelect_iff {listitem : ℤ} {inputtext : Text} :
    wp (Dialog.callback p listitem inputtext .teamSelect) (fun _ _ => True) (fun _ => P) s ↔
      wp (Dialog.changeTeam p (s.env.stringOf inputtext 24)) (fun _ _ => True) (fun _ => P) s := by
  have hshow : ∀ u, wp (showDialog p .roleSelect .roleList) (fun _ _ => True) (fun _ => P) u := by
    intro u
    rw [showDialog, wp_bind, wp_raiseIf, if_neg (by decide)]
    trivial
  rw [Dialog.callback, Dialog.teamSelect, wp_bind, wp_gets, wp_bind]
  constructor
  · exact fun h => wp_mono h (fun _ _ _ => trivial) fun _ _ ht => ht
  · exact fun h => wp_mono h (fun _ u _ => hshow u) fun _ _ ht => ht

end Handler

/-- The selection of a team that throws leaves all memberships alone exactly if the player is not
made to leave his team for one that he cannot join. -/
theorem failed_switch_undone_iff (s : Server) (p listitem : ℤ) (inputtext : Text) :
    wp (Dialog.callback p listitem inputtext .teamSelect) (fun _ _ => True)
      (fun _ t => s.SameTeams t p) s ↔
      s.switches p (s.env.stringOf inputtext 24) = true :=
  wp_teamSelect_iff.trans wp_changeTeam_iff

namespace Demo

/-- The player is in his team, and there is no other one. -/
def onlyTeam : Server :=
  { initial with
    profiles := (∅ : Map ℤ Profile).insert 0 { item := {}, addr := 0, team := team }
    teams := { members := (∅ : Map OID Team).insert team {
      item := { uniqueid := team }, ingameteamid := 1
      onlineplayers := (∅ : Map ℤ OID).insert 0 OID.unset } } }

end Demo

/-- A player who selects a team that was removed is in no team. -/
theorem removed_team_selected :
    ¬∀ (s : Server) (p listitem : ℤ) (inputtext : Text), 24 ≤ inputtext.length →
      wp (Dialog.callback p listitem inputtext .teamSelect) (fun _ _ => True)
        (fun _ t => s.SameTeams t p) s := by
  intro hall
  have hundone := hall Demo.onlyTeam 0 0 Demo.rivals.str (by decide)
  rw [wp_teamSelect_iff, wp_changeTeam_iff] at hundone
  exact absurd hundone (by decide)

end FreshCity
