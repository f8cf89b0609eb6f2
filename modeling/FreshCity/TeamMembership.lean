import FreshCity.Imperative.Run
import FreshCity.Views

/-!
# Membership of teams

A player's team is written down three times: in the profile, in the team's list
of online players and in the team number SA-MP has. `Linked` is the relation
between the three that joining, leaving, connecting and disconnecting all keep.
Removing a team with members in it, or reloading the teams, breaks it.
-/
namespace FreshCity
open Imperative Prog Run

namespace Server

/-- A registered team lists a player as online. -/
def Lists (s : Server) (t : OID) (p : ℤ) : Prop :=
  ∃ team, s.teams.members.lookup t = some team ∧ team.inGame p = true

/-- The three records of who is in which team say the same. -/
structure TeamsAgree (s : Server) : Prop where
  membership : ∀ p pr t, s.profiles.lookup p = some pr → t.isSet = true →
    (pr.team = t ↔ s.Lists t p)
  number : ∀ p pr team, s.profiles.lookup p = some pr → pr.team.isSet = true →
    s.teams.members.lookup pr.team = some team → s.samp.team p = team.ingameteamid
  unique : ∀ p t u, t.isSet = true → u.isSet = true → s.Lists t p → s.Lists u p → t = u

/-- What a team that a profile names has to do with the player. -/
def Names (s : Server) (p : ℤ) (t : OID) : Prop :=
  t.isSet = true → ∃ team, s.teams.members.lookup t = some team ∧ team.inGame p = true ∧
    s.samp.team p = team.ingameteamid

/-- Teams are kept under their own ids, who names a team is in it, and who is in a team
has a profile that names it. -/
structure Linked (s : Server) : Prop where
  keyed : ∀ t team, s.teams.members.lookup t = some team → team.item.uniqueid = t
  names : ∀ p t, (s.profiles.lookup p).map (·.team) = some t → s.Names p t
  listed : ∀ p t, t.isSet = true → s.Lists t p → (s.profiles.lookup p).map (·.team) = some t

/-- A player whose profile, if there is one, names no team. -/
def Teamless (s : Server) (p : ℤ) : Prop :=
  ∀ t, (s.profiles.lookup p).map (·.team) = some t → t.isSet = false

theorem Linked.teamsAgree {s : Server} (h : s.Linked) : s.TeamsAgree where
  membership p pr t hpr ht := by
    have hteam : (s.profiles.lookup p).map (·.team) = some pr.team := by rw [hpr]; rfl
    constructor
    · rintro rfl
      obtain ⟨team, hlookup, hin, -⟩ := h.names p pr.team hteam ht
      exact ⟨team, hlookup, hin⟩
    · intro hlists
      exact Option.some.inj (hteam.symm.trans (h.listed p t ht hlists))
  number p pr team hpr hset hteam := by
    obtain ⟨team', hlookup, -, hnumber⟩ := h.names p pr.team (by rw [hpr]; rfl) hset
    obtain rfl : team' = team := Option.some.inj (hlookup.symm.trans hteam)
    exact hnumber
  unique p t u ht hu hpt hpu :=
    Option.some.inj ((h.listed p t ht hpt).symm.trans (h.listed p u hu hpu))

/-- Only three parts of the server matter to the link. -/
theorem Linked.of_eq {s t : Server} (h : s.Linked) (hm : t.teams.members = s.teams.members)
    (hn : t.samp.team = s.samp.team)
    (hp : ∀ p, (t.profiles.lookup p).map (·.team) = (s.profiles.lookup p).map (·.team)) :
    t.Linked where
  keyed o team hteam := h.keyed o team (hm ▸ hteam)
  names p o ho hset := by
    obtain ⟨team, hteam, hin, hnumber⟩ := h.names p o (hp p ▸ ho) hset
    exact ⟨team, hm ▸ hteam, hin, by rw [hn, hnumber]⟩
  listed p o hset hlists := by
    obtain ⟨team, hteam, hin⟩ := hlists
    rw [hp p]
    exact h.listed p o hset ⟨team, hm ▸ hteam, hin⟩

end Server

/-! ## Kinds of change -/

namespace Kind
open Server
variable {k : Kind} {s t : Server} {p : ℤ}

/-- The kinds that keep the link whatever the state. -/
def keepsLink : Kind → Bool
  | sampTeam _ => false
  | eraseProfile _ => false
  | profileTeam => false
  | teamRoster => false
  | adjustTeam => false
  | eraseTeam _ => false
  | clearTeams => false
  | _ => true

/-- The teams of the profiles change only with the profiles there are and by `profileTeam`. -/
theorem teamOf_eq (h : k.change s t) (hi : k ≠ .insertProfile p) (he : k ≠ .eraseProfile p)
    (ht : k ≠ .profileTeam) :
    (t.profiles.lookup p).map (·.team) = (s.profiles.lookup p).map (·.team) :=
  view_profile h hi he fun _ _ hev => hev.team ht

theorem linked_insertProfile (h : (insertProfile p).change s t) (hs : s.Linked) : t.Linked := by
  obtain ⟨pr, hnew, hp, rfl⟩ := h
  have hteam : ∀ q, ((s.profiles.insert p pr).lookup q).map (·.team) =
      if q = p then some OID.unset else (s.profiles.lookup q).map (·.team) := by
    intro q
    rw [Map.lookup_insert_ite]
    split <;> simp [hnew.team]
  refine ⟨hs.keyed, fun q o ho hset => ?_, fun q o hset hlists => ?_⟩
  · simp only [hteam] at ho
    split at ho
    · obtain rfl := Option.some.inj ho
      simp [OID.isSet] at hset
    · exact hs.names q o ho hset
  · have ho := hs.listed q o hset hlists
    have hne : q ≠ p := by
      rintro rfl
      rw [AList.lookup_eq_none.mpr hp] at ho
      cases ho
    simp only [hteam, if_neg hne, ho]

theorem linked_insertTeam (h : insertTeam.change s t) (hs : s.Linked) : t.Linked := by
  obtain ⟨team, hempty, hnew, rfl⟩ := h
  refine ⟨fun o team' h' => ?_, fun q o ho hset => ?_, fun q o hset hlists => ?_⟩
  · simp only [Map.lookup_insert_ite] at h'
    split at h'
    · obtain rfl := Option.some.inj h'
      exact ‹o = _›.symm
    · exact hs.keyed o team' h'
  · obtain ⟨team', h', hin, hnumber⟩ := hs.names q o ho hset
    have hne : o ≠ team.item.uniqueid := fun heq =>
      hnew (Map.mem_iff_lookup.mpr ⟨team', heq ▸ h'⟩)
    exact ⟨team', by simpa [Map.lookup_insert_ite, hne] using h', hin, hnumber⟩
  · obtain ⟨team', h', hin⟩ := hlists
    simp only [Map.lookup_insert_ite] at h'
    split at h'
    · obtain rfl := Option.some.inj h'
      simp [Team.inGame, hempty] at hin
    · exact hs.listed q o hset ⟨team', h', hin⟩

theorem linked (h : k.change s t) (hk : k.keepsLink = true) (hs : s.Linked) : t.Linked := by
  by_cases hi : ∃ p, k = .insertProfile p
  · obtain ⟨p, rfl⟩ := hi
    exact linked_insertProfile h hs
  by_cases hins : k = .insertTeam
  · subst hins
    exact linked_insertTeam h hs
  have hteams : t.teams.members = s.teams.members := by
    by_cases hids : k = .teamIds
    · subst hids
      obtain ⟨_, rfl⟩ := h
      rfl
    · rw [(frame h).teams]
      revert hk hins hids
      cases k <;> simp [keepsLink, writesTeams]
  refine hs.of_eq hteams ((frame h).sampTeam ?_) fun p => teamOf_eq h (fun heq => hi ⟨p, heq⟩) ?_ ?_
  all_goals
    revert hk
    cases k <;> simp [keepsLink]

/-- Whoever has no team keeps having none, unless a team is joined. -/
theorem teamless (h : k.change s t) (ht : k ≠ .profileTeam) (hs : s.Teamless p) : t.Teamless p := by
  intro o ho
  by_cases hi : k = .insertProfile p
  · subst hi
    obtain ⟨pr, hnew, -, rfl⟩ := h
    obtain rfl : pr.team = o := by simpa using ho
    simp [hnew.team, OID.isSet]
  · by_cases he : k = .eraseProfile p
    · subst he
      obtain rfl := h
      simp at ho
    · exact hs o (teamOf_eq h hi he ht ▸ ho)

end Kind

/-! ## Joining and leaving -/

namespace Server

/-- The server after a player left a team. -/
def quitTeam (s : Server) (t : OID) (p : ℤ) (name : Text) : Server :=
  { s with
    trace := .message p (.quitTeam name) :: .setPlayerTeam p noTeam :: s.trace
    samp := { s.samp with team := Function.update s.samp.team p noTeam }
    profiles := s.profiles.adjust p fun q => { q with team := OID.unset }
    teams := { s.teams with members := s.teams.members.adjust t fun team =>
      { team with onlineplayers := team.onlineplayers.erase p } } }

/-- The server after a player joined a team. -/
def joinTeam (s : Server) (t : OID) (p : ℤ) (id : OID) (team : Team) : Server :=
  { s with
    trace := .message p (.joinedTeam team.name) :: .setPlayerTeam p team.ingameteamid :: s.trace
    samp := { s.samp with team := Function.update s.samp.team p team.ingameteamid }
    profiles := s.profiles.adjust p fun q => { q with team := team.item.uniqueid }
    teams := { s.teams with members := s.teams.members.adjust t fun team =>
      { team with onlineplayers := team.onlineplayers.insert p id } } }

variable {s : Server} {p : ℤ} {t : OID}

theorem teamOf_adjust (m : Map ℤ Profile) (p q : ℤ) (o : OID) :
    ((m.adjust p fun r => { r with team := o }).lookup q).map (·.team) =
      if q = p then ((m.lookup q).map fun _ => o) else (m.lookup q).map (·.team) := by
  rw [Map.lookup_adjust]
  split
  · rename_i h
    rw [h, Option.map_map]
    rfl
  · rfl

/-- Who leaves the team their profile names has none, and everyone else's link stays. -/
theorem Linked.quitTeam {name : Text} (h : s.Linked)
    (hp : (s.profiles.lookup p).map (·.team) = some t) :
    (s.quitTeam t p name).Linked ∧ (s.quitTeam t p name).Teamless p := by
  refine ⟨⟨fun o team' h' => ?_, fun q o ho hset => ?_, fun q o hset hlists => ?_⟩, fun o ho => ?_⟩
  · simp only [Server.quitTeam, Map.lookup_adjust] at h'
    split at h'
    · obtain ⟨team, hteam, rfl⟩ := Option.map_eq_some_iff.mp h'
      rw [h.keyed t team hteam, ‹o = t›]
    · exact h.keyed o team' h'
  · simp only [Server.quitTeam, teamOf_adjust] at ho
    split at ho
    · obtain ⟨_, -, rfl⟩ := Option.map_eq_some_iff.mp ho
      simp [OID.isSet] at hset
    · rename_i hne
      obtain ⟨team, hteam, hin, hnumber⟩ := h.names q o ho hset
      have hnumber' : Function.update s.samp.team p noTeam q = team.ingameteamid := by
        rw [Function.update_of_ne hne, hnumber]
      by_cases ht : o = t
      · subst ht
        exact ⟨{ team with onlineplayers := team.onlineplayers.erase p },
          by simp [Server.quitTeam, hteam], by simpa [Team.inGame, hne] using hin, hnumber'⟩
      · exact ⟨team, by simpa [Server.quitTeam, ht] using hteam, hin, hnumber'⟩
  · obtain ⟨team', h', hin⟩ := hlists
    simp only [Server.quitTeam, Map.lookup_adjust] at h'
    have hlists : s.Lists o q ∧ (o = t → q ≠ p) := by
      split at h'
      · obtain ⟨team, hteam, rfl⟩ := Option.map_eq_some_iff.mp h'
        simp only [Team.inGame, AList.mem_erase, decide_eq_true_eq] at hin
        exact ⟨⟨team, ‹o = t› ▸ hteam, by simpa [Team.inGame] using hin.2⟩, fun _ => hin.1⟩
      · exact ⟨⟨team', h', hin⟩, fun heq => absurd heq ‹_›⟩
    have ho := h.listed q o hset hlists.1
    have hne : q ≠ p := by
      rintro rfl
      exact hlists.2 (Option.some.inj (ho.symm.trans hp)) rfl
    simp only [Server.quitTeam, teamOf_adjust, if_neg hne, ho]
  · simp only [Server.quitTeam, teamOf_adjust, if_true] at ho
    obtain ⟨_, -, rfl⟩ := Option.map_eq_some_iff.mp ho
    simp [OID.isSet]

/-- Who has no team can join one. -/
theorem Linked.joinTeam {id : OID} {team : Team} (h : s.Linked) (hp : s.Teamless p)
    (hprofile : p ∈ s.profiles) (hteam : s.teams.members.lookup t = some team) :
    (s.joinTeam t p id team).Linked := by
  have hkey := h.keyed t team hteam
  have hself : (s.joinTeam t p id team).teams.members.lookup t =
      some { team with onlineplayers := team.onlineplayers.insert p id } := by
    simp [Server.joinTeam, hteam]
  refine ⟨fun o team' h' => ?_, fun q o ho hset => ?_, fun q o hset hlists => ?_⟩
  · simp only [Server.joinTeam, Map.lookup_adjust] at h'
    split at h'
    · obtain ⟨old, hold, rfl⟩ := Option.map_eq_some_iff.mp h'
      rw [h.keyed t old hold, ‹o = t›]
    · exact h.keyed o team' h'
  · simp only [Server.joinTeam, teamOf_adjust] at ho
    split at ho
    · rename_i heq
      obtain ⟨_, -, rfl⟩ := Option.map_eq_some_iff.mp ho
      rw [hkey]
      exact ⟨_, hself, by simp [Team.inGame, heq], by simp [Server.joinTeam, heq]⟩
    · rename_i hne
      obtain ⟨old, hold, hin, hnumber⟩ := h.names q o ho hset
      have hnumber' : Function.update s.samp.team p team.ingameteamid q = old.ingameteamid := by
        rw [Function.update_of_ne hne, hnumber]
      by_cases ht : o = t
      · subst ht
        obtain rfl : team = old := Option.some.inj (hteam.symm.trans hold)
        exact ⟨_, hself, by simpa [Team.inGame, hne] using hin, hnumber'⟩
      · exact ⟨old, by simpa [Server.joinTeam, ht] using hold, hin, hnumber'⟩
  · obtain ⟨team', h', hin⟩ := hlists
    by_cases hq : q = p
    · subst hq
      obtain ⟨pr, hpr⟩ := Map.mem_iff_lookup.mp hprofile
      by_cases ht : o = t
      · simp [Server.joinTeam, hpr, hkey, ht]
      · have hlisted := h.listed q o hset ⟨team', by simpa [Server.joinTeam, ht] using h', hin⟩
        rw [hp o hlisted] at hset
        cases hset
    · have hlists : s.Lists o q := by
        by_cases ht : o = t
        · subst ht
          obtain rfl := Option.some.inj (hself.symm.trans h')
          exact ⟨team, hteam, by simpa [Team.inGame, hq] using hin⟩
        · exact ⟨team', by simpa [Server.joinTeam, ht] using h', hin⟩
      simp only [Server.joinTeam, teamOf_adjust, if_neg hq, h.listed q o hset hlists]

end Server

section Members
open Server
variable {s : Server} {p : ℤ} {t : OID} {E : Exn → Server → Prop}

/-- `Team::Quit` of a registered team that lists the player. -/
theorem wp_quitTeam {team : Team} {Q : Unit → Server → Prop} (hin : team.inGame p = true)
    (hteam : s.teams.members.lookup t = some team) (hQ : Q () (s.quitTeam t p team.name)) :
    wp (Team.quit t p) Q E s := by
  simp only [Team.quit, Team.ref, wp_bind, wp_gets, wp_orUndefined, hteam, Option.some.injEq,
    forall_eq', wp_raiseIf, hin]
  exact hQ

/-- `Team::Join`, which refuses who is there already or has another team. -/
theorem wp_joinTeam {pr : Profile} {team : Team} {Q : Unit → Server → Prop}
    (hteam : s.teams.members.lookup t = some team) (hpr : s.profiles.lookup p = some pr)
    (hE : ∀ e, E e s) (hQ : Q () (s.joinTeam t p pr.item.uniqueid team)) :
    wp (Team.join t p) Q E s := by
  simp only [Team.join, Team.ref, Profile.ref, wp_bind, wp_gets, wp_orUndefined, hteam, hpr,
    Option.some.injEq, forall_eq', wp_raiseIf]
  split
  · exact hE _
  · split
    · exact hE _
    · exact hQ

/-- A player who has a team leaves it, and nobody's link suffers. -/
theorem wp_quit_linked {pr : Profile} (h : s.Linked) (hpr : s.profiles.lookup p = some pr)
    (hset : pr.team.isSet = true) :
    wp (do let _ ← teamMgr pr.team; Team.quit pr.team p)
      (fun _ t => t.Linked ∧ t.Teamless p ∧ p ∈ t.profiles) (fun _ _ => False) s := by
  have hteam : (s.profiles.lookup p).map (·.team) = some pr.team := by rw [hpr]; rfl
  obtain ⟨team, hlookup, hin, -⟩ := h.names p pr.team hteam hset
  simp only [teamMgr, wp_bind, wp_gets, wp_orRaise, hlookup, Option.some.injEq, forall_eq',
    reduceCtorEq, false_imp_iff, and_true]
  have hleft : (s.quitTeam pr.team p team.name).Linked ∧ (s.quitTeam pr.team p team.name).Teamless p :=
    h.quitTeam hteam
  obtain ⟨hlinked, hteamless⟩ := hleft
  refine wp_quitTeam hin hlookup ⟨hlinked, hteamless, ?_⟩
  simp [Server.quitTeam, Map.mem_iff_lookup, hpr]

/-- `DIALOG_TEAM_SELECT` keeps the link, whether the new team can be joined or not. -/
theorem wp_changeTeam_linked {id : Text} (h : s.Linked) :
    wp (Dialog.changeTeam p id) (fun _ => Linked) (fun _ => Linked) s := by
  have hjoin : ∀ (new : OID) (u : Server), u.Linked → u.Teamless p → p ∈ u.profiles →
      wp (teamMgr new) (fun _ => wp (Team.join new p) (fun _ => Linked) fun _ => Linked)
        (fun _ => Linked) u := by
    intro new u hu hteamless hmem
    simp only [teamMgr, wp_bind, wp_gets, wp_orRaise]
    refine ⟨fun team hteam => ?_, fun _ => hu⟩
    obtain ⟨pr, hpr⟩ := Map.mem_iff_lookup.mp hmem
    exact wp_joinTeam hteam hpr (fun _ => hu) (hu.joinTeam hteamless hmem hteam)
  simp only [Dialog.changeTeam, Profile.ref, wp_bind, wp_gets, wp_orUndefined, wp_orRaise, wp_when]
  intro pr hpr
  refine ⟨fun new _ => ?_, fun _ => h⟩
  have hmem : p ∈ s.profiles := Map.mem_iff_lookup.mpr ⟨pr, hpr⟩
  split
  case isFalse => exact h
  case isTrue =>
    by_cases hset : pr.team.isSet = true
    · rw [if_pos hset]
      have hquit := wp_quit_linked h hpr hset
      rw [wp_bind] at hquit
      refine wp_mono hquit (fun team u hu => ?_) (fun _ _ hf => hf.elim)
      refine wp_mono hu (fun _ v hv => ?_) (fun _ _ hf => hf.elim)
      rw [wp_bind]
      exact hjoin new v hv.1 hv.2.1 hv.2.2
    · rw [if_neg hset]
      have hteamless : s.Teamless p := fun o ho => by simp_all
      exact hjoin new s h hteamless hmem

end Members

/-! ## Events -/

section Events
open Server
variable {s t : Server} {p : ℤ} {e : Event} {env : Env}

/-- Nobody's profile names a team. -/
def Server.Empty (s : Server) : Prop := ∀ p, s.Teamless p

theorem linked_output {a b : Server} (h : Kind.output.change a b) (ha : a.Linked) : b.Linked :=
  Kind.linked h rfl ha

/-- While nobody has a team, the teams can be replaced. -/
theorem Kind.linked_empty {k : Kind} (h : k.change s t)
    (hk : k.keepsLink = true ∨ k = .clearTeams) (hs : s.Linked ∧ s.Empty) : t.Linked ∧ t.Empty := by
  have hteam : k ≠ .profileTeam := by rintro rfl; simp [keepsLink] at hk
  refine ⟨?_, fun p => Kind.teamless h hteam (hs.2 p)⟩
  rcases hk with hk | rfl
  · exact Kind.linked h hk hs.1
  · obtain rfl := h
    refine ⟨fun o team hteam => by simp at hteam, fun p o ho hset => ?_, fun p o hset hlists => ?_⟩
    · rw [hs.2 p o ho] at hset
      cases hset
    · obtain ⟨team, hteam, -⟩ := hlists
      simp at hteam

/-- A player without a team can be given a team number and can be dropped. -/
theorem Kind.linked_teamless {k : Kind} (h : k.change s t)
    (hk : k.keepsLink = true ∨ k = .sampTeam p ∨ k = .eraseProfile p)
    (hs : s.Linked ∧ s.Teamless p) : t.Linked ∧ t.Teamless p := by
  have hteam : k ≠ .profileTeam := by rintro rfl; simp [keepsLink] at hk
  refine ⟨?_, Kind.teamless h hteam hs.2⟩
  rcases hk with hk | rfl | rfl
  · exact Kind.linked h hk hs.1
  · obtain ⟨n, rfl⟩ := h
    refine ⟨hs.1.keyed, fun q o ho hset => ?_, hs.1.listed⟩
    obtain ⟨team, hlookup, hin, hnumber⟩ := hs.1.names q o ho hset
    have hne : q ≠ p := by
      rintro rfl
      rw [hs.2 o ho] at hset
      cases hset
    exact ⟨team, hlookup, hin, by simpa [hne] using hnumber⟩
  · obtain rfl := h
    refine ⟨hs.1.keyed, fun q o ho hset => ?_, fun q o hset hlists => ?_⟩
    · by_cases hq : q = p
      · subst hq
        simp at ho
      · exact hs.1.names q o (by simpa [hq] using ho) hset
    · have ho := hs.1.listed q o hset hlists
      have hne : q ≠ p := by
        rintro rfl
        rw [hs.2 o ho] at hset
        cases hset
      simpa [hne] using ho

theorem Server.Linked.begin (hs : s.Linked) (env : Env) : (s.begin env).Linked :=
  hs.of_eq rfl rfl fun _ => rfl

/-- A program whose kinds all keep the link keeps it. -/
theorem linked_of_stays {α : Type} {K : List Kind} {x : Game α} (hx : Stays K x)
    (hK : ∀ k ∈ K, k.keepsLink = true) (hs : s.Linked) : wp x (fun _ => Linked) (fun _ => Linked) s :=
  hx.invariant (fun k hk _ _ h => Kind.linked h (hK k hk)) hs

/-- Whoever leaves has no team any more when their profile goes. -/
theorem wp_leaveTeam_linked (h : s.Linked) : wp (leaveTeam p)
    (fun _ t => t.Linked ∧ t.Teamless p) (fun _ _ => False) s := by
  simp only [leaveTeam, Profile.ref, wp_bind, wp_gets, wp_orUndefined, wp_when]
  intro pr hpr
  split
  case isTrue hset =>
    have hquit := wp_quit_linked h hpr hset
    rw [wp_bind] at hquit
    exact wp_mono hquit (fun _ u hu => wp_mono hu (fun _ v hv => ⟨hv.1, hv.2.1⟩)
      fun _ _ hf => hf) (fun _ _ hf => hf)
  case isFalse hset =>
    exact ⟨h, fun o ho => by simp_all⟩

theorem wp_endSession_linked (h : s.Linked) :
    wp (endSession p) (fun _ => Linked) (fun _ => Linked) s := by
  rw [endSession, wp_bind]
  refine wp_mono (wp_leaveTeam_linked h) (fun _ u hu => ?_) (fun _ _ hf => hf.elim)
  have hstay : Stays [.output, .streamer, .destroyTimer, .eraseProfile p] (do
      let env ← gets (·.env)
      sendClientMessageToAll (.disconnected (env.name p))
      native (.sendDeathMessage invalidPlayerId p 201)
      profileMgrRemove p) := inferInstance
  refine wp_mono (hstay.invariant (fun k hk a b hab => Kind.linked_teamless hab ?_) hu)
    (fun _ _ hv => hv.1) (fun _ _ hv => hv.1)
  simp only [List.mem_cons, List.not_mem_nil, or_false] at hk
  rcases hk with rfl | rfl | rfl | rfl <;> simp [Kind.keepsLink]

theorem linked_playerDisconnect {reason : ℤ} (h : s.Linked) :
    wp (Event.run (.playerDisconnect p reason)) (fun _ => Linked) (fun _ => Linked) s := by
  have hnative : ({ s with trace := .native (.streamerOnPlayerDisconnect p reason) :: s.trace } :
      Server).Linked := h.of_eq rfl rfl fun _ => rfl
  refine wp_playerDisconnect.mpr ⟨fun _ => hnative, fun pr hpr => ?_⟩
  rw [wp_when]
  split
  · have hsync : Stays [.output, .database, .profileItem, .profileLoaded, .update .profile]
        (Profile.sync p) := inferInstance
    exact wp_mono (linked_of_stays hsync (by simp [Kind.keepsLink]) hnative)
      (fun _ _ => wp_endSession_linked) (fun _ _ hu => hu)
  · exact wp_endSession_linked hnative

/-- The three other choices of `DIALOG_SERVER_MAIN` leave the teams alone. -/
theorem stays_serverMain_other {listitem : ℤ} (h : listitem ≠ 0) :
    Stays [.output, .sampZones, .database, .streamer, .counters, .config, .zones, .areas, .pickups,
      .properties, .readConfig, .reload .gangzone, .reload .property] (Dialog.serverMain listitem) := by
  unfold Dialog.serverMain
  split
  · exact absurd rfl h
  all_goals infer_instance

end Events

/-! ## Runs -/

namespace Event

/-- The event drops every registered team. -/
def reloadsTeams (s : Server) : Event → Bool
  | gameModeInit => true
  | dialogResponse p dialogid response listitem _ =>
    decide (dialog dialogid = some .serverMain) && decide (response = 1) && decide (listitem = 0) &&
      decide (p ∈ s.profiles)
  | _ => false

/-- The event leaves no player behind in a team: teams are reloaded while nobody has one,
only an empty team is removed, and who connects finds no profile with a team. -/
def sparesTeams (s : Server) (e : Event) : Bool :=
  (!e.reloadsTeams s || s.profiles.values.all fun pr => !pr.team.isSet) &&
  match e with
  | playerConnect p => (s.profiles.lookup p).all fun pr => !pr.team.isSet
  | teamRemove t => (s.teams.members.lookup t).all fun team => !t.isSet || !team.hasOnlineMember
  | _ => true

end Event

section Steps
open Server
variable {s t : Server} {p : ℤ} {e : Event} {env : Env}

theorem empty_of_values (h : (s.profiles.values.all fun pr => !pr.team.isSet) = true) :
    s.Empty := by
  intro p o ho
  obtain ⟨pr, hpr, rfl⟩ := Option.map_eq_some_iff.mp ho
  have hmem : pr ∈ s.profiles.values := Map.mem_values_of_lookup hpr
  simpa using List.all_eq_true.mp h pr hmem

theorem linked_dialogResponse {dialogid response listitem : ℤ} {inputtext : Text}
    (h : Event.sparesTeams s (.dialogResponse p dialogid response listitem inputtext) = true)
    (hs : s.Linked) : wp (Event.run (.dialogResponse p dialogid response listitem inputtext))
      (fun _ => Linked) (fun _ => Linked) (s.begin env) := by
  refine wp_dialogResponse (fun _ _ => linked_output) (hs.begin env) fun pr d hpr hd hresponse => ?_
  have hstay := Dialog.stays_callback p listitem inputtext d
  have hmem : p ∈ s.profiles := Map.mem_iff_lookup.mpr ⟨pr, hpr⟩
  cases d
  case teamSelect =>
    simp only [Dialog.callback, Dialog.teamSelect, wp_bind, wp_gets]
    have hshow : Stays [.output] (showDialog p .roleSelect .roleList) := inferInstance
    exact wp_mono (wp_changeTeam_linked (hs.begin env))
      (fun _ u hu => linked_of_stays hshow (by simp [Kind.keepsLink]) hu) (fun _ _ hu => hu)
  case serverMain =>
    by_cases hitem : listitem = 0
    · have hresponse : response = 1 := by simpa [Dialog.mustResponse] using hresponse
      have hempty : s.Empty := empty_of_values (by
        simpa [Event.sparesTeams, Event.reloadsTeams, hd, hitem, hmem, hresponse] using h)
      refine wp_mono (hstay.invariant (fun k hk a b hab => Kind.linked_empty hab ?_)
        ⟨hs.begin env, hempty⟩) (fun _ _ hu => hu.1) (fun _ _ hu => hu.1)
      revert k
      simp [Dialog.footprint, Kind.keepsLink]
    · exact linked_of_stays (stays_serverMain_other hitem) (by simp [Kind.keepsLink]) (hs.begin env)
  all_goals
    exact linked_of_stays hstay (by simp [Dialog.footprint, Kind.keepsLink]) (hs.begin env)

/-- A team that lists nobody can go. -/
theorem linked_erase {o id : OID} (hs : s.Linked) (hid : id = o)
    (hnone : ∀ q, o.isSet = true → ¬s.Lists o q) :
    ({ s with teams := { s.teams with members := s.teams.members.erase id } } : Server).Linked := by
  subst hid
  refine ⟨fun o team hteam => ?_, fun p o ho hset => ?_, fun p o hset hlists => ?_⟩
  · simp only [Map.lookup_erase_ite] at hteam
    split at hteam
    · cases hteam
    · exact hs.keyed o team hteam
  · obtain ⟨team, hteam, hin, hnumber⟩ := hs.names p o ho hset
    have hne : o ≠ id := by
      rintro rfl
      exact hnone p hset ⟨team, hteam, hin⟩
    exact ⟨team, by simpa [Map.lookup_erase_ite, hne] using hteam, hin, hnumber⟩
  · obtain ⟨team, hteam, hin⟩ := hlists
    simp only [Map.lookup_erase_ite] at hteam
    split at hteam
    · cases hteam
    · exact hs.listed p o hset ⟨team, hteam, hin⟩

theorem linked_teamRemove {o : OID} (h : Event.sparesTeams s (.teamRemove o) = true)
    (hs : s.Linked) : wp (Event.run (.teamRemove o)) (fun _ => Linked) (fun _ => Linked)
      (s.begin env) := by
  simp only [Event.run, discard, TeamManager.remove, Team.ref, TeamManager.returnId, wp_bind,
    wp_gets, wp_orUndefined, wp_ite, wp_modify, wp_pure, id_eq]
  intro team hteam
  have hnone : ∀ q, o.isSet = true → team.inGame q = false := by
    intro q hset
    have hteam' : s.teams.members.lookup o = some team := hteam
    have hkeys : team.onlineplayers.keys = [] := by
      simpa [Event.sparesTeams, Event.reloadsTeams, hteam', hset, Team.hasOnlineMember] using h
    simp [Team.inGame, AList.mem_keys, hkeys]
  split
  · refine (linked_erase (hs.begin env) (hs.keyed o team hteam) fun q hset hlists => ?_).of_eq
      rfl rfl fun _ => rfl
    obtain ⟨team', hteam', hin⟩ := hlists
    obtain rfl : team = team' := Option.some.inj (hteam.symm.trans hteam')
    simp [hnone q hset] at hin
  · exact hs.begin env

/-- A step that spares the teams keeps the link. -/
theorem linked_step (h : s.step (e, env) = some t) (hC : e.sparesTeams s = true) (hs : s.Linked) :
    t.Linked := by
  have hbegin := hs.begin env
  cases e
  case gameModeInit =>
    have hempty : s.Empty := empty_of_values (by
      simpa [Event.sparesTeams, Event.reloadsTeams] using hC)
    refine (step_invariant (I := fun u => u.Linked ∧ u.Empty) h (fun k hk a b hab =>
      Kind.linked_empty hab ?_) ⟨hbegin, hempty⟩).1
    revert k
    simp [Event.footprint, Kind.keepsLink]
  case playerConnect p =>
    have hteamless : s.Teamless p := fun o ho => by
      obtain ⟨pr, hpr, rfl⟩ := Option.map_eq_some_iff.mp ho
      simpa [Event.sparesTeams, Event.reloadsTeams, hpr] using hC
    refine (step_invariant (I := fun u => u.Linked ∧ u.Teamless p) h (fun k hk a b hab =>
      Kind.linked_teamless hab ?_) ⟨hbegin, hteamless⟩).1
    revert k
    simp [Event.footprint, Kind.keepsLink]
  case playerDisconnect p reason => exact of_step h (linked_playerDisconnect hbegin)
  case dialogResponse p dialogid response listitem inputtext =>
    exact of_step h (linked_dialogResponse hC hs)
  case teamRemove o => exact of_step h (linked_teamRemove hC hs)
  case playerCommandText p cmdtext =>
    refine step_invariant h (fun k hk a b hab => Kind.linked hab ?_) hbegin
    revert k
    simp [Event.footprint, CommandId.all, Command.footprint, Kind.keepsLink]
  all_goals
    exact step_invariant h (fun k hk _ _ hab => Kind.linked hab
      (by revert k; simp [Event.footprint, Kind.keepsLink])) hbegin

end Steps

/-- In every run that spares the teams, the three records of who is in which team agree. -/
theorem teams_agree (platform : Platform) (config : Config) (docs : Collection → List Document)
    (is : List (Event × Env))
    (h : Meets Server.step (fun s i => i.1.sparesTeams s = true)
      (Server.initial platform config docs) is) :
    AllSteps Server.step (fun _ _ t => t.TeamsAgree) (Server.initial platform config docs) is := by
  refine AllSteps.of_invariant (I := Server.Linked) (fun s i t hI hstep hC => ?_) ?_ h
  · have hlinked : t.Linked := linked_step hstep hC hI
    exact ⟨hlinked.teamsAgree, hlinked⟩
  · exact ⟨fun t team hteam => by simp [Server.initial] at hteam,
      fun p t ht => by simp [Server.initial] at ht,
      fun p t ht hlists => by obtain ⟨team, hteam, -⟩ := hlists; simp [Server.initial] at hteam⟩

/-- Two players join and one of them leaves again. -/
theorem teams_agree_two_players :
    AllSteps Server.step (fun _ _ t => t.TeamsAgree) Demo.initial
      (Demo.quietly [.gameModeInit, .playerConnect 0, .playerConnect 1, Demo.chooseTeam 0,
        Demo.chooseTeam 1, .playerDisconnect 0 1, .teamAdd OID.unset (ascii "other") 3]) :=
  teams_agree _ _ _ _ (meets_of_check (b := fun s (i : Event × Env) => i.1.sparesTeams s) (fun _ _ h => h)
    (by decide +kernel))

/-- A test for the profile and the team of one player. -/
def agreesOn (p : ℤ) (t : OID) (s : Server) : Bool :=
  (s.profiles.lookup p).all fun pr =>
    decide (pr.team = t) == (s.teams.members.lookup t).any fun team => team.inGame p

theorem agreesOn_of_teamsAgree {s : Server} (h : s.TeamsAgree) (p : ℤ) {t : OID}
    (ht : t.isSet = true) : agreesOn p t s = true := by
  cases hpr : s.profiles.lookup p with
  | none => simp [agreesOn, hpr]
  | some pr =>
    have hany : ((s.teams.members.lookup t).any fun team => team.inGame p) = true ↔ pr.team = t :=
      (Option.any_eq_true _ _).trans (h.membership p pr t hpr ht).symm
    by_cases hteam : pr.team = t
    · simp [agreesOn, hpr, hteam, hany.mpr hteam]
    · simp [agreesOn, hpr, hteam, Bool.eq_false_iff.mpr (mt hany.mp hteam)]

/-- After a reload the profile of a member still names the team, which lists nobody. -/
theorem reload_forgets_members :
    ¬∀ is, AllSteps Server.step (fun _ _ t => t.TeamsAgree) Demo.initial is := by
  intro hall
  exact not_allSteps (T := fun _ _ t => Server.TeamsAgree t)
    (Demo.quietly [.gameModeInit, .playerConnect 0, Demo.chooseTeam 0]) (Demo.reloadTeams 0, Demo.env)
    (fun _ t => agreesOn 0 Demo.team t) (fun _ _ h => agreesOn_of_teamsAgree h 0 (by decide))
    (by decide +kernel) (hall _)

end FreshCity
