import FreshCity.Imperative.Run
import FreshCity.Views

/-!
# Operations for administrators

The command table keeps the menus of the server, of gang zones and of properties for players
of level 65535 who are signed in. The dialogs behind the menus answer to everyone.
-/
namespace FreshCity
open Imperative Prog Run

namespace Kind

/-- The outputs of the operations that are kept for administrators: a gang zone is destroyed, a
list or the configuration is reloaded, a property is created, a gang zone is begun. -/
def reserved : Kind → Bool
  | remove .gangzone => true
  | reload .team => true
  | reload .gangzone => true
  | reload .property => true
  | readConfig => true
  | insert .property => true
  | setVar .gzCreate => true
  | _ => false

end Kind

namespace Server

/-- An operation for administrators was executed. -/
def ranReserved (s : Server) : Bool := s.trace.any fun e => e.kind.reserved

/-- A player is signed in and has the level of the menus. -/
def isAdmin (s : Server) (p : ℤ) : Bool :=
  (s.profiles.lookup p).any fun pr => pr.auth.signedin && decide (65535 ≤ pr.auth.adminlevel)

end Server

/-- What a player's event executes for administrators, it executes for one. -/
def OnlyForAdmins (s : Server) (i : Event × Env) (t : Server) : Prop :=
  ∀ p, i.1.player = some p → t.ranReserved = true → s.isAdmin p = true

/-- A response to a dialog asks for an operation that is kept for administrators. -/
def asksReserved (s : Server) (env : Env) (pr : Profile) (listitem : ℤ) (inputtext : Text) :
    DialogId → Bool
  | .serverMain => decide (0 ≤ listitem) && decide (listitem ≤ 3)
  | .gangZoneRemove =>
    (s.zones.lookup ((scanInt inputtext).getD (env.uninitialised 5))).any fun zone =>
      zone.item.uniqueid.isSet
  | .gangZoneCreate => !inputtext.isEmpty
  | .propertyCreateProfit => pr.pvars.propertyCreation.isSome &&
    (s.platform.lexicalCastInt inputtext).isSome && s.config.collection .property
  | _ => false

/-- An event asks for no operation that is kept for administrators, or comes from one. -/
def asksAsAdmin (s : Server) (i : Event × Env) : Bool :=
  match i.1 with
  | .dialogResponse p dialogid response listitem inputtext =>
    !(decide (response = 1) && (Event.dialog dialogid).any fun d => (s.profiles.lookup p).any fun pr =>
      asksReserved s i.2 pr listitem inputtext d) || s.isAdmin p
  | _ => true

/-! ## The trace -/

section Trace
variable {k : Kind} {s t : Server} {K : List Kind} {α β : Type}

/-- Only the outputs of the reserved operations put one into the trace. -/
theorem Kind.ranReserved_eq (h : k.change s t) (hk : k.reserved = false) :
    t.ranReserved = s.ranReserved := by
  by_cases hw : k.writesTrace = false
  · rw [Server.ranReserved, (Kind.frame h).trace hw]
    rfl
  have hout : (∃ e : Effect, e.kind = k ∧ t = { s with trace := e :: s.trace }) →
      t.ranReserved = s.ranReserved := by
    rintro ⟨e, rfl, rfl⟩
    rw [Server.ranReserved, List.any_cons, hk, Bool.false_or]
    rfl
  cases k
  all_goals first
    | exact absurd rfl hw
    | exact hout h

/-- A program of other kinds executes none of the operations. -/
theorem wp_unreserved {x : Game α} (hx : Stays K x) (hK : ∀ k ∈ K, k.reserved = false)
    (hs : s.ranReserved = false) :
    wp x (fun _ t => t.ranReserved = false) (fun _ t => t.ranReserved = false) s :=
  hx.invariant (I := fun t => t.ranReserved = false)
    (fun k hk _ _ hab ha => (Kind.ranReserved_eq hab (hK k hk)).trans ha) hs

end Trace

/-! ## Dialogs -/

section Dialogs
open Dialog
variable {s : Server} {p listitem : ℤ} {inputtext : Text} {pr : Profile}

/-- A zone that is not there, or is not in the database, is not destroyed. -/
theorem wp_gangZoneRemove_unreserved (hs : s.ranReserved = false)
    (hasks : asksReserved s s.env pr listitem inputtext .gangZoneRemove = false) :
    wp (gangZoneRemove p inputtext) (fun _ t => t.ranReserved = false)
      (fun _ t => t.ranReserved = false) s := by
  simp only [gangZoneRemove, scanZone, gangZoneMgr, GangZoneItem.destroy, GangZoneItem.withItem,
    wp_bind, wp_gets, wp_pure, wp_orRaise, wp_focus, SaveableItem.destroy, wp_self, wp_raiseIf]
  refine ⟨fun zone hzone => fun item hitem => ?_, fun _ => hs⟩
  rw [hzone, Option.map_some, Option.some.injEq] at hitem
  have hunset : item.uniqueid.isSet = false := by
    simpa [asksReserved, hzone, hitem] using hasks
  rw [if_pos (by simp [hunset])]
  exact hs

/-- Without a complete description and a collection for it no property is created. -/
theorem wp_propertyCreateProfit_unreserved (hs : s.ranReserved = false)
    (hpr : s.profiles.lookup p = some pr)
    (hasks : asksReserved s s.env pr listitem inputtext .propertyCreateProfit = false) :
    wp (propertyCreateProfit p inputtext) (fun _ t => t.ranReserved = false)
      (fun _ t => t.ranReserved = false) s := by
  simp only [propertyCreateProfit, Profile.getVar, Profile.ref, modifyPropertyCreation,
    Profile.modifyVars, Property.ofNew, SaveableItem.unsaved, configCollection, wp_bind, wp_gets,
    wp_orUndefined, wp_orRaise, wp_modify, wp_raiseIf, hpr, Option.some.injEq, forall_eq']
  refine ⟨fun info hinfo => ⟨fun profit hprofit => ?_, fun _ => hs⟩, fun _ => hs⟩
  have hunknown : s.config.collection .property = false := by
    simpa [asksReserved, hinfo, hprofit] using hasks
  rw [if_pos (by simp [hunknown])]
  exact hs

/-- A handler executes none of the operations unless the response asks for one. -/
theorem wp_callback_unreserved {d : DialogId} (hs : s.ranReserved = false)
    (hpr : s.profiles.lookup p = some pr)
    (hasks : asksReserved s s.env pr listitem inputtext d = false) :
    wp (callback p listitem inputtext d) (fun _ t => t.ranReserved = false)
      (fun _ t => t.ranReserved = false) s := by
  cases d
  case serverMain =>
    simp only [asksReserved, Bool.and_eq_false_iff, decide_eq_false_iff_not] at hasks
    simp only [callback, serverMain]
    split
    case h_5 => exact hs
    all_goals omega
  case gangZoneRemove => exact wp_gangZoneRemove_unreserved hs hasks
  case gangZoneCreate =>
    have hempty : inputtext.isEmpty = true := by simpa [asksReserved] using hasks
    simpa [callback, Dialog.gangZoneCreate, hempty] using hs
  case propertyCreateProfit => exact wp_propertyCreateProfit_unreserved hs hpr hasks
  all_goals
    exact wp_unreserved (stays_callback p listitem inputtext _)
      (by simp [footprint, Kind.reserved]) hs

end Dialogs

/-! ## Events -/

/-- The level and the sign-in that the table asks for. -/
theorem CommandId.isAdmin_of_accepts {s : Server} {p : ℤ} {pr : Profile} {c : CommandId}
    (hpr : s.profiles.lookup p = some pr) (hc : c.accepts pr = true)
    (hflags : c.flags = needSignedIn) (hlevel : c.reqlevel = 65535) : s.isAdmin p = true := by
  have hneed : matchReq c.flags needSignedIn = true := by
    rw [hflags]
    decide
  simp only [accepts, hneed, hlevel, Bool.and_eq_true, Bool.true_and, Bool.not_not,
    decide_eq_true_eq] at hc
  rw [Server.isAdmin, hpr, Option.any_some, hc.1.1.1.2, decide_eq_true hc.2]
  rfl

section Events
variable {s t : Server} {e : Event} {env : Env} {p : ℤ}

/-- A command executes none of the operations, or is for administrators. -/
theorem commandText_onlyForAdmins {cmdtext : Text}
    (h : s.step (.playerCommandText p cmdtext, env) = some t) (hnot : s.isAdmin p = false) :
    t.ranReserved = false := by
  refine Server.of_step (P := fun t => t.ranReserved = false) h ?_
  refine wp_commandText (fun a b hab ha => (Kind.ranReserved_eq hab rfl).trans ha) rfl ?_
  intro pr cmd line c hpr _ _ haccepts
  cases c
  case importProperty =>
    have hadmin : s.isAdmin p = true := CommandId.isAdmin_of_accepts hpr haccepts rfl rfl
    rw [hadmin] at hnot
    cases hnot
  all_goals
    exact wp_unreserved (Command.stays_run p line _) (by simp [Command.footprint, Kind.reserved]) rfl

theorem dialogResponse_onlyForAdmins {dialogid response listitem : ℤ} {inputtext : Text}
    (h : s.step (.dialogResponse p dialogid response listitem inputtext, env) = some t)
    (hasks : asksAsAdmin s (.dialogResponse p dialogid response listitem inputtext, env) = true)
    (hnot : s.isAdmin p = false) : t.ranReserved = false := by
  refine Server.of_step (P := fun t => t.ranReserved = false) h ?_
  refine wp_dialogResponse (fun a b hab ha => (Kind.ranReserved_eq hab rfl).trans ha) rfl ?_
  intro pr d hpr hd hhandled
  refine wp_callback_unreserved rfl hpr ?_
  have hold : s.profiles.lookup p = some pr := hpr
  simp only [asksAsAdmin, hd, hold, hnot, Option.any_some, Bool.or_false, Bool.not_eq_true',
    Bool.and_eq_false_iff] at hasks
  rcases hasks with hclosed | hasks
  · have hmust : Dialog.mustResponse d = true := by simpa [hclosed] using hhandled
    cases d <;> first
      | rfl
      | cases hmust
  · exact hasks

/-- One event of a player executes the operations for administrators only. -/
theorem step_onlyForAdmins (h : s.step (e, env) = some t) (hasks : asksAsAdmin s (e, env) = true) :
    OnlyForAdmins s (e, env) t := by
  intro p hp hran
  by_contra hadmin
  have hnot : s.isAdmin p = false := eq_false_of_ne_true hadmin
  have hran' : t.ranReserved = false := by
    cases e
    case playerCommandText q cmdtext =>
      obtain rfl : q = p := Option.some.inj hp
      exact commandText_onlyForAdmins h hnot
    case dialogResponse q dialogid response listitem inputtext =>
      obtain rfl : q = p := Option.some.inj hp
      exact dialogResponse_onlyForAdmins h hasks hnot
    case gameModeInit => cases hp
    all_goals
      exact Server.of_step (P := fun t => t.ranReserved = false) h
        (wp_unreserved (Event.stays_run _) (by simp [Event.footprint, Kind.reserved]) rfl)
  rw [hran'] at hran
  cases hran

end Events

/-- In every run in which only administrators ask for them, the operations kept for administrators
are executed for administrators alone. -/
theorem reserved_only_for_admins (s : Server) (is : List (Event × Env))
    (h : Meets Server.step (fun s i => asksAsAdmin s i = true) s is) :
    AllSteps Server.step OnlyForAdmins s is :=
  AllSteps.of_invariant (I := fun _ => True)
    (fun _ _ _ _ hstep hasks => ⟨step_onlyForAdmins hstep hasks, trivial⟩) trivial h

namespace Demo

def administrator : Profile :=
  { item := {}, addr := 0, auth := { signedin := true, adminlevel := 65535 } }

/-- An administrator is connected and signed in. -/
def administered : Server :=
  { initial with profiles := (∅ : Map ℤ Profile).insert 0 administrator }

end Demo

/-- An administrator reloads the teams. -/
theorem admin_reloads_teams :
    AllSteps Server.step OnlyForAdmins Demo.administered
      (Demo.quietly [.playerConnect 1, Demo.chooseTeam 1, Demo.reloadTeams 0]) :=
  reserved_only_for_admins _ _
    (meets_of_check (b := fun s i => asksAsAdmin s i) (fun _ _ h => h) (by decide +kernel))

/-- Anyone who answers the dialog reloads the teams. -/
theorem stranger_reloads_teams :
    ¬∀ (s : Server) (is : List (Event × Env)), AllSteps Server.step OnlyForAdmins s is := by
  intro hall
  exact not_allSteps (T := OnlyForAdmins) (Demo.quietly [.gameModeInit, .playerConnect 0])
    (Demo.reloadTeams 0, Demo.env) (fun u t => !t.ranReserved || u.isAdmin 0)
    (fun u t hstep => by
      cases hran : t.ranReserved with
      | false => rfl
      | true => simpa using hstep 0 rfl hran)
    (by decide +kernel) (hall Demo.initial _)

end FreshCity
