import FreshCity.Money
import FreshCity.Saving

/-!
# What a login restores

A save writes the money and the score a player has. A login gives the player what
the archive says, on top of what the session has already.
-/
namespace FreshCity
open Imperative Prog Run

namespace Profile

/-- The archive `ApplyDataToPlayer` reads. An empty one is loaded first. -/
def usedArchive (pr : Profile) : Option Document :=
  if pr.gamearchive.isEmpty then
    if wellFormed pr.item.rawdata then (pr.item.rawdata.at? [.archive, .gtasa]).bind asObj else none
  else some pr.gamearchive

/-- A number of the gaming record in an archive. -/
def recorded (archive : Document) (k : Field) : Option ℤ :=
  ((archive.field? .attribute).bind asObj).bind fun attr => readInt (Doc.field? attr k)

def archived (pr : Profile) (k : Field) : Option ℤ := pr.usedArchive.bind fun a => recorded a k

/-- A profile once money and score were added to what the session has. -/
def credited (platform : Platform) (pr : Profile) (money score : ℤ) : Profile :=
  { pr with gamedata := { pr.gamedata with
    money := platform.int (pr.gamedata.money + money)
    score := platform.int (pr.gamedata.score + score) } }

/-- The gaming record of a profile has everything that is given to the player. -/
def canApply (pr : Profile) : Bool :=
  [Field.color, Field.fightingstyle, Field.money, Field.score].all fun k => (pr.archived k).isSome

/-- The login handler returns: the password is right, and there is a gaming record. -/
def canLogin (s : Server) (pr : Profile) (inputtext : Text) : Bool :=
  decide (pr.authPassword s.platform inputtext = some true) &&
    (decide (pr.auth.autosavetimer ≠ 0) || (s.config.int .autosave).isSome) && pr.canApply

end Profile

/-- A number of the gaming record in the stored document of a profile. -/
def Server.stored (s : Server) (pr : Profile) (k : Field) : Option ℤ :=
  ((s.database.docs .profile).find? (byId pr.item.uniqueid)).bind fun doc =>
    ((doc.at? [.archive, .gtasa]).bind asObj).bind fun archive => Profile.recorded archive k

/-! ## The handler -/

/-- A registered profile has the document, the archive, the money and the score of `pr`. -/
structure Server.Session (s : Server) (p : ℤ) (pr : Profile) (t : Server) : Prop where
  platform : t.platform = s.platform
  database : t.database = s.database
  profile : ∃ pr', t.profiles.lookup p = some pr' ∧ pr'.item = pr.item ∧
    pr'.usedArchive = pr.usedArchive ∧ pr'.gamedata.money = pr.gamedata.money ∧
    pr'.gamedata.score = pr.gamedata.score

namespace Profile
variable {s t : Server} {p : ℤ} {pr : Profile} {inputtext : Text}

/-- Loading a profile reads the archive of its document. -/
theorem wp_load (hpr : s.profiles.lookup p = some pr) :
    wp (load p) (fun _ t => wellFormed pr.item.rawdata = true ∧ ∃ pr' archive,
        t = { s with profiles := s.profiles.adjust p fun q => q.takeLoaded pr' } ∧
        (pr.item.rawdata.at? [.archive, .gtasa]).bind asObj = some archive ∧
        pr'.gamearchive = archive)
      (fun _ _ => wellFormed pr.item.rawdata = false) s := by
  rw [load, wp_focus]
  intro pr' hpr'
  obtain rfl := Option.some.inj (hpr.symm.trans hpr')
  have hreads : wp loadMemberData (fun _ q => ∃ archive, q.2 = s ∧
      (pr.item.rawdata.at? [.archive, .gtasa]).bind asObj = some archive ∧
      q.1.gamearchive = archive) (fun _ _ => True) (pr, s) := by
    simp only [loadMemberData, rethrowAs, check, wp_handle, wp_bind, wp_self, wp_shared, wp_gets,
      wp_orRaise, wp_assign, wp_ite, wp_raise, ite_self, implies_true, and_true]
    intro hash _ archive harchive deleted _ nickname _ level _ banned _
    exact ⟨archive, trivial, harchive, rfl⟩
  by_cases hwell : wellFormed pr.item.rawdata = true
  · have hreturns := wp_loadMemberData (s := s).mpr hwell
    refine wp_mono (wp_and hreads hreturns) (fun _ q hq => ?_) (fun _ _ hf => hf.2.elim)
    obtain ⟨⟨archive, hs, harchive, hq⟩, -⟩ := hq
    exact ⟨hwell, q.1, archive, by rw [hs], harchive, hq⟩
  · have hnot : ¬wp loadMemberData (fun _ _ => True) (fun _ _ => False) (pr, s) := fun h =>
      hwell (wp_loadMemberData.mp h)
    simp only [wp] at hnot ⊢
    cases hrun : loadMemberData (pr, s) <;> simp_all

theorem wp_setColor {color : ℤ} (h : s.Session p pr t) :
    wp (setColor p color) (fun _ => s.Session p pr) (fun _ _ => False) t := by
  obtain ⟨pr', hpr', hprofile⟩ := h.profile
  simp only [setColor, modifyGame, setPlayerColor, emit, wp_bind, wp_modify]
  exact ⟨h.platform, h.database, _, Map.lookup_adjust_self hpr' _, hprofile⟩

theorem wp_giveMoney_session {money : ℤ} (h : s.Session p pr t) :
    wp (giveMoney p money) (fun _ => s.Session p { pr with gamedata := { pr.gamedata with
      money := s.platform.int (pr.gamedata.money + money) } }) (fun _ _ => False) t := by
  obtain ⟨pr', hpr', hitem, hused, hmoney, hscore⟩ := h.profile
  refine wp_giveMoney hpr' fun trace => ⟨h.platform, h.database, _,
    Map.lookup_adjust_self hpr' _, hitem, hused, ?_, hscore⟩
  rw [h.platform, hmoney]

theorem wp_giveScore {score : ℤ} (h : s.Session p pr t) :
    wp (giveScore p score) (fun _ => s.Session p { pr with gamedata := { pr.gamedata with
      score := s.platform.int (pr.gamedata.score + score) } }) (fun _ _ => False) t := by
  obtain ⟨pr', hpr', hitem, hused, hmoney, hscore⟩ := h.profile
  simp only [giveScore, setScore, modifyGame, setPlayerScore, ref, emit, wp_bind, wp_gets,
    wp_orUndefined, wp_modify, hpr', Option.some.injEq, forall_eq']
  refine ⟨h.platform, h.database, _, Map.lookup_adjust_self hpr' _, hitem, hused, hmoney, ?_⟩
  rw [h.platform, hscore]

/-- What `ApplyDataToPlayer` does once there is an archive. -/
theorem wp_applyRecord {q : Profile} (h : s.Session p pr t) (hq : t.profiles.lookup p = some q)
    (harchive : pr.usedArchive = some q.gamearchive) :
    wp (rethrowAs .incompleteGamingRecord do
        let pr ← ref p
        let attr ← check ((pr.gamearchive.field? .attribute).bind asObj)
        let color ← check (readInt (Doc.field? attr .color))
        setColor p color
        let style ← check (readInt (Doc.field? attr .fightingstyle))
        native (.setPlayerFightingStyle p style)
        let money ← check (readInt (Doc.field? attr .money))
        giveMoney p money
        let score ← check (readInt (Doc.field? attr .score))
        giveScore p score)
      (fun _ u => pr.canApply = true ∧ ∃ money score, pr.archived .money = some money ∧
        pr.archived .score = some score ∧ s.Session p (pr.credited s.platform money score) u)
      (fun _ _ => pr.canApply = false) t := by
  have hrethrow : ∀ (e : Exn) (u : Server), pr.canApply = false →
      wp (if e = .userException then raise (.runtimeError .incompleteGamingRecord) else raise e)
        (fun (_ : Unit) u => pr.canApply = true ∧ ∃ money score, pr.archived .money = some money ∧
          pr.archived .score = some score ∧ s.Session p (pr.credited s.platform money score) u)
        (fun _ _ => pr.canApply = false) u := by
    intro e u hno
    rw [wp_ite]
    split <;> exact hno
  rw [rethrowAs, wp_handle]
  refine wp_mono (E := fun _ _ => pr.canApply = false) ?_ (fun _ _ hu => hu) fun e u => hrethrow e u
  rw [wp_bind, ref, wp_bind, wp_gets, hq, orUndefined_some, wp_pure]
  have hread : ∀ k, pr.archived k = ((q.gamearchive.field? .attribute).bind asObj).bind
      fun attr => readInt (Doc.field? attr k) := fun k => by rw [archived, harchive]; rfl
  simp only [canApply, hread]
  rcases (q.gamearchive.field? .attribute).bind asObj with _ | attr
  · simp
  rw [wp_bind]
  simp only [check, orRaise_some, wp_pure, Option.bind_some]
  rcases hc : readInt (Doc.field? attr .color) with _ | color
  · simp [hc]
  rw [wp_bind, orRaise_some, wp_pure, wp_bind]
  refine wp_mono (wp_setColor h) (fun _ u hu => ?_) (fun _ _ hf => hf.elim)
  rcases hs : readInt (Doc.field? attr .fightingstyle) with _ | style
  · simp [hc, hs]
  rw [wp_bind, orRaise_some, wp_pure, wp_bind, native, emit, wp_modify]
  rcases hm : readInt (Doc.field? attr .money) with _ | money
  · simp [hc, hs, hm]
  rw [wp_bind, orRaise_some, wp_pure, wp_bind]
  have hsession : s.Session p pr { u with trace := .native (.setPlayerFightingStyle p style) :: u.trace } :=
    ⟨hu.platform, hu.database, hu.profile⟩
  refine wp_mono (wp_giveMoney_session hsession)
    (fun _ u hu => ?_) (fun _ _ hf => hf.elim)
  rcases hsc : readInt (Doc.field? attr .score) with _ | score
  · simp [hc, hs, hm, hsc]
  rw [wp_bind, orRaise_some, wp_pure]
  refine wp_mono (wp_giveScore hu) (fun _ u hu => ?_) (fun _ _ hf => hf.elim)
  exact ⟨by simp [hc, hs, hm, hsc], money, score, rfl, rfl, hu⟩

/-- `ApplyDataToPlayer` adds the record to what the session has, or finds none. -/
theorem wp_applyDataToPlayer (h : s.Session p pr t) :
    wp (applyDataToPlayer p)
      (fun _ u => pr.canApply = true ∧ ∃ money score, pr.archived .money = some money ∧
        pr.archived .score = some score ∧ s.Session p (pr.credited s.platform money score) u)
      (fun _ _ => pr.canApply = false) t := by
  obtain ⟨q, hq, hitem, hused, hmoney, hscore⟩ := h.profile
  rw [applyDataToPlayer, wp_bind, ref, wp_bind, wp_gets, hq, orUndefined_some, wp_pure, wp_bind,
    wp_when]
  by_cases hempty : q.gamearchive.isEmpty = true
  · rw [if_pos hempty]
    refine wp_mono (wp_load hq) (fun _ u hu => ?_) (fun _ _ hwell => ?_)
    · obtain ⟨hwell, loaded, archive, rfl, harchive, hloaded⟩ := hu
      have hchoice : q.usedArchive = some archive := by
        rw [usedArchive, if_pos hempty, if_pos hwell, harchive]
      have hnew : (q.takeLoaded loaded).usedArchive = some archive := by
        simp only [usedArchive, takeLoaded, hloaded, hwell, if_true, harchive, ite_self]
      refine wp_applyRecord ⟨h.platform, h.database, q.takeLoaded loaded,
        Map.lookup_adjust_self hq _, hitem, ?_, hmoney, hscore⟩ (Map.lookup_adjust_self hq _) ?_
      · rw [hnew, ← hused, hchoice]
      · rw [← hused, hchoice, ← hloaded]
        rfl
    · have hnone : pr.usedArchive = none := by
        rw [← hused, usedArchive, if_pos hempty, hwell, if_neg Bool.false_ne_true]
      simp [canApply, archived, hnone]
  · rw [if_neg hempty]
    refine wp_applyRecord h hq ?_
    rw [← hused, usedArchive, if_neg hempty]

/-- `SetSignedIn` leaves what the session has alone. -/
theorem wp_setSignedIn (h : s.profiles.lookup p = some pr) :
    wp (setSignedIn p true)
      (fun _ u => (pr.auth.autosavetimer = 0 → (s.config.int .autosave).isSome = true) ∧
        s.Session p pr u)
      (fun _ _ => pr.auth.autosavetimer = 0 ∧ s.config.int .autosave = none) s := by
  simp only [setSignedIn, modifyAuth, ref, configInt, createTimer, wp_bind, wp_gets, wp_modify,
    wp_orUndefined, wp_when, wp_orRaise, Map.lookup_adjust, if_true, h, Option.map_some,
    Option.some.injEq, forall_eq', true_and]
  split
  case isTrue hzero =>
    refine ⟨fun minutes hminutes => ⟨fun _ => by rw [hminutes]; rfl, ?_⟩, fun hnone => ⟨hzero, hnone⟩⟩
    exact ⟨rfl, rfl, _, Map.lookup_adjust_self (Map.lookup_adjust_self h _) _, rfl, rfl, rfl, rfl⟩
  case isFalse hset =>
    exact ⟨fun hzero => absurd hzero hset, rfl, rfl, _, Map.lookup_adjust_self h _, rfl, rfl, rfl, rfl⟩

end Profile

/-- The login handler returns exactly if the profile can log in, and then adds the record to
what the session has. -/
theorem wp_profileLogin {s : Server} {p : ℤ} {pr : Profile} {inputtext : Text}
    (h : s.profiles.lookup p = some pr) :
    wp (Dialog.profileLogin p inputtext)
      (fun _ u => pr.canLogin s inputtext = true ∧ ∃ money score, pr.archived .money = some money ∧
        pr.archived .score = some score ∧ s.Session p (pr.credited s.platform money score) u)
      (fun _ _ => pr.canLogin s inputtext = false) s := by
  rw [Dialog.profileLogin, wp_bind, wp_gets, wp_bind, Profile.ref, wp_bind, wp_gets, h,
    orUndefined_some, wp_pure, wp_bind, wp_orUndefined]
  intro accepted haccepted
  rw [wp_bind, wp_when]
  cases accepted with
  | false =>
    simp only [Bool.not_false, if_true, showDialog, emit, wp_bind, wp_raiseIf, wp_modify, wp_raise]
    split <;> simp [Profile.canLogin, haccepted]
  | true =>
    simp only [Bool.not_true, Bool.false_eq_true, if_false]
    rw [wp_bind]
    refine wp_mono (Profile.wp_setSignedIn h) (fun _ u hu => ?_) (fun _ _ hno => ?_)
    · rw [wp_bind]
      refine wp_mono (Profile.wp_applyDataToPlayer hu.2) (fun _ v hv => ?_) (fun _ _ hno => ?_)
      · obtain ⟨hcan, hrestored⟩ := hv
        obtain ⟨money, score, hm, hsc, hw⟩ := hrestored
        refine ⟨?_, money, score, hm, hsc, hw.platform, hw.database, hw.profile⟩
        have htimer : pr.auth.autosavetimer ≠ 0 ∨ (s.config.int .autosave).isSome = true := by
          by_cases hzero : pr.auth.autosavetimer = 0
          · exact .inr (hu.1 hzero)
          · exact .inl hzero
        simpa [Profile.canLogin, haccepted, hcan] using htimer
      · simp [Profile.canLogin, hno]
    · simp [Profile.canLogin, hno.1, hno.2]

/-! ## Runs -/

namespace Server

/-- A player has the money and the score of the stored document. -/
def HoldsStored (t : Server) (p : ℤ) : Prop :=
  ∀ pr, t.profiles.lookup p = some pr →
    t.stored pr .money = some pr.gamedata.money ∧ t.stored pr .score = some pr.gamedata.score

/-- Whenever the handler of the login dialog returns, its player has what is stored. -/
def LoginRestores (s : Server) (i : Event × Env) (t : Server) : Prop :=
  ∀ p dialogid response listitem inputtext,
    i.1 = .dialogResponse p dialogid response listitem inputtext →
    Event.dialog dialogid = some .profileLogin →
    (Dialog.profileLogin p inputtext (s.begin i.2)).value?.isSome = true → t.HoldsStored p

/-- What a session has and what the archive says comes to what is stored. -/
def addsUp (s : Server) (pr : Profile) : Bool :=
  decide ((pr.archived .money).map (fun money => s.platform.int (pr.gamedata.money + money)) =
    s.stored pr .money) &&
  decide ((pr.archived .score).map (fun score => s.platform.int (pr.gamedata.score + score)) =
    s.stored pr .score)

end Server

/-- A response to the login dialog that is accepted is given where the sums come out. -/
def Event.restores (s : Server) : Event → Bool
  | dialogResponse p dialogid _ _ inputtext =>
    decide (dialog dialogid ≠ some .profileLogin) || (s.profiles.lookup p).all fun pr =>
      !pr.canLogin s inputtext || s.addsUp pr
  | _ => true

section Runs
open Server
variable {s t : Server} {env : Env}

/-- A response to the login dialog ends where its handler ends. -/
theorem state_of_login {p dialogid response listitem : ℤ} {inputtext : Text} {pr : Profile}
    {P : Server → Prop} (hd : Event.dialog dialogid = some .profileLogin)
    (hpr : s.profiles.lookup p = some pr)
    (h : s.step (.dialogResponse p dialogid response listitem inputtext, env) = some t)
    (hP : wp (Dialog.profileLogin p inputtext) (fun _ => P)
      (fun _ u => ∀ report, P { u with trace := report :: u.trace }) (s.begin env)) : P t := by
  refine of_step h ?_
  have hd' : (DialogId.ofNumber dialogid).filter DialogId.isRegistered = some .profileLogin := hd
  have hpr' : (s.begin env).profiles.lookup p = some pr := hpr
  rw [Event.run, wp_discard, onDialogResponse, wp_bind, reported, wp_handle, dialogMgrExec, hd',
    orRaise_some, wp_bind, wp_pure, wp_when, if_pos (by rfl), wp_bind, profileMgr, wp_bind, wp_gets,
    hpr', getItem, orRaise_some, wp_pure]
  exact wp_mono hP (fun _ _ hq => hq) (fun _ _ he => he _)

/-- The sums come out exactly if the player has what is stored afterwards. -/
theorem holdsStored_iff {p money score : ℤ} {pr : Profile} {u : Server}
    (hmoney : pr.archived .money = some money) (hscore : pr.archived .score = some score)
    (hu : s.Session p (pr.credited s.platform money score) u) :
    u.HoldsStored p ↔ s.addsUp pr = true := by
  obtain ⟨pr', hpr', hitem, -, hm, hsc⟩ := hu.profile
  have hstored : ∀ k, u.stored pr' k = s.stored pr k := fun k => by
    rw [stored, stored, hu.database, hitem]
    rfl
  simp only [HoldsStored, hpr', Option.some.injEq, forall_eq', hstored, hm, hsc, addsUp, hmoney,
    hscore, Option.map_some, Bool.and_eq_true, decide_eq_true_eq, Profile.credited,
    eq_comm (a := s.stored pr _)]

/-- A login restores what is stored exactly if the sums come out. -/
theorem loginRestores_iff {i : Event × Env} (h : s.step i = some t) :
    s.LoginRestores i t ↔ i.1.restores s = true := by
  obtain ⟨e, env⟩ := i
  cases e
  case dialogResponse p dialogid response listitem inputtext =>
    by_cases hd : Event.dialog dialogid = some .profileLogin
    case neg =>
      refine iff_of_true ?_ (by simp [Event.restores, hd])
      rintro _ _ _ _ _ ⟨⟩ hlogin
      exact absurd hlogin hd
    cases hpr : s.profiles.lookup p with
    | none =>
      refine iff_of_true ?_ (by simp [Event.restores, hpr])
      rintro _ _ _ _ _ ⟨⟩ - hvalue
      have hpr' : (s.begin env).profiles.lookup p = none := hpr
      simp [Dialog.profileLogin, Profile.ref, bind_apply, hpr'] at hvalue
    | some pr =>
      have hpr' : (s.begin env).profiles.lookup p = some pr := hpr
      have hspec := @wp_profileLogin _ _ _ inputtext hpr'
      cases hrun : Dialog.profileLogin p inputtext (s.begin env) with
      | ok a u =>
        rw [wp_of_ok hrun] at hspec
        obtain ⟨hcan, money, score, hmoney, hscore, hu⟩ := hspec
        have htu : t = u := state_of_login (P := fun v => v = u) hd hpr h ((wp_of_ok hrun).mpr rfl)
        have hiff : t.HoldsStored p ↔ s.addsUp pr = true := htu ▸
          holdsStored_iff (s := s.begin env) hmoney hscore hu
        have hcan' : pr.canLogin s inputtext = true := hcan
        have hC : (Event.dialogResponse p dialogid response listitem inputtext).restores s =
            s.addsUp pr := by simp [Event.restores, hd, hpr, hcan']
        rw [hC, ← hiff]
        constructor
        · exact fun hT => hT p dialogid response listitem inputtext rfl hd (by rw [hrun]; rfl)
        · rintro hholds _ _ _ _ _ ⟨⟩ - -
          exact hholds
      | error e u =>
        rw [wp_of_error hrun] at hspec
        have hcan : pr.canLogin s inputtext = false := hspec
        refine iff_of_true ?_ (by simp [Event.restores, hpr, hcan])
        rintro _ _ _ _ _ ⟨⟩ - hvalue
        rw [hrun] at hvalue
        cases hvalue
      | undefined =>
        exact (state_of_login (P := fun _ => False) hd hpr h (wp_of_undefined hrun)).elim
  all_goals
    refine iff_of_true ?_ rfl
    rintro _ _ _ _ _ ⟨⟩

end Runs
end FreshCity
