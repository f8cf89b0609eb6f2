import FreshCity.Restoring
import FreshCity.StandardHash
import FreshCity.Totality

/-!
# Logins that fail

The login handler signs a player in, sets up the autosave timer and only then reads the
gaming record, field by field. A record that cannot be read leaves the player signed in,
with a timer that will save what the session has.
-/
namespace FreshCity
open Imperative Prog

/-! ## What a failed login must not change -/

/-- The pending autosave timers of the profile at an address. -/
def Server.autosaveTimers (s : Server) (addr : ℕ) : List Timer :=
  s.timers.filter fun tm => tm.callback = .autoSaveProfile addr

/-- What a login sets is as before. -/
structure Profile.SameLogin (pr pr' : Profile) : Prop where
  signedin : pr'.auth.signedin = pr.auth.signedin
  autosavetimer : pr'.auth.autosavetimer = pr.auth.autosavetimer
  money : pr'.gamedata.money = pr.gamedata.money
  score : pr'.gamedata.score = pr.gamedata.score

/-- What a login sets of a player, and the pending autosave timers, are as before. -/
def Server.SameLogin (s : Server) (p : ℤ) (t : Server) : Prop :=
  ∀ pr, s.profiles.lookup p = some pr →
    (∃ pr', t.profiles.lookup p = some pr' ∧ pr.SameLogin pr') ∧
      t.autosaveTimers pr.addr = s.autosaveTimers pr.addr

/-- A login that throws changes nothing. -/
def LoginFailsWhole (p : ℤ) (inputtext : Text) (s : Server) : Prop :=
  wp (Dialog.profileLogin p inputtext) (fun _ _ => True) (fun _ t => s.SameLogin p t) s

namespace Profile

/-- The money a player has when `ApplyDataToPlayer` throws: it is given before the score is read. -/
def moneyLeft (platform : Platform) (pr : Profile) : ℤ :=
  if [Field.color, Field.fightingstyle].all fun k => (pr.archived k).isSome then
    (pr.archived .money).elim pr.gamedata.money fun money => platform.int (pr.gamedata.money + money)
  else pr.gamedata.money

/-- Whether a failure of `ApplyDataToPlayer` would be the only thing that a login does: the
player is signed in already, without a timer where none can be set up, and otherwise with a
record from which no money can be read or none comes, the player's own being an `int`. -/
def failsIdle (s : Server) (pr : Profile) : Bool :=
  pr.auth.signedin && if pr.auth.autosavetimer = 0 then (s.config.int .autosave).isNone
    else !([Field.color, Field.fightingstyle].all fun k => (pr.archived k).isSome) ||
      (pr.archived .money).all fun money =>
        decide (s.platform.int money = 0) &&
          decide (s.platform.int pr.gamedata.money = pr.gamedata.money)

end Profile

/-- The password is wrong, or the login goes through, or it has nothing to change. -/
def Server.loginsWhole (s : Server) (p : ℤ) (inputtext : Text) : Bool :=
  (s.profiles.lookup p).all fun pr =>
    pr.authPassword s.platform inputtext ≠ some true || pr.canLogin s inputtext || pr.failsIdle s

namespace Profile
variable {s t : Server} {p : ℤ} {pr q : Profile} {inputtext : Text}

/-- The money is left as it is exactly if none of the record comes to it. -/
theorem moneyLeft_eq_iff : pr.moneyLeft s.platform = pr.gamedata.money ↔
    (!([Field.color, Field.fightingstyle].all fun k => (pr.archived k).isSome) ||
      (pr.archived .money).all fun money => decide (s.platform.int money = 0) &&
        decide (s.platform.int pr.gamedata.money = pr.gamedata.money)) = true := by
  rw [moneyLeft]
  by_cases hread : ([Field.color, Field.fightingstyle].all fun k => (pr.archived k).isSome) = true
  · rw [if_pos hread, hread]
    cases pr.archived .money with
    | none => simp
    | some money => simp [Platform.int_add_eq_iff, and_comm]
  · rw [if_neg hread, (Bool.not_eq_true _).mp hread]
    simp

theorem SameLogin.refl (pr : Profile) : pr.SameLogin pr := ⟨rfl, rfl, rfl, rfl⟩

/-- What a login sets is as that of `q` was, but for the money. -/
structure LeftWith (q : Profile) (p : ℤ) (t : Server) (money : ℤ) (u : Server) : Prop where
  platform : u.platform = t.platform
  timers : u.timers = t.timers
  profile : ∃ q', u.profiles.lookup p = some q' ∧
    { q with gamedata := { q.gamedata with money := money } }.SameLogin q'

theorem wp_setColor_left {money color : ℤ} (h : q.LeftWith p t money s) :
    wp (setColor p color) (fun _ => q.LeftWith p t money) (fun _ _ => False) s := by
  obtain ⟨q', hq', hsame⟩ := h.profile
  simp only [setColor, modifyGame, setPlayerColor, emit, wp_bind, wp_modify]
  exact ⟨h.platform, h.timers, _, Map.lookup_adjust_self hq' _,
    hsame.signedin, hsame.autosavetimer, hsame.money, hsame.score⟩

theorem wp_giveMoney_left {money amount : ℤ} (h : q.LeftWith p t money s) :
    wp (giveMoney p amount) (fun _ => q.LeftWith p t (t.platform.int (money + amount)))
      (fun _ _ => False) s := by
  obtain ⟨q', hq', hsame⟩ := h.profile
  refine wp_giveMoney hq' fun trace => ⟨h.platform, h.timers, _, Map.lookup_adjust_self hq' _,
    hsame.signedin, hsame.autosavetimer, ?_, hsame.score⟩
  have hmoney : q'.gamedata.money = money := hsame.money
  rw [← h.platform, ← hmoney]

/-- Loading a profile changes nothing that a login sets. -/
theorem wp_load_login : wp (load p)
    (fun _ u => ∃ loaded, u = { t with
      profiles := t.profiles.adjust p fun r => r.takeLoaded loaded })
    (fun _ u => ∃ loaded, u = { t with
      profiles := t.profiles.adjust p fun r => r.takeLoaded loaded }) t := by
  rw [load, wp_focus]
  intro q' _
  have hreads : wp loadMemberData (fun _ r => r.2 = t) (fun _ r => r.2 = t) (q', t) := by
    simp only [loadMemberData, rethrowAs, check, wp_handle, wp_bind, wp_self, wp_shared, wp_gets,
      wp_orRaise, wp_assign, wp_ite, wp_raise, ite_self, implies_true, and_true]
  exact wp_mono hreads (fun _ r hr => ⟨r.1, by rw [hr]⟩) (fun _ r hr => ⟨r.1, by rw [hr]⟩)

/-- What `ApplyDataToPlayer` reads first: the archive, which it loads if there is none. -/
theorem wp_loadArchive (hq : t.profiles.lookup p = some q) :
    wp (when q.gamearchive.isEmpty (load p))
      (fun _ u => q.LeftWith p t q.gamedata.money u ∧
        ∃ r, u.profiles.lookup p = some r ∧ q.usedArchive = some r.gamearchive)
      (fun _ u => q.LeftWith p t (q.moneyLeft t.platform) u) t := by
  rw [wp_when]
  split
  case isFalse hfull =>
    exact ⟨⟨rfl, rfl, q, hq, .refl q⟩, q, hq, by rw [usedArchive, if_neg hfull]⟩
  case isTrue hempty =>
    refine wp_mono (wp_and (wp_load hq) wp_load_login) (fun _ u hu => ?_) (fun _ u hu => ?_)
    · obtain ⟨⟨hwell, loaded, archive, rfl, harchive, rfl⟩, -⟩ := hu
      have hloaded := Map.lookup_adjust_self hq fun r => r.takeLoaded loaded
      refine ⟨⟨rfl, rfl, _, hloaded, ⟨rfl, rfl, rfl, rfl⟩⟩, _, hloaded, ?_⟩
      rw [usedArchive, if_pos hempty, if_pos hwell, harchive]
      rfl
    · obtain ⟨hwell, loaded, rfl⟩ := hu
      have hnone : q.usedArchive = none := by
        rw [usedArchive, if_pos hempty, hwell, if_neg Bool.false_ne_true]
      have hmoney : q.moneyLeft t.platform = q.gamedata.money := by
        simp [moneyLeft, archived, hnone]
      rw [hmoney]
      exact ⟨rfl, rfl, _, Map.lookup_adjust_self hq _, ⟨rfl, rfl, rfl, rfl⟩⟩

/-- A throw of `ApplyDataToPlayer` leaves the login as it is, but for the money. -/
theorem wp_applyDataToPlayer_left (hq : t.profiles.lookup p = some q) :
    wp (applyDataToPlayer p) (fun _ _ => True)
      (fun _ u => q.LeftWith p t (q.moneyLeft t.platform) u) t := by
  rw [applyDataToPlayer, wp_bind, ref, wp_bind, wp_gets, hq, orUndefined_some, wp_pure, wp_bind]
  refine wp_mono (wp_loadArchive hq) (fun _ v hv => ?_) (fun _ _ h => h)
  obtain ⟨hv, r, hr, harchive⟩ := hv
  rw [rethrowAs, wp_handle]
  have hrethrow : ∀ (e : Exn) (u : Server), q.LeftWith p t (q.moneyLeft t.platform) u →
      wp (if e = .userException then raise (.runtimeError .incompleteGamingRecord) else raise e)
        (fun (_ : Unit) _ => True) (fun _ u => q.LeftWith p t (q.moneyLeft t.platform) u) u := by
    intro e u hu
    rw [wp_ite]
    split <;> exact hu
  refine wp_mono (Q := fun _ _ => True) ?_ (fun _ _ _ => trivial) hrethrow
  rw [wp_bind, wp_bind, wp_gets, hr, orUndefined_some, wp_pure]
  have hread : ∀ k, q.archived k = ((r.gamearchive.field? .attribute).bind asObj).bind
      fun attr => readInt (Doc.field? attr k) := fun k => by rw [archived, harchive]; rfl
  simp only [moneyLeft, hread]
  rcases (r.gamearchive.field? .attribute).bind asObj with _ | attr
  · simpa using hv
  rw [wp_bind]
  simp only [check, orRaise_some, wp_pure, Option.bind_some]
  rcases hc : readInt (Doc.field? attr .color) with _ | color
  · simpa [hc] using hv
  rw [wp_bind, orRaise_some, wp_pure, wp_bind]
  refine wp_mono (wp_setColor_left hv) (fun _ u hu => ?_) (fun _ _ h => h.elim)
  rcases hs : readInt (Doc.field? attr .fightingstyle) with _ | style
  · simpa [hc, hs] using hu
  rw [wp_bind, orRaise_some, wp_pure, wp_bind, native, emit, wp_modify]
  have hu' : q.LeftWith p t q.gamedata.money
      { u with trace := .native (.setPlayerFightingStyle p style) :: u.trace } :=
    ⟨hu.platform, hu.timers, hu.profile⟩
  rcases hm : readInt (Doc.field? attr .money) with _ | money
  · simpa [hc, hs, hm] using hu'
  rw [wp_bind, orRaise_some, wp_pure, wp_bind]
  refine wp_mono (wp_giveMoney_left hu') (fun _ u hu => ?_) (fun _ _ h => h.elim)
  rcases hsc : readInt (Doc.field? attr .score) with _ | score
  · simpa [hc, hs, hm] using hu
  rw [wp_bind, orRaise_some, wp_pure]
  simp only [giveScore, setScore, modifyGame, setPlayerScore, ref, emit, wp_bind, wp_gets,
    wp_orUndefined, wp_modify, implies_true]

/-! ## The handler runs to its end -/

theorem defined_applyDataToPlayer (hq : t.profiles.lookup p = some q) :
    Defined (applyDataToPlayer p) t := by
  rw [applyDataToPlayer, defined_bind, ref, defined_bind, wp_bind, wp_gets, wp_gets, hq,
    orUndefined_some, wp_pure, defined_bind, defined_when]
  refine ⟨⟨defined_gets _, defined_pure _⟩, fun _ => ?_, ?_⟩
  · rw [load, defined_focus]
    exact ⟨q, hq, Total.defined _⟩
  refine wp_mono (wp_loadArchive hq) (fun _ u hu => ?_) (fun _ _ _ => trivial)
  obtain ⟨-, r, hr, -⟩ := hu
  rw [rethrowAs, defined_handle]
  refine ⟨?_, wp_mono (wp_true _) (fun _ _ _ => trivial) fun e u _ => ?_⟩
  · simp only [check, setColor, setPlayerColor, native, giveMoney, resetPlayerMoney,
      givePlayerMoney, giveScore, setScore, setPlayerScore, modifyGame, ref, emit, defined_bind,
      defined_gets, defined_modify, defined_orRaise, defined_orUndefined, wp_bind, wp_gets,
      wp_modify, wp_orRaise, wp_orUndefined, Map.lookup_adjust, hr, if_true, Option.map_some,
      Option.some.injEq, exists_eq', implies_true, and_true, true_and]
  · rw [defined_ite]
    split <;> exact defined_raise _

theorem defined_setSignedIn (hpr : s.profiles.lookup p = some pr) :
    Defined (setSignedIn p true) s := by
  simp only [setSignedIn, modifyAuth, ref, configInt, createTimer, emit, defined_bind,
    defined_when, defined_gets, defined_modify, defined_orRaise, defined_orUndefined,
    defined_pure, wp_bind, wp_gets, wp_modify, wp_orRaise, wp_orUndefined, wp_pure,
    Map.lookup_adjust, hpr, if_true, Option.map_some, Option.some.injEq, exists_eq', implies_true,
    and_true, true_and]

/-! ## The handler -/

theorem sameLogin_iff (hpr : s.profiles.lookup p = some pr) (hq : t.profiles.lookup p = some q) :
    s.SameLogin p t ↔ pr.SameLogin q ∧ t.autosaveTimers pr.addr = s.autosaveTimers pr.addr := by
  constructor
  · intro h
    obtain ⟨⟨q', hq', hsame⟩, htimers⟩ := h pr hpr
    obtain rfl := Option.some.inj (hq.symm.trans hq')
    exact ⟨hsame, htimers⟩
  · rintro ⟨hsame, htimers⟩ pr' hpr'
    obtain rfl := Option.some.inj (hpr.symm.trans hpr')
    exact ⟨⟨q, hq, hsame⟩, htimers⟩

/-- What `SetSignedIn` leaves: the player is signed in, with a timer if none was there. -/
structure SignedIn (pr : Profile) (s : Server) (p : ℤ) (q : Profile) (t : Server) : Prop where
  platform : t.platform = s.platform
  profile : t.profiles.lookup p = some q
  archive : q.usedArchive = pr.usedArchive
  gamedata : q.gamedata = pr.gamedata
  signedin : q.auth.signedin = true
  timer : pr.auth.autosavetimer = 0 → (s.config.int .autosave).isSome = true ∧
    ∃ tm, tm.callback = .autoSaveProfile pr.addr ∧ t.timers = tm :: s.timers
  kept : pr.auth.autosavetimer ≠ 0 →
    q.auth.autosavetimer = pr.auth.autosavetimer ∧ t.timers = s.timers

theorem wp_setSignedIn_login (hpr : s.profiles.lookup p = some pr) :
    wp (setSignedIn p true) (fun _ t => ∃ q, pr.SignedIn s p q t)
      (fun _ t => pr.auth.autosavetimer = 0 ∧ s.config.int .autosave = none ∧
        (s.SameLogin p t ↔ pr.auth.signedin = true)) s := by
  have hsigned := Map.lookup_adjust_self hpr fun q => { q with auth := { q.auth with signedin := true } }
  simp only [setSignedIn, modifyAuth, ref, configInt, createTimer, wp_bind, wp_gets, wp_modify,
    wp_orUndefined, wp_when, wp_orRaise, Map.lookup_adjust, if_true, hpr, Option.map_some,
    Option.some.injEq, forall_eq', true_and]
  split
  case isTrue hzero =>
    refine ⟨fun minutes hminutes => ⟨_, rfl, Map.lookup_adjust_self hsigned _, rfl, rfl, rfl,
      fun _ => ⟨by rw [hminutes]; rfl, _, rfl, rfl⟩, fun hne => absurd hzero hne⟩,
      fun hnone => ⟨hzero, hnone, ?_⟩⟩
    rw [sameLogin_iff hpr hsigned]
    exact ⟨fun h => h.1.signedin.symm, fun h => ⟨⟨h.symm, rfl, rfl, rfl⟩, rfl⟩⟩
  case isFalse hset =>
    exact ⟨_, rfl, hsigned, rfl, rfl, rfl, fun hzero => absurd hzero hset, fun _ => ⟨rfl, rfl⟩⟩

/-- A throw after the player was signed in leaves everything as it was exactly if the player was
signed in with a timer already, and no money was given. -/
theorem SignedIn.sameLogin_iff {u : Server} (h : pr.SignedIn s p q t)
    (hpr : s.profiles.lookup p = some pr) (hleft : q.LeftWith p t (q.moneyLeft t.platform) u) :
    s.SameLogin p u ↔ pr.failsIdle s = true := by
  obtain ⟨q', hq', hsame⟩ := hleft.profile
  have harchived : q.archived = pr.archived := by
    funext k
    rw [archived, archived, h.archive]
  have hmoney : q.moneyLeft t.platform = pr.moneyLeft s.platform := by
    rw [moneyLeft, moneyLeft, harchived, h.gamedata, h.platform]
  have hscore : q.gamedata.score = pr.gamedata.score := congrArg GameData.score h.gamedata
  rw [Profile.sameLogin_iff hpr hq', failsIdle]
  by_cases hzero : pr.auth.autosavetimer = 0
  · obtain ⟨hconfig, tm, hcallback, htimers⟩ := h.timer hzero
    obtain ⟨minutes, hminutes⟩ := Option.isSome_iff_exists.mp hconfig
    -- the new timer is pending
    refine iff_of_false (fun hkept => ?_) (by simp [hzero, hminutes])
    have hlength := congrArg List.length hkept.2
    simp [Server.autosaveTimers, hleft.timers, htimers, hcallback] at hlength
  · obtain ⟨htimer, htimers⟩ := h.kept hzero
    rw [if_neg hzero, Bool.and_eq_true, ← moneyLeft_eq_iff]
    have hsignedin := hsame.signedin.trans h.signedin
    constructor
    · rintro ⟨hpr', -⟩
      exact ⟨hpr'.signedin.symm.trans hsignedin,
        hmoney.symm.trans (hsame.money.symm.trans hpr'.money)⟩
    · rintro ⟨hin, hkept⟩
      refine ⟨⟨hsignedin.trans hin.symm, hsame.autosavetimer.trans htimer,
        hsame.money.trans (hmoney.trans hkept), hsame.score.trans hscore⟩, ?_⟩
      rw [Server.autosaveTimers, hleft.timers, htimers]
      rfl

/-- With the right password, the handler goes through or throws in one of its two parts. -/
theorem wp_profileLogin_accepted (hpr : s.profiles.lookup p = some pr)
    (haccepted : pr.authPassword s.platform inputtext = some true) :
    wp (Dialog.profileLogin p inputtext) (fun _ _ => True)
      (fun _ t => s.SameLogin p t ↔ pr.failsIdle s = true) s := by
  rw [Dialog.profileLogin, wp_bind, wp_gets, wp_bind, ref, wp_bind, wp_gets, hpr,
    orUndefined_some, wp_pure, wp_bind, haccepted, orUndefined_some, wp_pure, wp_bind,
    when_false (by simp), wp_pure, wp_bind]
  refine wp_mono (wp_setSignedIn_login hpr) (fun _ t ht => ?_) (fun _ t ht => ?_)
  · obtain ⟨q, hq⟩ := ht
    rw [wp_bind]
    exact wp_mono (wp_applyDataToPlayer_left hq.profile) (fun _ _ _ => trivial)
      (fun _ u hu => hq.sameLogin_iff hpr hu)
  · obtain ⟨hzero, hnone, hsame⟩ := ht
    rw [hsame, failsIdle, if_pos hzero, hnone]
    simp

theorem defined_profileLogin {accepted : Bool} (hpr : s.profiles.lookup p = some pr)
    (haccepted : pr.authPassword s.platform inputtext = some accepted) :
    Defined (Dialog.profileLogin p inputtext) s := by
  simp only [Dialog.profileLogin, ref, defined_bind, wp_bind, wp_gets, wp_pure, defined_gets,
    defined_pure, hpr, haccepted, orUndefined_some, true_and]
  cases accepted with
  | false => simp [showDialog, emit, when_true]
  | true =>
    rw [when_false (by simp), wp_pure]
    refine ⟨defined_pure _, defined_setSignedIn hpr, ?_⟩
    refine wp_mono (wp_setSignedIn_login hpr) (fun _ t ht => ?_) (fun _ _ _ => trivial)
    obtain ⟨q, hq⟩ := ht
    exact ⟨defined_applyDataToPlayer hq.profile, wp_mono (wp_true _)
      (fun _ u _ => Total.defined u) fun _ _ _ => trivial⟩

/-- A wrong password changes nothing. -/
theorem wp_profileLogin_rejected (hpr : s.profiles.lookup p = some pr)
    (hrejected : pr.authPassword s.platform inputtext = some false) :
    wp (Dialog.profileLogin p inputtext) (fun _ _ => True) (fun _ t => s.SameLogin p t) s := by
  have hsame : ∀ trace, s.SameLogin p { s with trace := trace } := fun trace pr' hpr' =>
    ⟨⟨pr', hpr', .refl pr'⟩, rfl⟩
  simp only [Dialog.profileLogin, ref, showDialog, emit, wp_bind, wp_gets, wp_pure, wp_when,
    wp_raiseIf, wp_modify, wp_raise, hpr, hrejected, orUndefined_some, Bool.not_false, if_true]
  split <;> exact hsame _

end Profile

/-- A login that throws changes nothing exactly if the password is wrong, or all goes through, or
there is nothing to change. -/
theorem failed_login_changes_nothing_iff (s : Server) (p : ℤ) (inputtext : Text) :
    LoginFailsWhole p inputtext s ↔ s.loginsWhole p inputtext = true := by
  rw [LoginFailsWhole, Server.loginsWhole]
  cases hpr : s.profiles.lookup p with
  | none =>
    refine iff_of_true ?_ rfl
    simp [Dialog.profileLogin, Profile.ref, hpr]
  | some pr =>
    rw [Option.all_some]
    rcases haccepted : pr.authPassword s.platform inputtext with _ | _ | _
    · refine iff_of_true ?_ (by simp)
      simp [Dialog.profileLogin, Profile.ref, hpr, haccepted]
    · exact iff_of_true (Profile.wp_profileLogin_rejected hpr haccepted) (by simp)
    · have hthrow := Profile.wp_profileLogin_accepted hpr haccepted
      have hlogin := @wp_profileLogin s p pr inputtext hpr
      have hdefined := Profile.defined_profileLogin hpr haccepted
      cases hrun : Dialog.profileLogin p inputtext s with
      | ok a t =>
        rw [wp_of_ok hrun] at hlogin ⊢
        exact iff_of_true trivial (by simp [hlogin.1])
      | error e t =>
        rw [wp_of_error hrun] at hthrow hlogin ⊢
        rw [hthrow]
        simp [hlogin]
      | undefined =>
        rw [Defined, hrun] at hdefined
        cases hdefined

/-! ## A record without a colour -/

namespace Demo

/-- The password is blank, and the gaming record has no attributes. -/
def recordless : Profile :=
  { item := {}
    addr := 0
    gamearchive := [(.attribute, .object [])]
    auth := { passwordhash := (getPasswordDigest []).getD [] } }

theorem recordless_accepts : recordless.authPassword initial.platform [] = some true := by
  have hlen : (salt1 ++ [] ++ salt2).length = 128 := by
    rw [List.length_append, List.length_append]
    decide
  have hfits : Sha256.Fits (salt1 ++ [] ++ salt2) := by rw [Sha256.Fits, hlen]; decide
  have hbits : 8 * (salt1 ++ [] ++ salt2).length + 512 < 2 ^ 32 := by rw [hlen]; decide
  obtain ⟨H, hH, -⟩ := Option.map_eq_some_iff.mp (Sha256.hash_eq_sha256 hfits hbits)
  have hdigest : getPasswordDigest [] = some (Sha256.print H) := by
    rw [getPasswordDigest, Sha256.sha256, hH, Option.map_some]
  have hconvert : initial.platform.gbkToUTF8 [] = [] := rfl
  simp [Profile.authPassword, recordless, hconvert, hdigest]

/-- A player who is not signed in yet. -/
def lobby : Server := { initial with profiles := (∅ : Map ℤ Profile).insert 0 recordless }

end Demo

/-- The player is signed in, and has a timer, without a gaming record. -/
theorem failed_login_signs_in : ¬∀ (s : Server) (p : ℤ) (inputtext : Text),
    LoginFailsWhole p inputtext s := by
  intro hall
  simp only [failed_login_changes_nothing_iff] at hall
  have hwhole := hall Demo.lobby 0 []
  have hpr : Demo.lobby.profiles.lookup 0 = some Demo.recordless := AList.lookup_insert _
  have haccepts : Demo.recordless.authPassword Demo.lobby.platform [] = some true :=
    Demo.recordless_accepts
  have hcannot : Demo.recordless.canApply = false := by decide
  rw [Server.loginsWhole, hpr, Option.all_some, haccepts] at hwhole
  have hsignedin : Demo.recordless.auth.signedin = false := rfl
  simp [Profile.canLogin, hcannot, Profile.failsIdle, hsignedin] at hwhole

end FreshCity
