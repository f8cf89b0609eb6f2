import FreshCity.Addresses
import FreshCity.UpdatedDocuments

/-!
# Who has signed in

A session signs in when its password is accepted or when its registration creates the
document. The flag that `IsSignedIn` reads tells of it, as long as no session takes over the
profile of an earlier one that was signed in.
-/
namespace FreshCity
open Imperative Prog Run

/-- The players who have signed in since they connected. -/
abbrev SignIns : Type := ℤ → Bool

namespace Event

/-- `DIALOG_PROFILE_LOGIN` accepts the password of a player. -/
def acceptsPassword (s : Server) (p : ℤ) : Event → Bool
  | dialogResponse q dialogid _ _ inputtext =>
    decide (q = p) && decide (dialog dialogid = some .profileLogin) &&
      (s.profiles.lookup p).any fun pr => pr.authPassword s.platform inputtext = some true
  | _ => false

/-- `DIALOG_PROFILE_REGISTER` creates the document of a player. -/
def registers (s : Server) (env : Env) (p : ℤ) : Event → Bool
  | dialogResponse q dialogid _ _ inputtext =>
    decide (q = p) && decide (dialog dialogid = some .profileRegister) && !inputtext.isEmpty &&
      Profile.creates (s.begin env) p (env.name p) inputtext
  | _ => false

/-- Who has signed in after an event. -/
def signIns (s : Server) (env : Env) (e : Event) (g : SignIns) : SignIns := fun p =>
  (g p && decide (e ≠ .playerConnect p)) || e.acceptsPassword s p || e.registers s env p

/-- A new session does not find the profile of an earlier one that is still signed in. -/
def startsAnew (s : Server) : Event → Bool
  | playerConnect p => (s.profiles.lookup p).all fun pr => !pr.auth.signedin
  | _ => true

end Event

namespace Server

/-- Steps, with the players who have signed in. -/
def signing : Server × SignIns → Event × Env → Option (Server × SignIns) :=
  watch step fun s g i _ => i.1.signIns s i.2 g

/-- A profile with an autosave timer is signed in, and who is signed in is one of these
players. -/
structure SignedWithin (P : ℤ → Prop) (s : Server) : Prop where
  timer : ∀ p pr, s.profiles.lookup p = some pr → pr.auth.autosavetimer ≠ 0 →
    pr.auth.signedin = true
  player : ∀ p pr, s.profiles.lookup p = some pr → pr.auth.signedin = true → P p

end Server

section Flags
set_option synthInstance.maxSize 3000
open Server
variable {s t : Server} {k : Kind} {K : List Kind} {P R : ℤ → Prop} {p : ℤ} {α : Type}
  {inputtext : Text}

theorem Server.SignedWithin.mono (h : s.SignedWithin P) (hPR : ∀ p, P p → R p) :
    s.SignedWithin R := ⟨h.timer, fun p pr hpr hsigned => hPR p (h.player p pr hpr hsigned)⟩

theorem Kind.signedWithin (h : k.change s t) (hk : k ≠ .profileSignIn) (hs : s.SignedWithin P) :
    t.SignedWithin P := by
  have horigin : ∀ q qr, t.profiles.lookup q = some qr →
      (qr.auth.autosavetimer = 0 ∧ qr.auth.signedin = false) ∨
        ∃ pr, s.profiles.lookup q = some pr ∧ pr.Evolves k qr := by
    intro q qr hqr
    by_cases hnew : k = .insertProfile q
    · subst hnew
      obtain ⟨pr, hpr, -, rfl⟩ := h
      obtain rfl : pr = qr := by simpa using hqr
      exact .inl ⟨hpr.autosavetimer, hpr.signedin⟩
    · exact .inr (Kind.profile_of_change h hnew hqr)
  constructor
  · intro q qr hqr htimer
    obtain ⟨hzero, -⟩ | ⟨pr, hpr, hev⟩ := horigin q qr hqr
    · exact absurd hzero htimer
    · rw [hev.autosavetimer hk] at htimer
      rw [hev.signedin hk]
      exact hs.timer q pr hpr htimer
  · intro q qr hqr hsigned
    obtain ⟨-, hout⟩ | ⟨pr, hpr, hev⟩ := horigin q qr hqr
    · rw [hout] at hsigned
      cases hsigned
    · rw [hev.signedin hk] at hsigned
      exact hs.player q pr hpr hsigned

theorem keeps_signedWithin_of_stays {x : Game α} (hx : Stays K x) (hK : .profileSignIn ∉ K) :
    Keeps (SignedWithin P) x :=
  hx.keeps fun _ hk _ _ hab ha => Kind.signedWithin hab (by rintro rfl; exact hK hk) ha

/-- A write to one profile. -/
theorem Server.SignedWithin.adjust {f : Profile → Profile} (hs : s.SignedWithin P)
    (htimer : ∀ pr, s.profiles.lookup p = some pr → (f pr).auth.autosavetimer ≠ 0 →
      (f pr).auth.signedin = true)
    (hplayer : ∀ pr, s.profiles.lookup p = some pr → (f pr).auth.signedin = true → P p)
    (ht : t.profiles = s.profiles.adjust p f) : t.SignedWithin P := by
  have hlookup : ∀ q qr, t.profiles.lookup q = some qr →
      (q = p ∧ ∃ pr, s.profiles.lookup p = some pr ∧ f pr = qr) ∨
        s.profiles.lookup q = some qr := by
    intro q qr hqr
    rw [ht, Map.lookup_adjust] at hqr
    split at hqr
    case isTrue hq => exact .inl ⟨hq, Option.map_eq_some_iff.mp hqr⟩
    case isFalse => exact .inr hqr
  constructor
  · intro q qr hqr hne
    obtain ⟨rfl, pr, hpr, rfl⟩ | hold := hlookup q qr hqr
    · exact htimer pr hpr hne
    · exact hs.timer q qr hold hne
  · intro q qr hqr hsigned
    obtain ⟨rfl, pr, hpr, rfl⟩ | hold := hlookup q qr hqr
    · exact hplayer pr hpr hsigned
    · exact hs.player q qr hold hsigned

/-- The flag is set for one of the players, or cleared for another. -/
theorem wp_setSignedIn_within {b : Bool} (hb : b = true ↔ P p) (hs : s.SignedWithin P) :
    wp (Profile.setSignedIn p b) (fun _ => SignedWithin P) (fun _ => SignedWithin P) s := by
  have hset : SignedWithin P { s with profiles := s.profiles.adjust p fun q =>
      { q with auth := { q.auth with signedin := b } } } := by
    refine hs.adjust (fun pr hpr htimer => ?_) (fun pr hpr hsigned => hb.mp hsigned) rfl
    exact hb.mpr (hs.player p pr hpr (hs.timer p pr hpr htimer))
  simp only [Profile.setSignedIn, Profile.modifyAuth, Profile.ref, configInt, createTimer, emit,
    wp_bind, wp_modify, wp_gets, wp_orUndefined, wp_when, wp_orRaise]
  intro pr hpr
  split
  case isFalse => exact hset
  case isTrue hnone =>
    refine ⟨fun minutes _ => ?_, fun _ => hset⟩
    have hsigned : ∀ pr, (s.profiles.adjust p fun q =>
        { q with auth := { q.auth with signedin := b } }).lookup p = some pr →
        pr.auth.signedin = true := by
      intro qr hqr
      rw [Map.lookup_adjust, if_pos rfl] at hqr
      obtain ⟨-, -, rfl⟩ := Option.map_eq_some_iff.mp hqr
      exact hnone.1
    exact hset.adjust (f := fun q => { q with auth := { q.auth with autosavetimer := s.nexthandle } })
      (fun qr hqr _ => hsigned qr hqr) (fun _ _ _ => hb.mp hnone.1) rfl

/-- A session starts without being signed in. -/
theorem keeps_signedWithin_connect (hp : ¬P p) :
    Keeps (SignedWithin P) (Event.run (.playerConnect p)) := by
  have hkinds : ∀ {β : Type} {x : Game β} [Stays (sessionKinds p) x], Keeps (SignedWithin P) x :=
    fun {_ _} hx => keeps_signedWithin_of_stays hx (by simp)
  have hflag : Keeps (SignedWithin P) (Profile.setSignedIn p false) :=
    keeps_of_wp fun _ hs => wp_setSignedIn_within (iff_of_false Bool.false_ne_true hp) hs
  unfold Event.run discard onPlayerConnect connectPlayer startSession
  infer_instance

/-- A login signs in if it accepts the password. -/
theorem wp_profileLogin_within {pr : Profile} (hpr : s.profiles.lookup p = some pr)
    (hP : pr.authPassword s.platform inputtext = some true → P p) (hs : s.SignedWithin P) :
    wp (Dialog.profileLogin p inputtext) (fun _ => SignedWithin P) (fun _ => SignedWithin P) s := by
  have hkinds : ∀ {β : Type} {x : Game β} [Stays (.samp :: sessionKinds p) x],
      Keeps (SignedWithin P) x := fun {_ _} hx => keeps_signedWithin_of_stays hx (by simp)
  rw [Dialog.profileLogin, wp_bind, wp_gets, wp_bind, Profile.ref, wp_bind, wp_gets, hpr,
    orUndefined_some, wp_pure, wp_bind, wp_orUndefined]
  intro accepted haccepted
  cases accepted with
  | false =>
    have hshown : Keeps (SignedWithin P) (showDialog p .profileLogin .enterPasswordAgain) :=
      inferInstance
    rw [wp_bind, wp_when, if_pos (by rfl), wp_bind]
    exact wp_mono (hshown.wp_of_keeps hs) (fun _ _ hu => hu) (fun _ _ hu => hu)
  | true =>
    have hflag : Keeps (SignedWithin P) (Profile.setSignedIn p true) :=
      keeps_of_wp fun _ hs => wp_setSignedIn_within (iff_of_true rfl (hP haccepted)) hs
    have hrest : Keeps (SignedWithin P) (do
        when (!true) do
          showDialog p .profileLogin .enterPasswordAgain
          raise (.runtimeError .wrongPassword)
        Profile.setSignedIn p true
        Profile.applyDataToPlayer p
        sendClientMessage p .loggedIn) := inferInstance
    exact hrest.wp_of_keeps hs

/-- A registration creates the account first and then signs in. -/
theorem wp_profileRegister {I J : Server → Prop} (hs : I s)
    (hI : ∀ a b, Kind.output.change a b → I a → I b)
    (hJ : ∀ a b, Kind.output.change a b → J a → J b)
    (hcreate : inputtext.isEmpty = false →
      wp (Profile.create p (s.env.name p) inputtext) (fun _ => J) (fun _ => I) s)
    (hsign : ∀ u, J u → wp (Profile.setSignedIn p true) (fun _ => I) (fun _ => I) u) :
    wp (Dialog.profileRegister p inputtext) (fun _ => I) (fun _ => I) s := by
  have houtput : ∀ {β : Type} {x : Game β} [Stays [.output] x], Keeps I x := fun {_ _} hx =>
    hx.keeps fun k hk => by
      obtain rfl := List.mem_singleton.mp hk
      exact hI
  have hrest : ∀ registered : Bool, Keeps I
      (when (!registered) (showDialog p .profileRegister .enterPassword)) := fun _ => inferInstance
  have hfails : ∀ e : Exn, Keeps I (do
      sendClientMessage p (Dialog.exceptionMessage .unknownRegisterError e)
      pure false : Game Bool) := fun _ => inferInstance
  have hthrown : ∀ e u, I u → wp (do
      sendClientMessage p (Dialog.exceptionMessage .unknownRegisterError e)
      pure false : Game Bool)
      (fun b => wp (when (!b) (showDialog p .profileRegister .enterPassword)) (fun _ => I)
        (fun _ => I)) (fun _ => I) u := fun e u hu =>
    wp_mono ((hfails e).wp_of_keeps hu) (fun b _ hv => (hrest b).wp_of_keeps hv) (fun _ _ hv => hv)
  rw [Dialog.profileRegister, wp_ite]
  split
  case isTrue =>
    have hblank : Keeps I (do
        sendClientMessage p .blankPassword
        showDialog p .profileRegister .enterPassword) := inferInstance
    exact hblank.wp_of_keeps hs
  case isFalse hpassword =>
    rw [wp_bind, Dialog.tryRegister, wp_handle, wp_bind, wp_gets, wp_bind]
    refine wp_mono (hcreate (by simpa using hpassword)) (fun _ u hu => ?_) hthrown
    rw [wp_bind, sendClientMessage, emit, wp_modify, wp_bind]
    refine wp_mono (hsign _ (hJ u _ ⟨_, rfl, rfl⟩ hu)) (fun _ v hv => ?_) hthrown
    exact (hrest true).wp_of_keeps hv

/-- A registration signs in if it creates the document. -/
theorem wp_profileRegister_within (honly : s.UpdatesOnly fun _ _ => False)
    (hP : inputtext.isEmpty = false → Profile.creates s p (s.env.name p) inputtext = true → P p)
    (hs : s.SignedWithin P) :
    wp (Dialog.profileRegister p inputtext) (fun _ => SignedWithin P) (fun _ => SignedWithin P) s := by
  have hcreate : Keeps (SignedWithin P) (Profile.create p (s.env.name p) inputtext) :=
    keeps_signedWithin_of_stays (K := sessionKinds p) inferInstance (by simp)
  have hout : ∀ a b, Kind.output.change a b → SignedWithin P a → SignedWithin P b :=
    fun _ _ hab ha => Kind.signedWithin hab (by simp) ha
  refine wp_profileRegister (J := fun u => u.SignedWithin P ∧ P p) hs hout
    (fun a b hab ha => ⟨hout a b hab ha.1, ha.2⟩) (fun hpassword => ?_) fun u hu =>
      wp_setSignedIn_within (iff_of_true rfl hu.2) hu.1
  exact wp_mono (wp_and (Profile.wp_create_updates honly) (hcreate.wp_of_keeps hs))
    (fun _ _ hu => ⟨hu.2, hP hpassword hu.1.1⟩) (fun _ _ hu => hu.2)

end Flags

/-! ## Steps -/

section Steps
open Server
variable {s t : Server} {e : Event} {env : Env} {g : SignIns} {p : ℤ}

theorem Event.signIns_of_before (he : ∀ q, e ≠ .playerConnect q) (hg : g p = true) :
    e.signIns s env g p = true := by
  simp [signIns, hg, he]

theorem signedWithin_dialogResponse {dialogid response listitem : ℤ} {inputtext : Text}
    (he : e = .dialogResponse p dialogid response listitem inputtext)
    (hs : s.SignedWithin fun q => g q = true) :
    wp e.run (fun _ => SignedWithin fun q => e.signIns s env g q = true)
      (fun _ => SignedWithin fun q => e.signIns s env g q = true) (s.begin env) := by
  have hbegin : (s.begin env).SignedWithin fun q => e.signIns s env g q = true :=
    ⟨hs.timer, fun q qr hqr hsigned =>
      Event.signIns_of_before (by rintro r rfl; cases he) (hs.player q qr hqr hsigned)⟩
  subst he
  refine wp_dialogResponse (fun _ _ hab ha => Kind.signedWithin hab (by simp) ha) hbegin
    fun pr d hpr hd _ => ?_
  have hstay := Dialog.stays_callback p listitem inputtext d
  replace hpr : s.profiles.lookup p = some pr := hpr
  cases d
  case profileLogin =>
    refine wp_profileLogin_within (s := s.begin env) hpr (fun haccepted => ?_) hbegin
    replace haccepted : pr.authPassword s.platform inputtext = some true := haccepted
    simp [Event.signIns, Event.acceptsPassword, hd, hpr, haccepted]
  case profileRegister =>
    refine wp_profileRegister_within (.of_nil rfl) (fun hpassword hcreates => ?_) hbegin
    replace hcreates : Profile.creates (s.begin env) p (env.name p) inputtext = true := hcreates
    simp [Event.signIns, Event.registers, hd, hpassword, hcreates]
  all_goals
    exact (keeps_signedWithin_of_stays hstay (by simp [Dialog.footprint])).wp_of_keeps hbegin

/-- The flags tell who has signed in, if no session takes over a profile that is signed in. -/
theorem signedWithin_step (h : s.step (e, env) = some t) (hnew : e.startsAnew s = true)
    (hs : s.SignedWithin fun p => g p = true) :
    t.SignedWithin fun p => e.signIns s env g p = true := by
  by_cases hconnect : ∃ q, e = .playerConnect q
  · obtain ⟨q, rfl⟩ := hconnect
    have hothers : (s.begin env).SignedWithin fun p => g p = true ∧ p ≠ q := by
      refine ⟨hs.timer, fun p pr hpr hsigned => ⟨hs.player p pr hpr hsigned, ?_⟩⟩
      rintro rfl
      replace hpr : s.profiles.lookup p = some pr := hpr
      simp [Event.startsAnew, hpr, hsigned] at hnew
    have hkeep := (keeps_signedWithin_connect (p := q) fun hq => hq.2 rfl).wp_of_keeps hothers
    refine (Server.of_step (P := SignedWithin fun p => g p = true ∧ p ≠ q) h hkeep).mono
      fun p hp => ?_
    have hne : q ≠ p := fun heq => hp.2 heq.symm
    simp [Event.signIns, hp.1, hne]
  · have hbegin : (s.begin env).SignedWithin fun p => e.signIns s env g p = true :=
      ⟨hs.timer, fun p pr hpr hsigned => Event.signIns_of_before
        (fun q heq => hconnect ⟨q, heq⟩) (hs.player p pr hpr hsigned)⟩
    cases e
    case playerConnect q => exact absurd ⟨q, rfl⟩ hconnect
    case playerCommandText p cmdtext =>
      refine Server.of_step h (wp_commandText
        (fun a b hab ha => Kind.signedWithin hab (by simp) ha) hbegin fun pr cmd line d _ _ _ _ => ?_)
      have hstay := Command.stays_run p line d
      refine (keeps_signedWithin_of_stays hstay ?_).wp_of_keeps hbegin
      cases d <;> simp [Command.footprint]
    case dialogResponse => exact Server.of_step h (signedWithin_dialogResponse rfl hs)
    all_goals
      exact Server.step_invariant h (fun k hk a b hab =>
        Kind.signedWithin hab (by rintro rfl; simp [Event.footprint] at hk)) hbegin

end Steps
end FreshCity
