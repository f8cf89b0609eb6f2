import FreshCity.Imperative.Minded
import FreshCity.RaceMembership

/-!
# Timers and the objects they are given

A timer keeps the address of the object its callback was given. A profile and a race keep the
handle of their timer, have no second one, and destroy it before they go.
-/
namespace FreshCity
open Imperative Prog Run

/-! ## Pending timers -/

namespace Server

/-- The object a callback was given is there. -/
def hasObject (s : Server) : TimerCallback → Bool
  | .endTurfWar a => (keyAt s.zones (·.addr) a).isSome
  | .turfWarWaitTimeout a => (keyAt s.zones (·.addr) a).isSome
  | .autoSaveProfile a => (keyAt s.profiles (·.addr) a).isSome
  | .raceCountDown a => (keyAt s.races (·.addr) a).isSome
  | _ => true

/-- No timer is going to fire with an object that was destroyed. -/
def noneDangles (s : Server) : Bool := s.timers.all fun tm => s.hasObject tm.callback

/-- The pending timers that were given an object of a class. -/
def timersFor (s : Server) (c : TimerTarget) : List Timer :=
  s.timers.filter fun tm => tm.callback.target = c

/-- `CreateTimer` does not return 0. -/
structure HandlesSet (s : Server) : Prop where
  next : 0 < s.nexthandle
  pending : ∀ tm ∈ s.timers, 0 < tm.handle

variable {s t : Server} {c : TimerTarget} {tm : Timer}

theorem mem_timersFor : tm ∈ s.timersFor c ↔ tm ∈ s.timers ∧ tm.callback.target = c := by
  simp [timersFor]

theorem HandlesSet.ne_zero (h : s.HandlesSet) (htm : tm ∈ s.timersFor c) : tm.handle ≠ 0 :=
  (h.pending tm (mem_timersFor.mp htm).1).ne'

end Server

/-- A timer that differs in nothing but when it is due. -/
structure Timer.SameTimer (tm tm' : Timer) : Prop where
  handle : tm'.handle = tm.handle
  callback : tm'.callback = tm.callback

namespace Kind
variable {k : Kind} {s t : Server} {c : TimerTarget}

/-- A change creates a timer, or leaves only timers that were pending. -/
theorem timers_of_change (h : k.change s t) : ∀ tm' ∈ t.timers,
    (∃ tm ∈ s.timers, tm.SameTimer tm') ∨
      k = .createTimer tm'.callback.target ∧ tm'.handle = s.nexthandle := by
  intro tm' htm'
  by_cases hw : k.writesTimers = false
  · rw [(frame h).timers hw] at htm'
    exact .inl ⟨tm', htm', rfl, rfl⟩
  cases k
  case createTimer c =>
    obtain ⟨tm, rfl, hhandle, rfl⟩ := h
    rcases List.mem_cons.mp htm' with rfl | hmem
    · exact .inr ⟨rfl, hhandle⟩
    · exact .inl ⟨tm', hmem, rfl, rfl⟩
  case destroyTimer =>
    obtain ⟨_, rfl⟩ := h
    exact .inl ⟨tm', (List.mem_filter.mp htm').1, rfl, rfl⟩
  case rearmTimer =>
    obtain ⟨_, rfl⟩ := h
    obtain ⟨tm, htm, rfl⟩ := List.mem_map.mp htm'
    exact .inl ⟨tm, htm, rfl, rfl⟩
  all_goals exact absurd rfl hw

theorem timersFor_of_change (h : k.change s t) (hk : k ≠ .createTimer c) :
    ∀ tm' ∈ t.timersFor c, ∃ tm ∈ s.timersFor c, tm.SameTimer tm' := by
  intro tm' htm'
  obtain ⟨hmem, htarget⟩ := Server.mem_timersFor.mp htm'
  rcases timers_of_change h tm' hmem with ⟨tm, htm, hsame⟩ | ⟨hcreate, -⟩
  · exact ⟨tm, Server.mem_timersFor.mpr ⟨htm, hsame.callback ▸ htarget⟩, hsame⟩
  · exact absurd (htarget ▸ hcreate) hk

theorem nexthandle_le (h : k.change s t) : s.nexthandle ≤ t.nexthandle := by
  by_cases hk : ∃ c, k = .createTimer c
  · obtain ⟨c, rfl⟩ := hk
    obtain ⟨_, _, _, rfl⟩ := h
    change s.nexthandle ≤ s.nexthandle + 1
    omega
  · rw [(frame h).nexthandle fun c heq => hk ⟨c, heq⟩]

theorem handlesSet (h : k.change s t) (hs : s.HandlesSet) : t.HandlesSet := by
  refine ⟨hs.next.trans_le (nexthandle_le h), fun tm' htm' => ?_⟩
  rcases timers_of_change h tm' htm' with ⟨tm, htm, hsame⟩ | ⟨-, hhandle⟩
  · rw [hsame.handle]
    exact hs.pending tm htm
  · rw [hhandle]
    exact hs.next

end Kind

namespace Server

/-- The timer of a handle is destroyed. -/
structure CalledOff (handle : ℤ) (s t : Server) : Prop where
  handles : t.HandlesSet
  timers : ∀ c, t.timersFor c = (s.timersFor c).filter fun tm => tm.handle ≠ handle
  profiles : t.profiles = s.profiles
  races : t.races = s.races

variable {s : Server} {handle : ℤ}

theorem timersFor_filter {trace : List Effect} {q : Timer → Bool} (c : TimerTarget) :
    timersFor { s with trace := trace, timers := s.timers.filter q } c =
      (s.timersFor c).filter q := by
  simp only [timersFor, List.filter_filter, Bool.and_comm]

/-- A handle that was set is destroyed. Where it was not, there is no timer of it. -/
theorem wp_callOff (hs : s.HandlesSet) : wp (when (handle ≠ 0) (destroyTimer handle))
    (fun _ => CalledOff handle s) (fun _ _ => False) s := by
  rw [wp_when]
  split
  case isTrue =>
    refine ⟨⟨hs.next, fun tm htm => ?_⟩, fun c => timersFor_filter c, rfl, rfl⟩
    exact hs.pending tm (List.mem_filter.mp htm).1
  case isFalse hnone =>
    rw [not_not] at hnone
    refine ⟨hs, fun c => (List.filter_eq_self.mpr fun tm htm => ?_).symm, rfl, rfl⟩
    simpa [hnone] using hs.ne_zero htm

end Server

/-! ## Profiles -/

/-- The timer is the one a profile saves itself by. -/
structure Profile.Minds (pr : Profile) (tm : Timer) : Prop where
  callback : tm.callback = .autoSaveProfile pr.addr
  handle : tm.handle = pr.auth.autosavetimer

/-- Every pending timer that saves a profile is known to the profile. -/
structure Server.SavesMinded (s : Server) : Prop where
  handles : s.HandlesSet
  minded : Minded (fun _ => Profile.Minds) s.profiles (s.timersFor .profile)

section Profiles
open Server
variable {s t : Server} {k : Kind} {p : ℤ} {pr pr' : Profile} {tm tm' : Timer}

theorem Profile.Minds.same (h : pr.Minds tm) (hsame : tm.SameTimer tm')
    (haddr : pr'.addr = pr.addr) (htimer : pr'.auth.autosavetimer = pr.auth.autosavetimer) :
    pr'.Minds tm' where
  callback := by rw [hsame.callback, h.callback, haddr]
  handle := by rw [hsame.handle, h.handle, htimer]

/-- The kinds that neither create such a timer nor take its profile away. -/
def Kind.sparesSaves : Kind → Bool
  | createTimer .profile => false
  | profileSignIn => false
  | eraseProfile _ => false
  | _ => true

theorem Kind.savesMinded (h : k.change s t) (hk : k.sparesSaves = true) (hs : s.SavesMinded) :
    t.SavesMinded := by
  refine ⟨Kind.handlesSet h hs.handles, fun tm' htm' => ?_⟩
  obtain ⟨tm, htm, hsame⟩ := Kind.timersFor_of_change h (by rintro rfl; cases hk) tm' htm'
  obtain ⟨p, pr, hpr, hminds⟩ := hs.minded tm htm
  obtain ⟨pr', hpr', hev⟩ := Kind.evolves h (p := p) (by rintro rfl; cases hk) hpr
  exact ⟨p, pr', hpr', hminds.same hsame hev.addr (hev.autosavetimer (by rintro rfl; cases hk))⟩

theorem keeps_saves_of_stays {α : Type} {K : List Kind} {x : Game α} (hx : Stays K x)
    (hK : ∀ k ∈ K, k.sparesSaves = true) : Keeps SavesMinded x :=
  hx.keeps fun k hk _ _ hab ha => Kind.savesMinded hab (hK k hk) ha

/-- A profile without a timer minds none. -/
theorem Server.HandlesSet.not_minds (h : s.HandlesSet) (hpr : pr.auth.autosavetimer = 0) :
    ∀ tm ∈ s.timersFor .profile, ¬pr.Minds tm := fun _ htm hminds =>
  h.ne_zero htm (hminds.handle.trans hpr)

/-- A profile's timer is created once the profile has none. -/
theorem wp_setSignedIn_saves {b : Bool} (h : s.SavesMinded) :
    wp (Profile.setSignedIn p b) (fun _ => SavesMinded) (fun _ => SavesMinded) s := by
  have hsigned : SavesMinded { s with profiles := s.profiles.adjust p fun q =>
      { q with auth := { q.auth with signedin := b } } } :=
    ⟨⟨h.handles.next, h.handles.pending⟩, h.minded.adjust fun _ _ _ _ hminds =>
      hminds.same ⟨rfl, rfl⟩ rfl rfl⟩
  simp only [Profile.setSignedIn, Profile.modifyAuth, Profile.ref, configInt, createTimer, emit,
    wp_bind, wp_modify, wp_gets, wp_orUndefined, wp_when, wp_orRaise]
  intro pr hpr
  split
  case isFalse => exact hsigned
  case isTrue hnone =>
    refine ⟨fun minutes _ => ?_, fun _ => hsigned⟩
    refine ⟨⟨by have := h.handles.next; change 0 < s.nexthandle + 1; omega, fun tm htm => ?_⟩, ?_⟩
    · rcases List.mem_cons.mp htm with rfl | hmem
      · exact h.handles.next
      · exact h.handles.pending tm hmem
    · have hold := hsigned.minded.adjust (k := p)
        (f := fun q => { q with auth := { q.auth with autosavetimer := s.nexthandle } })
        fun v r hv hr hminds => by
          obtain rfl := Option.some.inj (hpr.symm.trans hv)
          exact absurd hminds (hsigned.handles.not_minds hnone.2 r hr)
      exact hold.cons (Map.lookup_adjust_self hpr _) ⟨rfl, rfl⟩

instance keeps_setSignedIn {b : Bool} : Keeps SavesMinded (Profile.setSignedIn p b) :=
  keeps_of_wp fun _ hs => wp_setSignedIn_saves hs

theorem wp_profileMgrRemove_saves (h : s.SavesMinded) :
    wp (profileMgrRemove p) (fun _ => SavesMinded) (fun _ => SavesMinded) s := by
  rw [profileMgrRemove, wp_bind, wp_gets, wp_bind, wp_modify]
  cases hpr : s.profiles.lookup p with
  | none =>
    refine ⟨⟨h.handles.next, h.handles.pending⟩, ?_⟩
    change Minded _ (s.profiles.erase p) _
    rw [Map.erase_of_notMem (AList.lookup_eq_none.mp hpr)]
    exact h.minded
  | some pr =>
    have hobjects : Keeps SavesMinded (forEach destroyDynamicObject (pr.role.bind (·.obj)).toList) :=
      keeps_saves_of_stays (K := [.streamer]) inferInstance (by simp [Kind.sparesSaves])
    rw [Option.toList, forEach, wp_bind, Profile.destruct, wp_bind]
    refine wp_mono (wp_callOff (s := { s with profiles := s.profiles.erase p })
      ⟨h.handles.next, h.handles.pending⟩) (fun _ u hu => ?_) (fun _ _ hf => hf.elim)
    have hleft : Minded (fun _ => Profile.Minds) u.profiles (u.timersFor .profile) := by
      rw [hu.profiles, hu.timers]
      refine ((h.minded.filter fun q tm hq _ hminds => ?_).erase (k := p) fun _ _ _ _ hminds =>
        hminds.1 rfl).mono fun _ _ _ _ _ hminds => hminds.2
      obtain rfl := Option.some.inj (hpr.symm.trans hq)
      simpa using hminds.handle
    exact wp_mono (hobjects.wp_of_keeps ⟨hu.handles, hleft⟩) (fun _ _ ht => ht) (fun _ _ ht => ht)

instance keeps_profileMgrRemove : Keeps SavesMinded (profileMgrRemove p) :=
  keeps_of_wp fun _ hs => wp_profileMgrRemove_saves hs

/-- What connecting and leaving do beside signing in and taking a profile away. -/
abbrev sessionKinds (p : ℤ) : List Kind :=
  [.output, .samp, .sampTeam p, .streamer, .database, .counters, .insertProfile p, .destroyTimer,
    .profileGame, .profileTeam, .teamRoster, .profileItem, .profileLoaded, .sampMoney,
    .profileMoney, .insert .profile, .update .profile]

theorem keeps_sessionKinds {α : Type} {x : Game α} [Stays (sessionKinds p) x] :
    Keeps SavesMinded x :=
  keeps_saves_of_stays (K := sessionKinds p) inferInstance (by simp [Kind.sparesSaves])

end Profiles

section Steps
set_option synthInstance.maxSize 3000
open Server
variable {s t : Server} {p : ℤ} {e : Event} {env : Env}

theorem keeps_saves_connect : Keeps SavesMinded (Event.run (.playerConnect p)) := by
  have hkinds : ∀ {α : Type} {x : Game α} [Stays (sessionKinds p) x], Keeps SavesMinded x :=
    keeps_sessionKinds (p := p)
  unfold Event.run discard onPlayerConnect connectPlayer startSession
  infer_instance

theorem keeps_saves_disconnect {reason : ℤ} :
    Keeps SavesMinded (Event.run (.playerDisconnect p reason)) := by
  have hkinds : ∀ {α : Type} {x : Game α} [Stays (sessionKinds p) x], Keeps SavesMinded x :=
    keeps_sessionKinds (p := p)
  unfold Event.run discard onPlayerDisconnect disconnectPlayer endSession
  infer_instance

theorem keeps_saves_register {inputtext : Text} :
    Keeps SavesMinded (Dialog.profileRegister p inputtext) := by
  have hkinds : ∀ {α : Type} {x : Game α} [Stays (sessionKinds p) x], Keeps SavesMinded x :=
    keeps_sessionKinds (p := p)
  unfold Dialog.profileRegister Dialog.tryRegister
  infer_instance

theorem keeps_saves_login {inputtext : Text} :
    Keeps SavesMinded (Dialog.profileLogin p inputtext) := by
  have hkinds : ∀ {α : Type} {x : Game α} [Stays (sessionKinds p) x], Keeps SavesMinded x :=
    keeps_sessionKinds (p := p)
  unfold Dialog.profileLogin
  infer_instance

theorem Server.SavesMinded.begin (h : s.SavesMinded) (env : Env) : (s.begin env).SavesMinded :=
  ⟨⟨h.handles.next, h.handles.pending⟩, h.minded⟩

theorem savesMinded_of_stays {α : Type} {K : List Kind} {x : Game α} (hx : Stays K x)
    (hK : ∀ k ∈ K, k.sparesSaves = true) (hs : s.SavesMinded) :
    wp x (fun _ => SavesMinded) (fun _ => SavesMinded) s :=
  (keeps_saves_of_stays hx hK).wp_of_keeps hs

theorem savesMinded_step (h : s.step (e, env) = some t) (hs : s.SavesMinded) : t.SavesMinded := by
  have hbegin := hs.begin env
  cases e
  case playerConnect p => exact Server.of_step h (keeps_saves_connect.wp_of_keeps hbegin)
  case playerDisconnect p reason =>
    exact Server.of_step h (keeps_saves_disconnect.wp_of_keeps hbegin)
  case playerCommandText p cmdtext =>
    refine Server.of_step h (wp_commandText (fun a b hab ha => Kind.savesMinded hab rfl ha) hbegin
      fun pr cmd line d _ _ _ _ => ?_)
    have hstay := Command.stays_run p line d
    cases d <;>
      exact savesMinded_of_stays hstay (by simp [Command.footprint, Kind.sparesSaves]) hbegin
  case dialogResponse p dialogid response listitem inputtext =>
    refine Server.of_step h (wp_dialogResponse (fun a b hab ha => Kind.savesMinded hab rfl ha) hbegin
      fun pr d _ _ _ => ?_)
    have hstay := Dialog.stays_callback p listitem inputtext d
    cases d
    case profileRegister => exact keeps_saves_register.wp_of_keeps hbegin
    case profileLogin => exact keeps_saves_login.wp_of_keeps hbegin
    all_goals
      exact savesMinded_of_stays hstay (by simp [Dialog.footprint, Kind.sparesSaves]) hbegin
  all_goals
    exact Server.step_invariant h (fun k hk a b hab =>
      Kind.savesMinded hab (by revert k; simp [Event.footprint, Kind.sparesSaves])) hbegin

end Steps

/-! ## Races -/

/-- The timer is the one a race counts down by. -/
structure Racing.Minds (race : Racing) (tm : Timer) : Prop where
  callback : tm.callback = .raceCountDown race.addr
  handle : tm.handle = race.racedata.countdowntimerid
  state : race.racedata.state = .ready

/-- Every pending timer that counts a race down is known to the race, under one of the keys. -/
structure Server.CountDownsMinded (keys : ℤ → Prop) (s : Server) : Prop where
  handles : s.HandlesSet
  minded : Minded (fun k race tm => keys k ∧ Racing.Minds race tm) s.races (s.timersFor .race)

section Races
set_option synthInstance.maxSize 1000
open Server
variable {s t : Server} {k : Kind} {keys : ℤ → Prop} {j p : ℤ} {race race' : Racing} {tm tm' : Timer}

theorem Racing.Minds.same (h : race.Minds tm) (hsame : tm.SameTimer tm')
    (haddr : race'.addr = race.addr)
    (htimer : race'.racedata.countdowntimerid = race.racedata.countdowntimerid)
    (hstate : race'.racedata.state = race.racedata.state) : race'.Minds tm' where
  callback := by rw [hsame.callback, h.callback, haddr]
  handle := by rw [hsame.handle, h.handle, htimer]
  state := by rw [hstate, h.state]

/-- The kinds that neither create such a timer nor write a race. -/
def Kind.sparesCountDowns : Kind → Bool
  | createTimer .race => false
  | races => false
  | _ => true

theorem Kind.countDownsMinded (h : k.change s t) (hk : k.sparesCountDowns = true)
    (hs : s.CountDownsMinded keys) : t.CountDownsMinded keys := by
  refine ⟨Kind.handlesSet h hs.handles, ?_⟩
  rw [(Kind.frame h).races (by rintro rfl; cases hk)]
  refine hs.minded.of_refs fun tm' htm' => ?_
  obtain ⟨tm, htm, hsame⟩ := Kind.timersFor_of_change h (by rintro rfl; cases hk) tm' htm'
  exact ⟨tm, htm, fun j race hminds => ⟨hminds.1, hminds.2.same hsame rfl rfl rfl⟩⟩

theorem keeps_countDowns_of_stays {α : Type} {K : List Kind} {x : Game α} (hx : Stays K x)
    (hK : ∀ k ∈ K, k.sparesCountDowns = true) : Keeps (CountDownsMinded keys) x :=
  hx.keeps fun k hk _ _ hab ha => Kind.countDownsMinded hab (hK k hk) ha

/-- What running a race does beside writing it and creating its timer. -/
abbrev aroundRace : List Kind := [.output, .samp, .destroyTimer, .profileRace, .setVar .raceJoined]

instance (priority := low) keeps_aroundRace {α : Type} {x : Game α} [Stays aroundRace x] :
    Keeps (CountDownsMinded keys) x :=
  keeps_countDowns_of_stays (K := aroundRace) inferInstance (by simp [Kind.sparesCountDowns])

/-- A race is written that goes on minding its timer, if there is one. -/
theorem keeps_countDowns_modifyRace {g : Racing → Racing}
    (hg : keys j → ∀ race tm, Racing.Minds race tm → (g race).Minds tm) :
    Keeps (CountDownsMinded keys) (Racing.modifyRace j g) :=
  keeps_of_wp fun _ hs => ⟨⟨hs.handles.next, hs.handles.pending⟩,
    hs.minded.adjust fun race tm _ _ hminds => ⟨hminds.1, hg hminds.1 race tm hminds.2⟩⟩

theorem keeps_countDowns_modifyData {g : RaceData → RaceData}
    (htimer : keys j → ∀ d, (g d).countdowntimerid = d.countdowntimerid)
    (hstate : keys j → ∀ d, (g d).state = d.state) :
    Keeps (CountDownsMinded keys) (Racing.modifyData j g) :=
  keeps_countDowns_modifyRace fun hj _ _ hminds =>
    hminds.same ⟨rfl, rfl⟩ rfl (htimer hj _) (hstate hj _)

instance keeps_countDowns_modifyRacer {g : RacerInfo → RacerInfo} :
    Keeps (CountDownsMinded keys) (Racing.modifyRacer j p g) :=
  keeps_countDowns_modifyRace fun _ _ _ hminds => hminds.same ⟨rfl, rfl⟩ rfl rfl rfl

/-- A race that goes destroys its timer. -/
instance keeps_countDowns_mgrRemove : Keeps (CountDownsMinded keys) (Racing.mgrRemove j) := by
  refine keeps_of_wp fun s h => ?_
  rw [Racing.mgrRemove, wp_bind, wp_gets, wp_bind, wp_modify]
  cases hrace : s.races.lookup j with
  | none =>
    refine ⟨⟨h.handles.next, h.handles.pending⟩, ?_⟩
    change Minded _ (s.races.erase j) _
    rw [Map.erase_of_notMem (AList.lookup_eq_none.mp hrace)]
    exact h.minded
  | some race =>
    have hracers : Keeps (CountDownsMinded keys) (forEach (fun q => do
        native (.togglePlayerControllable q true)
        disablePlayerRaceCheckpoint q
        let _ ← profileMgr q
        Profile.delRaceJoined q) race.racers.keys) := inferInstance
    rw [Option.toList, forEach, wp_bind, Racing.destruct, wp_bind]
    refine wp_mono (wp_callOff (s := { s with races := s.races.erase j })
      ⟨h.handles.next, h.handles.pending⟩) (fun _ u hu => ?_) (fun _ _ hf => hf.elim)
    have hleft : Minded (fun k race tm => keys k ∧ Racing.Minds race tm) u.races
        (u.timersFor .race) := by
      rw [hu.races, hu.timers]
      refine ((h.minded.filter fun r tm hr _ hminds => ?_).erase (k := j) fun _ _ _ _ hminds =>
        hminds.1 rfl).mono fun _ _ _ _ _ hminds => hminds.2
      obtain rfl := Option.some.inj (hrace.symm.trans hr)
      simpa using hminds.2.handle
    exact wp_mono (hracers.wp_of_keeps ⟨hu.handles, hleft⟩) (fun _ _ ht => ht) (fun _ _ ht => ht)

instance keeps_countDowns_finish : Keeps (CountDownsMinded keys) (Racing.finish j) := by
  unfold Racing.finish; infer_instance

instance keeps_countDowns_playerFinish : Keeps (CountDownsMinded keys) (Racing.playerFinish j p) := by
  have hdata : ∀ w, Keeps (CountDownsMinded keys)
      (Racing.modifyData j fun d => { d with waitingplayer := w }) :=
    fun _ => keeps_countDowns_modifyData (fun _ _ => rfl) fun _ _ => rfl
  unfold Racing.playerFinish; infer_instance

instance keeps_countDowns_playerReachCheckpoint :
    Keeps (CountDownsMinded keys) (Racing.playerReachCheckpoint j p) := by
  unfold Racing.playerReachCheckpoint; infer_instance

/-- A race starts once no timer counts it down. -/
theorem keeps_countDowns_start : Keeps (CountDownsMinded (· ≠ j)) (Racing.start j) := by
  have hdata : ∀ g, Keeps (CountDownsMinded (· ≠ j)) (Racing.modifyData j g) :=
    fun _ => keeps_countDowns_modifyData (fun hj => absurd rfl hj) fun hj => absurd rfl hj
  unfold Racing.start
  infer_instance

theorem Server.CountDownsMinded.mono {keys' : ℤ → Prop} (h : s.CountDownsMinded keys)
    (hkeys : ∀ k, keys k → keys' k) : s.CountDownsMinded keys' :=
  ⟨h.handles, h.minded.mono fun k _ _ _ _ hminds => ⟨hkeys k hminds.1, hminds.2⟩⟩

/-- The last call of `CountDown` destroys the timer before it starts the race. -/
instance keeps_countDowns_countDown :
    Keeps (CountDownsMinded fun _ => True) (Racing.countDown j) := by
  refine keeps_of_wp fun s h => ?_
  simp only [Racing.countDown, Racing.ref, wp_bind, wp_gets, wp_orUndefined, wp_raiseIf]
  intro race hrace
  split
  · exact h
  rw [wp_ite]
  split
  case isTrue =>
    rw [wp_bind]
    refine wp_mono (wp_callOff h.handles) (fun _ u hu => ?_) (fun _ _ hf => hf.elim)
    have hothers : u.CountDownsMinded (· ≠ j) := by
      refine ⟨hu.handles, ?_⟩
      rw [hu.races, hu.timers]
      refine (h.minded.filter (k := j) fun r tm hr _ hminds => ?_).mono fun _ _ _ _ _ hminds =>
        ⟨hminds.1, hminds.2.2⟩
      obtain rfl := Option.some.inj (hrace.symm.trans hr)
      simpa using hminds.2.handle
    have hstart : Keeps (CountDownsMinded (· ≠ j)) (do
        Racing.modifyData j fun d => { d with countdowntimerid := 0 }
        Racing.start j) :=
      (keeps_countDowns_modifyData (fun hj => absurd rfl hj) fun hj => absurd rfl hj).bind
        fun _ => keeps_countDowns_start
    exact wp_mono (hstart.wp_of_keeps hothers) (fun _ _ ht => ht.mono fun _ _ => trivial)
      (fun _ _ ht => ht.mono fun _ _ => trivial)
  case isFalse =>
    have hcount : Keeps (CountDownsMinded fun _ => True)
        (Racing.modifyData j fun d => { d with countdown := d.countdown - 1 }) :=
      keeps_countDowns_modifyData (fun _ _ => rfl) fun _ _ => rfl
    have hsends : Keeps (CountDownsMinded fun _ => True)
        (forEach (fun q => sendClientMessage q (.raceCountDown race.racedata.countdown))
          race.racers.keys) := inferInstance
    exact (hsends.bind fun _ => hcount).wp_of_keeps h

/-- A race that is joined has no timer yet when it is made ready. -/
instance keeps_countDowns_ready : Keeps (CountDownsMinded fun _ => True) (Racing.ready j) := by
  refine keeps_of_wp fun s h => ?_
  rw [Racing.ready, Racing.ref, wp_bind, wp_bind, wp_gets, wp_orUndefined]
  intro race hrace
  rw [wp_bind, wp_raiseIf]
  split
  · exact h
  rename_i hjoining
  rw [not_not] at hjoining
  have hothers : s.CountDownsMinded (· ≠ j) := by
    refine ⟨h.handles, h.minded.mono fun k r tm hr _ hminds => ⟨?_, hminds.2⟩⟩
    rintro rfl
    obtain rfl := Option.some.inj (hrace.symm.trans hr)
    have hready := hminds.2.state
    rw [hjoining] at hready
    cases hready
  have hsends : Keeps (fun u => u.CountDownsMinded (· ≠ j) ∧ u.races.lookup j = some race)
      (forEach (fun q => do
        sendClientMessage q .raceCountDownBegins
        native (.togglePlayerControllable q false)) race.racers.keys) := by
    have hstay : Stays [.output] (forEach (fun q => do
        sendClientMessage q .raceCountDownBegins
        native (.togglePlayerControllable q false)) race.racers.keys) := inferInstance
    refine hstay.keeps fun k hk a b hab ha => ?_
    obtain rfl := List.mem_singleton.mp hk
    exact ⟨Kind.countDownsMinded hab rfl ha.1, by rw [(Kind.frame hab).races (by simp), ha.2]⟩
  rw [wp_bind]
  refine wp_mono (hsends.wp_of_keeps ⟨hothers, hrace⟩) (fun _ u hu => ?_)
    (fun _ _ ht => ht.1.mono fun _ _ => trivial)
  obtain ⟨hu, hrace⟩ := hu
  simp only [createTimer, emit, Racing.modifyData, Racing.modifyRace, wp_bind, wp_gets, wp_modify,
    wp_pure]
  refine ⟨⟨by have := hu.handles.next; change 0 < u.nexthandle + 1; omega, fun tm htm => ?_⟩, ?_⟩
  · rcases List.mem_cons.mp htm with rfl | hmem
    · exact hu.handles.next
    · exact hu.handles.pending tm hmem
  · have hold := hu.minded.adjust (k := j) (f := fun race => { race with racedata :=
        { race.racedata with countdowntimerid := u.nexthandle, state := .ready } })
      fun _ _ _ _ hminds => absurd rfl hminds.1
    exact (hold.mono fun _ _ _ _ _ hminds => ⟨trivial, hminds.2⟩).cons
      (Map.lookup_adjust_self hrace _) ⟨trivial, rfl, rfl, rfl⟩

/-- Joining a race enters a racer and leaves the timer alone. -/
theorem keeps_countDowns_join :
    Keeps (CountDownsMinded keys) (Racing.withRace j (Racing.join p)) := by
  refine keeps_of_wp fun s h => ?_
  rw [Racing.withRace, wp_focus]
  intro race hrace
  have hput : ∀ (r : Racing) (u : Server), (u.CountDownsMinded keys ∧
      u.races.lookup j = some race ∧ r.addr = race.addr ∧ r.racedata = race.racedata) →
      CountDownsMinded keys { u with races := u.races.adjust j fun _ => r } := by
    rintro r u ⟨hu, hrace, haddr, hdata⟩
    refine ⟨⟨hu.handles.next, hu.handles.pending⟩, hu.minded.adjust fun r' tm hr' _ hminds => ?_⟩
    obtain rfl := Option.some.inj (hrace.symm.trans hr')
    exact ⟨hminds.1, hminds.2.same ⟨rfl, rfl⟩ haddr (by rw [hdata]) (by rw [hdata])⟩
  refine wp_mono (wp_joinRace (I := fun r u => u.CountDownsMinded keys ∧
      u.races.lookup j = some race ∧ r.addr = race.addr ∧ r.racedata = race.racedata)
    (fun r k hk a b hab ha => ?_) ⟨h, hrace, rfl, rfl⟩ fun pr _ _ => ?_)
    (fun _ u hu => hput u.1 u.2 hu.1) (fun _ u hu => hput u.1 u.2 hu)
  · have hspare : k.sparesCountDowns = true ∧ k ≠ .races := by
      revert k
      simp [Kind.sparesCountDowns]
    exact ⟨Kind.countDownsMinded hab hspare.1 ha.1,
      by rw [(Kind.frame hab).races hspare.2, ha.2.1], ha.2.2⟩
  · refine ⟨⟨⟨h.handles.next, h.handles.pending⟩, h.minded⟩, hrace, ?_⟩
    unfold Racing.insertRacer
    split <;> exact ⟨rfl, rfl⟩

theorem keeps_countDowns_mgrAdd : Keeps (CountDownsMinded keys) (Racing.mgrAdd j race) := by
  have hdestruct : Keeps (CountDownsMinded keys) race.destruct := inferInstance
  refine keeps_of_wp fun s h => ?_
  rw [Racing.mgrAdd, wp_bind, wp_gets, id_eq, wp_ite]
  split
  case isTrue =>
    rw [wp_bind]
    exact wp_mono (hdestruct.wp_of_keeps h) (fun _ _ ht => ht) (fun _ _ ht => ht)
  case isFalse hnew =>
    exact ⟨⟨h.handles.next, h.handles.pending⟩, h.minded.insert hnew⟩

theorem keeps_countDowns_quit : Keeps (CountDownsMinded keys) (Racing.quit j p) := by
  have hleave : Keeps (CountDownsMinded keys)
      (Racing.modifyRace j fun race => { race with racers := race.racers.erase p }) :=
    keeps_countDowns_modifyRace fun _ _ _ hminds => hminds.same ⟨rfl, rfl⟩ rfl rfl rfl
  have hdata : Keeps (CountDownsMinded keys)
      (Racing.modifyData j fun d => { d with waitingplayer := d.waitingplayer - 1 }) :=
    keeps_countDowns_modifyData (fun _ _ => rfl) fun _ _ => rfl
  unfold Racing.quit
  infer_instance

theorem keeps_countDowns_racingStartName {inputtext : Text} :
    Keeps (CountDownsMinded keys) (Dialog.racingStartName p inputtext) := by
  have hload : Keeps (CountDownsMinded keys) (Racing.ofName inputtext p) :=
    keeps_countDowns_of_stays (K := [.output, .database, .counters]) inferInstance
      (by simp [Kind.sparesCountDowns])
  have hjoin : ∀ session : Racing, Keeps (CountDownsMinded keys)
      (owned session Racing.destruct (Racing.join p)) := fun _ => inferInstance
  exact hload.bind fun session => (hjoin session).bind fun _ =>
    keeps_countDowns_mgrAdd.bind fun _ => inferInstance

end Races

section Steps
set_option synthInstance.maxSize 1000
open Server
variable {s t : Server} {p : ℤ} {e : Event} {env : Env}

/-- All timers that count down are minded. -/
abbrev Server.AllCountDownsMinded : Server → Prop := CountDownsMinded fun _ => True

theorem Server.CountDownsMinded.begin {keys : ℤ → Prop} (h : s.CountDownsMinded keys) (env : Env) :
    (s.begin env).CountDownsMinded keys :=
  ⟨⟨h.handles.next, h.handles.pending⟩, h.minded⟩

theorem countDownsMinded_of_stays {α : Type} {K : List Kind} {x : Game α} (hx : Stays K x)
    (hK : ∀ k ∈ K, k.sparesCountDowns = true) (hs : s.AllCountDownsMinded) :
    wp x (fun _ => AllCountDownsMinded) (fun _ => AllCountDownsMinded) s :=
  (keeps_countDowns_of_stays hx hK).wp_of_keeps hs

theorem countDownsMinded_timer {handle : ℤ} (hs : s.AllCountDownsMinded) :
    wp (fireTimer handle) (fun _ => AllCountDownsMinded) (fun _ => AllCountDownsMinded) s := by
  refine wp_fireTimer.mpr ⟨fun _ => hs, fun tm _ => ?_⟩
  have hrearmed : (s.rearmed tm).AllCountDownsMinded := by
    unfold Server.rearmed
    split
    · exact Kind.countDownsMinded (k := .rearmTimer) ⟨_, rfl⟩ rfl hs
    · exact Kind.countDownsMinded (k := .destroyTimer) ⟨_, rfl⟩ rfl hs
  have hstay := TimerCallback.stays_run tm.callback
  cases hcb : tm.callback
  case raceCountDown a =>
    have hkeep : Keeps AllCountDownsMinded (TimerCallback.run (.raceCountDown a)) := by
      unfold TimerCallback.run; infer_instance
    exact hkeep.wp_of_keeps hrearmed
  all_goals
    rw [hcb] at hstay
    exact countDownsMinded_of_stays hstay
      (by simp [TimerCallback.footprint, Kind.sparesCountDowns]) hrearmed

theorem countDownsMinded_step (h : s.step (e, env) = some t) (hs : s.AllCountDownsMinded) :
    t.AllCountDownsMinded := by
  have hbegin : (s.begin env).AllCountDownsMinded := hs.begin env
  cases e
  case playerCommandText p cmdtext =>
    refine Server.of_step h (wp_commandText (fun a b hab ha => Kind.countDownsMinded hab rfl ha)
      hbegin fun pr cmd line d _ _ _ _ => ?_)
    have hstay := Command.stays_run p line d
    cases d
    case raceStart =>
      have hkeep : Keeps AllCountDownsMinded (Command.raceStart p) := by
        unfold Command.raceStart; infer_instance
      exact hkeep.wp_of_keeps hbegin
    case raceJoin =>
      have hjoin : ∀ k, Keeps AllCountDownsMinded (Racing.withRace k (Racing.join p)) :=
        fun _ => keeps_countDowns_join
      have hkeep : Keeps AllCountDownsMinded (Command.raceJoin p line) := by
        unfold Command.raceJoin; infer_instance
      exact hkeep.wp_of_keeps hbegin
    all_goals
      exact countDownsMinded_of_stays hstay (by simp [Command.footprint, Kind.sparesCountDowns])
        hbegin
  case dialogResponse p dialogid response listitem inputtext =>
    refine Server.of_step h (wp_dialogResponse (fun a b hab ha => Kind.countDownsMinded hab rfl ha)
      hbegin fun pr d _ _ _ => ?_)
    have hstay := Dialog.stays_callback p listitem inputtext d
    cases d
    case racingStartName => exact keeps_countDowns_racingStartName.wp_of_keeps hbegin
    all_goals
      exact countDownsMinded_of_stays hstay (by simp [Dialog.footprint, Kind.sparesCountDowns])
        hbegin
  case timer handle => exact Server.of_step h (countDownsMinded_timer hbegin)
  case enterRaceCheckpoint p =>
    have hkeep : Keeps AllCountDownsMinded (Event.run (.enterRaceCheckpoint p)) := by
      unfold Event.run discard onPlayerEnterRaceCheckpoint reported; infer_instance
    exact Server.of_step h (hkeep.wp_of_keeps hbegin)
  case raceQuit k p =>
    have hquit : Keeps AllCountDownsMinded (Racing.quit k p) := keeps_countDowns_quit
    have hkeep : Keeps AllCountDownsMinded (Event.run (.raceQuit k p)) := by
      unfold Event.run raceQuit; infer_instance
    exact Server.of_step h (hkeep.wp_of_keeps hbegin)
  case raceRemove k =>
    exact Server.of_step h (keeps_countDowns_mgrRemove.wp_of_keeps hbegin)
  all_goals
    exact Server.step_invariant h (fun k hk a b hab =>
      Kind.countDownsMinded hab (by revert k; simp [Event.footprint, Kind.sparesCountDowns])) hbegin

end Steps

end FreshCity
