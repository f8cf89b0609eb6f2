import FreshCity.RecordAgreement
import FreshCity.Sessions

/-!
# Logins and the stored records

In every run in which who saves a profile is alone with its document and reads it back, the profiles
agree with what is stored. So a login restores what is stored exactly if it comes to a session that
has neither money nor score.
-/
namespace FreshCity
open Imperative Prog Run

/-! ## Who saves a profile -/

namespace Server

/-- No other profile has the document of a player's. -/
def alone (s : Server) (p : ℤ) : Bool :=
  (s.profiles.lookup p).all fun pr => !pr.item.uniqueid.isSet || s.profiles.entries.all fun e =>
    decide (e.1 = p) || decide (e.2.item.uniqueid ≠ pr.item.uniqueid)

theorem alone_of {s : Server} {p : ℤ} {pr : Profile} (h : s.alone p = true)
    (hpr : s.profiles.lookup p = some pr) : s.Alone p pr := by
  intro hset q qr hqr hqp
  rw [alone, hpr, Option.all_some, Bool.or_eq_true, Bool.not_eq_true'] at h
  have hall := List.all_eq_true.mp (h.resolve_left (by simp [hset])) ⟨q, qr⟩
    (AList.mem_lookup_iff.mp hqr)
  simpa [hqp] using hall

end Server

namespace Event

/-- The player whose profile an event may save. -/
def saves (s : Server) : Event → Option ℤ
  | playerDisconnect p reason =>
    if reason ≠ 0 ∧ (s.profiles.lookup p).any (·.auth.signedin) = true then some p else none
  | dialogResponse p dialogid response listitem _ =>
    if dialog dialogid = some .profileSetting ∧ response = 1 ∧ listitem = 1 then some p else none
  | timer handle => (s.timers.find? fun tm => tm.handle = handle).bind fun tm =>
    match tm.callback with
    | .autoSaveProfile a => keyAt s.profiles (·.addr) a
    | _ => none
  | _ => none

/-- What fails is noticed, and who saves a profile is alone with its document and reads it back. -/
def keepsRecords (s : Server) (i : Event × Env) : Bool :=
  i.2.faults.all Fault.isSound &&
    (i.1.saves s).all fun p => s.alone p && (s.begin i.2).database.savesWhole

/-- The events that write to the profiles or to the documents of players. -/
def writesRecords : Event → Bool
  | gameModeInit => true
  | playerConnect _ => true
  | playerDisconnect _ _ => true
  | dialogResponse _ _ _ _ _ => true
  | playerDeath _ _ _ => true
  | pickUpPickup _ => true
  | timer _ => true
  | _ => false

theorem spares_footprint {e : Event} (he : e.writesRecords = false) :
    ∀ k ∈ e.footprint, k.sparesProfiles = true ∧ k.leavesRecords = true := by
  cases e
  case playerCommandText p cmdtext =>
    simp [footprint, CommandId.all, Command.footprint, Kind.sparesProfiles, Kind.leavesRecords]
  case gameModeInit | playerConnect | playerDisconnect | dialogResponse | playerDeath | pickUpPickup
    | timer => cases he
  all_goals simp [footprint, Kind.sparesProfiles, Kind.leavesRecords]

end Event

/-! ## The callbacks -/

section Callbacks
set_option synthInstance.maxSize 3000
open Server
variable {s t : Server} {docs : Documents} {p killerid reason : ℤ} {platform : Platform}
  {list : List Document}

/-- A change that neither touches the database nor writes profiles in a way that matters. -/
theorem Kind.recorded {k : Kind} (h : k.change s t) (hk : k ≠ .database ∧ k.leavesRecords = true)
    (hs : s.Recorded) : t.Recorded := by
  have hframe := frame h
  have hagree := Kind.agree h hk.2 hs.agree
  have hdatabase := hframe.database hk.1
  exact ⟨hframe.platform ▸ hdatabase ▸ hs.sound, hframe.platform ▸ hdatabase ▸ hagree⟩

theorem Kind.recorded_output (h : Kind.output.change s t) (hs : s.Recorded) : t.Recorded :=
  Kind.recorded h ⟨by simp, rfl⟩ hs

theorem Kind.calm_output (h : Kind.output.change s t) (hs : s.Calm docs) : t.Calm docs :=
  ⟨Kind.recorded_output h hs.recorded, Kind.journaled h rfl hs.quiet.journaled,
    Kind.forall_trace (P := fun j => j.sparesProfiles = true) h rfl hs.quiet.spares⟩

theorem wp_recorded_of_stays {α : Type} {K : List Kind} {x : Game α} (hx : Stays K x)
    (hK : ∀ k ∈ K, k ≠ .database ∧ k.leavesRecords = true) (hs : s.Recorded) :
    wp x (fun _ => Recorded) (fun _ => Recorded) s :=
  hx.invariant (fun k hk _ _ hab => Kind.recorded hab (hK k hk)) hs

theorem wp_recorded_of_calm {α : Type} {x : Game α} (hx : Keeps (Calm docs) x) (hs : s.Calm docs) :
    wp x (fun _ => Recorded) (fun _ => Recorded) s :=
  wp_mono (hx.wp_of_keeps hs) (fun _ _ => Calm.recorded) (fun _ _ => Calm.recorded)

instance : Keeps (Calm docs) (profileMgrAdd p) := by
  have hK : ∀ k ∈ [Kind.output, .database, .counters, .insertProfile p, .destroyTimer, .streamer],
      k.sparesProfiles = true := by simp [Kind.sparesProfiles]
  exact keeps_of_wp fun s hs => wp_calm inferInstance inferInstance hK hs
    (wp_profileMgrAdd_agree hs.recorded (Database.fault_ne_vanished hs.quiet.journaled.stay))

/-- The kinds of change that go along with loading the gamemode. -/
abbrev loadingKinds : List Kind :=
  [.output, .sampZones, .streamer, .database, .counters, .teamIds, .insertTeam, .clearTeams, .zones,
    .areas, .pickups, .properties, .destroyTimer, .createTimer .nothing, .reload .team,
    .reload .gangzone, .reload .property]

instance : Keeps (Calm docs) loadGameMode := by
  have hcalm : ∀ {α : Type} {x : Game α}, Keeps (Journaled docs) x → Stays loadingKinds x →
      Keeps (Calm docs) x := fun hj hx => keeps_calm_of_stays hj hx
    (by simp [Kind.sparesProfiles, Kind.leavesRecords])
  have hteams : Keeps (Calm docs) TeamManager.loadAllFromDatabase :=
    hcalm inferInstance inferInstance
  have hzones : Keeps (Calm docs) GangZoneManager.loadAllFromDatabase :=
    hcalm inferInstance inferInstance
  have htriggers : Keeps (Calm docs) loadAllTeleportTriggerFromDatabase :=
    hcalm inferInstance inferInstance
  have hproperties : Keeps (Calm docs) PropertyManager.loadAllFromDatabase :=
    hcalm inferInstance inferInstance
  have htimer : ∀ c n, c.target = .nothing → Keeps (Calm docs) (createTimer c n true) :=
    fun c n hc => hcalm (keeps_journaled_apart (stays_createTimer .nothing hc))
      (stays_createTimer .nothing hc)
  have hweather : Keeps (Calm docs) (createTimer .changeWeather 300000 true) := htimer _ _ rfl
  have htime : Keeps (Calm docs) (createTimer .changeTime 60000 true) := htimer _ _ rfl
  unfold loadGameMode
  infer_instance

instance : Keeps (Agree platform list) (startSession p) := by
  have hteam : Keeps (Agree platform list) (setPlayerTeam p noTeam) :=
    keeps_agree (K := [.output, .sampTeam p]) inferInstance (by simp [Kind.leavesRecords])
  unfold startSession greet
  infer_instance

instance : Keeps (Calm docs) (startSession p) := by
  have hstay : Stays (startKinds p) (startSession p) := by
    unfold startKinds
    infer_instance
  exact keeps_calm (keeps_journaled_of_stays hstay (by simp [startKinds, Kind.leavesDatabase]))
    hstay (by simp [startKinds, Kind.sparesProfiles]) fun _ _ => inferInstance

instance : Keeps (Calm docs) (onPlayerConnect p) := by
  have houtput : ∀ {x : Game Unit}, Stays [.output] x → Keeps (Calm docs) x := fun hx =>
    keeps_calm_of_stays (keeps_journaled_of_stays hx (by simp [Kind.leavesDatabase])) hx
      (by simp [Kind.sparesProfiles, Kind.leavesRecords])
  have hnative : Keeps (Calm docs) (native (.streamerOnPlayerConnect p)) := houtput inferInstance
  have hmessage : ∀ m, Keeps (Calm docs) (sendClientMessage p m) := fun _ => houtput inferInstance
  unfold onPlayerConnect connectPlayer
  infer_instance

instance : Keeps (Agree platform list) (onPlayerDeath p killerid reason) := by
  have hmoney : Keeps (Agree platform list) (givePlayerMoney p (-500)) :=
    keeps_agree (K := [.output, .sampMoney]) inferInstance (by simp [Kind.leavesRecords])
  unfold onPlayerDeath reported
  infer_instance

/-- `Sync` for a player who is alone with the document, and reads it back. -/
theorem wp_sync_alone (hs : s.Recorded) (hreliable : s.database.Reliable)
    (halone : s.alone p = true) (hwhole : s.database.savesWhole = true) :
    wp (Profile.sync p) (fun _ => Recorded) (fun _ => Recorded) s := by
  cases hpr : s.profiles.lookup p with
  | none => simp [Profile.sync, Profile.ref, hpr]
  | some pr => exact Profile.wp_sync_recorded hs hreliable hpr (alone_of halone hpr) (.inl hwhole)

/-- A session ends without a write to the database. -/
theorem wp_endSession_recorded (hs : s.Recorded) :
    wp (endSession p) (fun _ => Recorded) (fun _ => Recorded) s :=
  wp_recorded_of_stays (K := [.output, .sampTeam p, .profileTeam, .teamRoster, .streamer,
    .destroyTimer, .eraseProfile p]) inferInstance (by simp [Kind.leavesRecords]) hs

/-- A disconnect saves the profile if its player is signed in. -/
theorem wp_disconnect_recorded (hs : s.Recorded) (hreliable : s.database.Reliable)
    (hsaves : ((Event.playerDisconnect p reason).saves s).all
      (fun p => s.alone p && s.database.savesWhole) = true) :
    wp (Event.run (.playerDisconnect p reason)) (fun _ => Recorded) (fun _ => Recorded) s := by
  have hstart : ({ s with trace := .native (.streamerOnPlayerDisconnect p reason) :: s.trace } :
      Server).Recorded := ⟨hs.sound, rfl, hs.agree.profiles⟩
  refine wp_playerDisconnect.mpr ⟨fun _ => hstart, fun pr hpr => ?_⟩
  rw [wp_when]
  split
  case isTrue hc =>
    have hwhole : s.alone p = true ∧ s.database.savesWhole = true := by
      simpa [Event.saves, hpr, hc.1, hc.2] using hsaves
    exact wp_mono (wp_sync_alone hstart hreliable hwhole.1 hwhole.2)
      (fun _ t ht => wp_endSession_recorded ht) (fun _ _ ht => ht)
  case isFalse => exact wp_endSession_recorded hstart

/-- A timer saves the profile it was created for. -/
theorem wp_timer_recorded {handle : ℤ} (hs : s.Calm docs) (hreliable : s.database.Reliable)
    (hsaves : ((Event.timer handle).saves s).all
      (fun p => s.alone p && s.database.savesWhole) = true) :
    wp (Event.run (.timer handle)) (fun _ => Recorded) (fun _ => Recorded) s := by
  rw [Event.run, wp_fireTimer]
  refine ⟨fun _ => hs.recorded, fun tm htm => ?_⟩
  have hrearmed : (s.rearmed tm).Calm docs ∧ (s.rearmed tm).profiles = s.profiles ∧
      (s.rearmed tm).database = s.database := by
    obtain ⟨timers, heq⟩ := s.rearmed_eq tm
    rw [heq]
    have hjournaled := hs.quiet.journaled
    exact ⟨⟨⟨hs.recorded.sound, rfl, hs.recorded.agree.profiles⟩, ⟨hjournaled.stay,
      hjournaled.leavesId, hjournaled.replays⟩, hs.quiet.spares⟩, rfl, rfl⟩
  obtain ⟨hcalm, hprofiles, hdatabase⟩ := hrearmed
  by_cases hsaver : ∃ a, tm.callback = .autoSaveProfile a
  · obtain ⟨a, ha⟩ := hsaver
    rw [ha, TimerCallback.run, wp_bind, wp_gets, wp_bind, wp_orUndefined]
    intro p hp
    rw [hprofiles] at hp
    have hwhole : s.alone p = true ∧ s.database.savesWhole = true := by
      simpa [Event.saves, htm, ha, hp] using hsaves
    rw [wp_bind]
    refine wp_mono (Q := fun _ => Recorded) (E := fun _ => Recorded) ?_ (fun _ t ht => ?_)
      (fun _ _ ht => ht)
    · have halone : (s.rearmed tm).alone p = true := by
        rw [alone, hprofiles]
        exact hwhole.1
      exact wp_sync_alone hcalm.recorded (hdatabase ▸ hreliable) halone (hdatabase ▸ hwhole.2)
    · exact wp_recorded_of_stays (K := [.output]) inferInstance (by simp [Kind.leavesRecords]) ht
  · have hK : ∀ k ∈ tm.callback.footprint, k.sparesProfiles = true ∧ k.leavesRecords = true := by
      cases hc : tm.callback
      case autoSaveProfile a => exact absurd ⟨a, hc⟩ hsaver
      all_goals simp [TimerCallback.footprint, Kind.sparesProfiles, Kind.leavesRecords]
    have hkeep : Keeps (Calm docs) tm.callback.run :=
      keeps_calm_of_stays (keeps_journaled_timer tm.callback) tm.callback.stays_run hK
    exact wp_recorded_of_calm hkeep hcalm

/-- The handler of every dialog keeps what is recorded. -/
theorem wp_callback_recorded {listitem : ℤ} {inputtext : Text} {d : DialogId} (hs : s.Calm docs)
    (hreliable : s.database.Reliable)
    (hsaves : d = .profileSetting → listitem = 1 →
      s.alone p = true ∧ s.database.savesWhole = true) :
    wp (Dialog.callback p listitem inputtext d) (fun _ => Recorded) (fun _ => Recorded) s := by
  have houtput : ∀ {x : Game Unit} {t : Server}, Stays [.output] x → t.Recorded →
      wp x (fun _ => Recorded) (fun _ => Recorded) t := fun hx ht =>
    wp_recorded_of_stays hx (by simp [Kind.leavesRecords]) ht
  have hstays := Dialog.stays_callback p listitem inputtext d
  have hjournaled : Keeps (Journaled docs) (Dialog.callback p listitem inputtext d) :=
    keeps_journaled_callback p listitem inputtext d
  cases d
  case profileSetting =>
    simp only [Dialog.callback]
    unfold Dialog.profileSetting
    split
    case h_1 => exact houtput inferInstance hs.recorded
    case h_2 =>
      obtain ⟨halone, hwhole⟩ := hsaves rfl rfl
      rw [wp_bind]
      refine wp_mono (Q := fun _ => Recorded) (E := fun _ => Recorded) ?_
        (fun _ t ht => houtput inferInstance ht) (fun _ _ ht => ht)
      exact wp_sync_alone hs.recorded hreliable halone hwhole
    all_goals exact houtput inferInstance hs.recorded
  case profileSettingNickname =>
    simp only [Dialog.callback, Dialog.profileSettingNickname, wp_bind, wp_raiseIf]
    split
    · exact hs.recorded
    · exact wp_mono (Profile.wp_setNickname_recorded hs.recorded hreliable)
        (fun _ t ht => houtput inferInstance ht) (fun _ _ ht => ht)
  case profileRegister =>
    have hsignedin : ∀ t : Server, t.Recorded →
        wp (Profile.setSignedIn p true) (fun _ => Recorded) (fun _ => Recorded) t := fun t ht =>
      wp_recorded_of_stays (K := [.output, .profileSignIn, .createTimer .profile]) inferInstance
        (by simp [Kind.leavesRecords]) ht
    have hregister : wp (Dialog.tryRegister p inputtext) (fun _ => Recorded)
        (fun _ => Recorded) s := by
      rw [Dialog.tryRegister, wp_handle, wp_bind, wp_gets, wp_bind]
      have hfailed : ∀ (e : Exn) (t : Server), t.Recorded → wp (do
          sendClientMessage p (Dialog.exceptionMessage .unknownRegisterError e)
          pure false) (fun _ => Recorded) (fun _ => Recorded) t := fun e t ht =>
        wp_recorded_of_stays (K := [.output]) inferInstance (by simp [Kind.leavesRecords]) ht
      refine wp_mono (Profile.wp_create_recorded hs.recorded hreliable) (fun _ t ht => ?_) hfailed
      rw [wp_bind]
      refine wp_mono (houtput inferInstance ht) (fun _ u hu => ?_) hfailed
      rw [wp_bind]
      exact wp_mono (hsignedin u hu) (fun _ _ hv => hv) hfailed
    simp only [Dialog.callback]
    unfold Dialog.profileRegister
    rw [wp_ite]
    split
    · exact houtput inferInstance hs.recorded
    · rw [wp_bind]
      exact wp_mono hregister (fun _ t ht => houtput inferInstance ht) (fun _ _ ht => ht)
  case profileLogin | propertyOnSale | propertySold =>
    refine wp_recorded_of_calm (keeps_calm hjournaled hstays
      (by simp [Dialog.footprint, Kind.sparesProfiles]) fun _ _ => ?_) hs
    unfold Dialog.callback
    infer_instance
  all_goals
    exact wp_recorded_of_calm (keeps_calm_of_stays hjournaled hstays
      (by simp [Dialog.footprint, Kind.sparesProfiles, Kind.leavesRecords])) hs

end Callbacks

/-! ## Runs -/

namespace Event

/-- A response to the login dialog that is accepted comes to a session that has neither money nor
score. -/
def logsInAfresh (s : Server) : Event → Bool
  | dialogResponse p dialogid _ _ inputtext =>
    decide (dialog dialogid ≠ some .profileLogin) || (s.profiles.lookup p).all fun pr =>
      decide (pr.gamedata.money = 0 ∧ pr.gamedata.score = 0) || !pr.canLogin s inputtext
  | _ => true

end Event

section Runs
open Server
variable {s t : Server} {i : Event × Env}

/-- Every event keeps what is recorded. -/
theorem recorded_step (hs : s.Recorded) (h : s.step i = some t)
    (hC : Event.keepsRecords s i = true) : t.Recorded := by
  obtain ⟨e, env⟩ := i
  obtain ⟨hfaults, hsaves⟩ := Bool.and_eq_true_iff.mp hC
  have hreliable : (s.begin env).database.Reliable := List.all_eq_true.mp hfaults
  have hstay : Fault.vanished ∉ env.faults := fun hmem => by cases hreliable _ hmem
  have hcalm : (s.begin env).Calm s.database.docs :=
    ⟨⟨hs.sound, rfl, hs.agree.profiles⟩, ⟨hstay, by simp [begin], .start⟩, by simp [begin]⟩
  refine of_step h ?_
  have hjournaled : Keeps (Journaled s.database.docs) e.run := keeps_journaled_event e
  by_cases hwrites : e.writesRecords = false
  · exact wp_recorded_of_calm
      (keeps_calm_of_stays hjournaled e.stays_run (Event.spares_footprint hwrites)) hcalm
  cases e
  case gameModeInit =>
    refine wp_mono (wp_gameModeInit (J := Calm s.database.docs) (fun _ _ => Kind.calm_output) hcalm
      fun u hu => ?_) (fun _ _ => Calm.recorded) (fun _ _ => Calm.recorded)
    exact (inferInstance : Keeps (Calm s.database.docs) loadGameMode).wp_of_keeps hu
  case playerConnect p =>
    have hkeep : Keeps (Calm s.database.docs) (Event.run (.playerConnect p)) := by
      change Keeps _ (discard (onPlayerConnect p))
      unfold discard
      infer_instance
    exact wp_recorded_of_calm hkeep hcalm
  case playerDisconnect p reason => exact wp_disconnect_recorded hcalm.recorded hreliable hsaves
  case dialogResponse p dialogid response listitem inputtext =>
    refine wp_dialogResponse (fun _ _ => Kind.recorded_output) hcalm.recorded
      fun pr d _ hd hresponse => ?_
    refine wp_callback_recorded hcalm hreliable fun hsetting hitem => ?_
    subst hsetting hitem
    have hresponse' : response = 1 := by simpa [Dialog.mustResponse] using hresponse
    have hsaver : s.alone p = true ∧ (s.begin env).database.savesWhole = true := by
      simpa [Event.saves, hd, hresponse'] using hsaves
    exact hsaver
  case playerDeath p killerid reason =>
    refine wp_recorded_of_calm (keeps_calm hjournaled (Event.stays_run _) ?_ fun _ _ => ?_) hcalm
    · simp [Event.footprint, Kind.sparesProfiles]
    · change Keeps _ (discard (onPlayerDeath p killerid reason))
      unfold discard
      infer_instance
  case pickUpPickup p =>
    refine wp_recorded_of_calm (keeps_calm hjournaled (Event.stays_run _) ?_ fun _ _ => ?_) hcalm
    · simp [Event.footprint, Kind.sparesProfiles]
    · change Keeps _ (discard (onPlayerPickUpPickup p))
      unfold discard
      infer_instance
  case timer handle => exact wp_timer_recorded hcalm hreliable hsaves
  all_goals exact absurd rfl hwrites

/-- What a session has of money or score and what the archive says come to what is stored exactly if
the session has none. -/
theorem sum_eq_stored_iff {p n : ℤ} {pr : Profile} {k : Field} (hs : s.Recorded)
    (hpr : s.profiles.lookup p = some pr) (hk : k ∈ [Field.money, .score])
    (hcan : (pr.archived k).isSome = true) (hn : s.platform.int n = n) :
    (pr.archived k).map (fun archived => s.platform.int (n + archived)) = s.stored pr k ↔
      n = 0 := by
  obtain ⟨a, ha⟩ := Option.isSome_iff_exists.mp hcan
  have hstored : s.stored pr k = some a := (hs.agree.profiles p pr hpr).archived ha
  obtain ⟨doc, hdoc, hrecord⟩ := Option.bind_eq_some_iff.mp hstored
  have hint : s.platform.int a = a :=
    hs.sound.ints doc (List.mem_of_find?_eq_some hdoc) k hk a hrecord
  rw [hstored, ha, Option.map_some, Option.some.injEq, add_comm, Platform.int_add_eq_iff, hn]
  exact and_iff_right hint

theorem addsUp_iff {p : ℤ} {pr : Profile} (hs : s.Recorded) (hpr : s.profiles.lookup p = some pr)
    (hcan : pr.canApply = true) :
    s.addsUp pr = true ↔ pr.gamedata.money = 0 ∧ pr.gamedata.score = 0 := by
  have hagrees := hs.agree.profiles p pr hpr
  simp only [Profile.canApply, List.all_cons, List.all_nil, Bool.and_true, Bool.and_eq_true] at hcan
  obtain ⟨-, -, hmoney, hscore⟩ := hcan
  rw [addsUp, Bool.and_eq_true, decide_eq_true_eq, decide_eq_true_eq,
    sum_eq_stored_iff hs hpr (by simp) hmoney hagrees.money,
    sum_eq_stored_iff hs hpr (by simp) hscore hagrees.score]

/-- A response restores what is stored exactly if the session it comes to is a new one. -/
theorem restores_iff_logsInAfresh {e : Event} (hs : s.Recorded) :
    e.restores s = true ↔ e.logsInAfresh s = true := by
  cases e
  case dialogResponse p dialogid response listitem inputtext =>
    simp only [Event.restores, Event.logsInAfresh, Bool.or_eq_true]
    refine or_congr_right ?_
    cases hpr : s.profiles.lookup p with
    | none => rfl
    | some pr =>
      rw [Option.all_some, Option.all_some, Bool.or_eq_true, Bool.or_eq_true, Bool.not_eq_true',
        or_comm, decide_eq_true_eq]
      refine or_congr_left' fun hcan => addsUp_iff hs hpr ?_
      rw [Bool.not_eq_false, Profile.canLogin, Bool.and_eq_true] at hcan
      exact hcan.2
  all_goals rfl

/-- In every run in which who saves a profile is alone with its document and reads it back, every
login that comes to a session without money and score gives the player the stored money and
score. -/
theorem logins_restore (platform : Platform) (config : Config) (docs : Collection → List Document)
    (is : List (Event × Env)) (hdocs : SoundRecords platform (docs .profile))
    (h : Meets Server.step (fun s i => i.1.logsInAfresh s = true ∧ Event.keepsRecords s i = true)
      (Server.initial platform config docs) is) :
    AllSteps Server.step LoginRestores (Server.initial platform config docs) is := by
  refine AllSteps.of_invariant (I := Recorded) (fun s i t hs ht hC => ?_)
    ⟨hdocs, rfl, fun p pr hpr => ?_⟩ h
  · have hrestores := (restores_iff_logsInAfresh hs).mpr hC.1
    exact ⟨(loginRestores_iff ht).mpr hrestores, recorded_step hs ht hC.2⟩
  · simp [Server.initial] at hpr

end Runs

/-! ## Logins again -/

namespace Demo

/-- The response by which a player saves the profile. -/
def save (p : ℤ) : Event := .dialogResponse p 26 1 1 []

/-- Only the player with the document has its name. -/
def named : Env := { name := fun p => if p = 0 then [] else ascii "guest" }

/-- The player spends half of the money, saves the profile, leaves and comes back. -/
def returning : List (Event × Env) :=
  [(.gameModeInit, named), (.playerConnect 0, named), (login 0, named),
   (.pickUpPickup 0, { named with pickedUp := 1 }), (buy 0, named), (save 0, named),
   (.playerDisconnect 0 1, named), (.playerConnect 0, named), (login 0, named)]

end Demo

/-- What was left is restored. -/
theorem logins_restore_returning :
    AllSteps Server.step Server.LoginRestores Demo.fair Demo.returning ∧
    ((final Server.step Demo.fair Demo.returning).map fun t => t.samp.money 0) = some 50 := by
  refine ⟨logins_restore _ _ _ _ ⟨?_, ?_⟩ (meets_of_check
    (b := fun s i => i.1.logsInAfresh s && Event.keepsRecords s i)
    (fun _ _ h => Bool.and_eq_true_iff.mp h) (by decide +kernel)), by decide +kernel⟩
  · decide
  · intro _ _ _ _ _ _
    rfl

/-- The second login adds the stored money to what the first one gave. -/
theorem second_login_adds :
    ¬∀ is, AllSteps Server.step Server.LoginRestores Demo.accounts is := by
  intro hall
  refine not_allSteps (T := Server.LoginRestores) (Demo.quietly [.playerConnect 0, Demo.login 0])
    (Demo.login 0, Demo.env)
    (fun s t => !(Dialog.profileLogin 0 Demo.password (s.begin Demo.env)).value?.isSome ||
      (t.profiles.lookup 0).all fun pr => decide (t.stored pr .money = some pr.gamedata.money))
    (fun s t h => ?_) (by decide +kernel) (hall _)
  cases hreturns : (Dialog.profileLogin 0 Demo.password (s.begin Demo.env)).value?.isSome with
  | false => rfl
  | true =>
    have hholds := h 0 28 1 0 Demo.password rfl rfl hreturns
    cases hpr : t.profiles.lookup 0 with
    | none => rfl
    | some pr => simpa using (hholds pr hpr).1

end FreshCity
