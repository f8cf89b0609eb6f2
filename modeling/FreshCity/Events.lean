import FreshCity.Callbacks

/-!
# Events and steps of the server

An event is a call of SA-MP, of the streamer or of the timer queue into the
gamemode, or one of the operations on teams and races that no callback reaches.
A step runs one event in an environment of its own. What an exception leaves
behind stays; after undefined behaviour there is no next state.
-/
namespace FreshCity
open Imperative Prog

inductive Event where
  | gameModeInit
  | playerConnect (p : ℤ)
  | playerDisconnect (p reason : ℤ)
  | playerRequestClass (p : ℤ)
  | playerCommandText (p : ℤ) (cmdtext : Text)
  | playerKeyStateChange (p : ℤ) (newkeys oldkeys : BitVec 32)
  | dialogResponse (p dialogid response listitem : ℤ) (inputtext : Text)
  | playerDeath (p killerid reason : ℤ)
  | playerRequestSpawn (p : ℤ)
  | playerSpawn (p : ℤ)
  | playerText (p : ℤ) (text : Text)
  | enterDynamicArea (p areaid : ℤ)
  | leaveDynamicArea (p areaid : ℤ)
  | pickUpPickup (p : ℤ)
  | clickMap (p : ℤ) (corner : CoordinatePlane)
  | clickPlayer (p clickedplayerid : ℤ)
  | enterRaceCheckpoint (p : ℤ)
  | timer (handle : ℤ)
  | teamAdd (leader : OID) (name : Text) (color : ℤ)
  | teamRemove (t : OID)
  | raceQuit (k p : ℤ)
  | raceRemove (k : ℤ)
  deriving DecidableEq

/-- Run a callback whose result nobody looks at. -/
def discard {α : Type} (x : Game α) : Game Unit := do
  let _ ← x
  pure ()

@[simp] theorem wp_discard {α : Type} (x : Game α) {Q : Unit → Server → Prop}
    {E : Exn → Server → Prop} {s : Server} :
    wp (discard x) Q E s ↔ wp x (fun _ => Q ()) E s := wp_bind x _

namespace Event

def run : Event → Game Unit
  | gameModeInit => discard onGameModeInit
  | playerConnect p => discard (onPlayerConnect p)
  | playerDisconnect p reason => discard (onPlayerDisconnect p reason)
  | playerRequestClass p => discard (onPlayerRequestClass p)
  | playerCommandText p cmdtext => discard (onPlayerCommandText p cmdtext)
  | playerKeyStateChange p newkeys oldkeys => discard (onPlayerKeyStateChange p newkeys oldkeys)
  | dialogResponse p dialogid response listitem inputtext =>
    discard (onDialogResponse p dialogid response listitem inputtext)
  | playerDeath p killerid reason => discard (onPlayerDeath p killerid reason)
  | playerRequestSpawn p => discard (onPlayerRequestSpawn p)
  | playerSpawn p => discard (onPlayerSpawn p)
  | playerText p text => discard (onPlayerText p text)
  | enterDynamicArea p areaid => onPlayerEnterDynamicArea p areaid
  | leaveDynamicArea p areaid => onPlayerLeaveDynamicArea p areaid
  | pickUpPickup p => discard (onPlayerPickUpPickup p)
  | clickMap p corner => discard (onPlayerClickMap p corner)
  | clickPlayer p clickedplayerid => discard (onPlayerClickPlayer p clickedplayerid)
  | enterRaceCheckpoint p => discard (onPlayerEnterRaceCheckpoint p)
  | timer handle => fireTimer handle
  | teamAdd leader name color => discard (TeamManager.add leader name color)
  | teamRemove t => discard (TeamManager.remove t)
  | raceQuit k p => FreshCity.raceQuit k p
  | raceRemove k => Racing.mgrRemove k

/-- The player a callback is about. -/
def player : Event → Option ℤ
  | playerConnect p => some p
  | playerDisconnect p _ => some p
  | playerRequestClass p => some p
  | playerCommandText p _ => some p
  | playerKeyStateChange p _ _ => some p
  | dialogResponse p _ _ _ _ => some p
  | playerDeath p _ _ => some p
  | playerRequestSpawn p => some p
  | playerSpawn p => some p
  | playerText p _ => some p
  | enterDynamicArea p _ => some p
  | leaveDynamicArea p _ => some p
  | pickUpPickup p => some p
  | clickMap p _ => some p
  | clickPlayer p _ => some p
  | enterRaceCheckpoint p => some p
  | _ => none

/-- The dialog a response is handled by. -/
def dialog (dialogid : ℤ) : Option DialogId :=
  (DialogId.ofNumber dialogid).filter DialogId.isRegistered

/-- The kinds of change each event makes. A line may ask for any command. -/
def footprint : Event → List Kind
  | gameModeInit => [.output, .sampZones, .streamer, .database, .counters, .insertProfile (-1), .teamIds,
      .insertTeam, .clearTeams, .zones, .areas, .pickups, .properties, .destroyTimer, .createTimer .nothing, .reload .team,
      .reload .gangzone, .reload .property]
  | playerConnect p => [.output, .samp, .sampTeam p, .streamer, .database, .counters,
      .insertProfile p, .createTimer .profile, .destroyTimer, .profileSignIn, .profileGame]
  | playerDisconnect p _ => [.output, .sampTeam p, .streamer, .database, .eraseProfile p,
      .profileTeam, .teamRoster, .destroyTimer, .profileItem, .profileLoaded, .update .profile]
  | playerRequestClass _ => [.output]
  | playerCommandText _ _ => .output :: CommandId.all.flatMap Command.footprint
  | playerKeyStateChange _ _ _ => [.output, .streamer, .profileRole]
  | dialogResponse p dialogid _ _ _ => .output :: (dialog dialogid).elim [] (Dialog.footprint p)
  | playerDeath _ _ _ => [.output, .samp, .sampMoney, .streamer, .zoneData, .pickups, .profileGame,
      .profileMoney, .profileKills,
      .profileRole]
  | playerRequestSpawn _ => [.output]
  | playerSpawn _ => [.output, .sampZones]
  | playerText _ _ => [.output]
  | enterDynamicArea _ _ => [.output, .zoneData, .destroyTimer]
  | leaveDynamicArea _ _ => [.output]
  | pickUpPickup _ => [.output, .samp, .sampMoney, .sampZones, .database, .streamer, .zoneData,
      .pickups, .profileGame, .profileMoney,
      .profileVars, .createTimer .zone, .setVar .propertyLastviewtime, .setVar .propertyLastviewed]
  | clickMap _ _ => [.output, .profileVars]
  | clickPlayer _ _ => [.output, .profileVars, .setVar .playerLastclicked]
  | enterRaceCheckpoint _ => [.output, .samp, .races, .profileRace, .destroyTimer]
  | timer _ => [.output, .samp, .sampZones, .database, .counters, .zoneData, .races, .profileItem, .profileLoaded,
      .profileRace, .destroyTimer, .rearmTimer, .update .gangzone, .update .profile]
  | teamAdd _ _ _ => [.output, .database, .counters, .teamIds, .insertTeam, .insert .team]
  | teamRemove t => [.eraseTeam t, .teamIds]
  | raceQuit _ _ => [.output, .samp, .races, .profileRace]
  | raceRemove _ => [.output, .samp, .races, .profileRace, .destroyTimer]

end Event

/-! ## Footprints of the callbacks -/

section Footprints
set_option synthInstance.maxSize 3000

instance {K : List Kind} {α : Type} {x : Game α} [Stays K x] : Stays K (discard x) := within_bind

theorem stays_cmdMgrExec (p : ℤ) (cmd cmdline : Text) :
    Stays (CommandId.all.flatMap Command.footprint) (cmdMgrExec p cmd cmdline) := by
  have hrun : ∀ c, Stays (CommandId.all.flatMap Command.footprint) (Command.run p cmdline c) :=
    fun c => (Command.stays_run p cmdline c).mono fun k hk =>
      List.mem_flatMap.mpr ⟨c, by cases c <;> decide, hk⟩
  unfold cmdMgrExec
  infer_instance

theorem stays_dialogMgrExec (p : ℤ) (response : Bool) (dialogid listitem : ℤ) (inputtext : Text) :
    Stays ((Event.dialog dialogid).elim [] (Dialog.footprint p))
      (dialogMgrExec p response dialogid listitem inputtext) := by
  unfold dialogMgrExec
  rw [show (DialogId.ofNumber dialogid).filter DialogId.isRegistered = Event.dialog dialogid from rfl]
  cases Event.dialog dialogid with
  | none => exact within_raise _
  | some d =>
    have hrun := Dialog.stays_callback p listitem inputtext d
    change Stays (Dialog.footprint p d) (when (Dialog.mustResponse d || response) do
      let _ ← profileMgr p
      Dialog.callback p listitem inputtext d)
    infer_instance

namespace Event

theorem stays_timer (handle : ℤ) : Stays (timer handle).footprint (fireTimer handle) := by
  unfold fireTimer
  simp only [footprint]
  refine within_bind (j := fun tm => ?_)
  cases tm with
  | none => exact within_pure _
  | some tm =>
    refine stays_rearm.bind fun _ => (TimerCallback.stays_run tm.callback).mono ?_
    cases tm.callback <;> simp [TimerCallback.footprint]

/-- Every event stays within its footprint. -/
theorem stays_run (e : Event) : Stays e.footprint e.run := by
  cases e <;> simp only [run, footprint]
  case gameModeInit => unfold onGameModeInit; infer_instance
  case playerConnect => unfold onPlayerConnect; infer_instance
  case playerDisconnect => unfold onPlayerDisconnect; infer_instance
  case playerRequestClass => unfold onPlayerRequestClass; infer_instance
  case playerCommandText p cmdtext =>
    have hexec : ∀ cmd line, Stays (Kind.output :: CommandId.all.flatMap Command.footprint)
        (cmdMgrExec p cmd line) :=
      fun cmd line => (stays_cmdMgrExec p cmd line).mono (List.subset_cons_self Kind.output _)
    unfold onPlayerCommandText
    infer_instance
  case playerKeyStateChange => unfold onPlayerKeyStateChange; infer_instance
  case dialogResponse p dialogid response listitem inputtext =>
    have hexec := (stays_dialogMgrExec p (decide (response = 1)) dialogid listitem inputtext).mono
      (List.subset_cons_self .output _)
    unfold onDialogResponse
    infer_instance
  case playerDeath => unfold onPlayerDeath; infer_instance
  case playerRequestSpawn => unfold onPlayerRequestSpawn; infer_instance
  case playerSpawn => unfold onPlayerSpawn; infer_instance
  case playerText => unfold onPlayerText; infer_instance
  case enterDynamicArea => unfold onPlayerEnterDynamicArea; infer_instance
  case leaveDynamicArea => unfold onPlayerLeaveDynamicArea; infer_instance
  case pickUpPickup => unfold onPlayerPickUpPickup; infer_instance
  case clickMap => unfold onPlayerClickMap; infer_instance
  case clickPlayer => unfold onPlayerClickPlayer; infer_instance
  case enterRaceCheckpoint => unfold onPlayerEnterRaceCheckpoint; infer_instance
  case timer handle => exact stays_timer handle
  all_goals infer_instance

end Event
end Footprints

/-! ## Rules for the events that look something up -/

section Rules
variable {I : Server → Prop} {s : Server} {p : ℤ}

/-- A report is one more output. -/
theorem wp_reported {callback : Reporter} {x : Game Unit}
    (hout : ∀ a b, Kind.output.change a b → I a → I b) (h : wp x (fun _ => I) (fun _ => I) s) :
    wp (reported p callback x) (fun _ => I) (fun _ => I) s := by
  rw [reported, wp_handle]
  exact wp_mono h (fun _ _ ht => ht) fun _ t ht => hout _ _ ⟨_, rfl, rfl⟩ ht

/-- `OnGameModeInit` announces the classes before it loads anything. -/
theorem wp_gameModeInit {J : Server → Prop} (hout : ∀ a b, Kind.output.change a b → I a → I b)
    (hs : I s) (h : ∀ u, I u → wp loadGameMode (fun _ => J) (fun _ => J) u) :
    wp (Event.run .gameModeInit) (fun _ => J) (fun _ => J) s := by
  have hnative : ∀ n u, I u → wp (native n) (fun _ => I) (fun _ _ => False) u :=
    fun n u hu => hout u _ ⟨.native n, rfl, rfl⟩ hu
  rw [Event.run, discard, wp_bind]
  unfold onGameModeInit
  generalize List.range 298 = classes
  rw [wp_bind]
  refine wp_mono (hnative _ s hs) (fun _ u hu => ?_) (fun _ _ hf => hf.elim)
  rw [wp_bind]
  refine wp_mono (wp_forEach (J := fun _ _ => False) _ hu fun i _ v hv => hnative _ v hv)
    (fun _ v hv => ?_) (fun _ _ hf => hf.elim)
  rw [wp_bind, wp_handle]
  exact wp_mono (h v hv) (fun _ _ hw => hw) (fun _ _ hw => hw)

/-- A disconnect saves the profile of a player who is signed in before the session ends. -/
theorem wp_playerDisconnect {reason : ℤ} :
    wp (Event.run (.playerDisconnect p reason)) (fun _ => I) (fun _ => I) s ↔
      (s.profiles.lookup p = none →
        I { s with trace := .native (.streamerOnPlayerDisconnect p reason) :: s.trace }) ∧
      ∀ pr, s.profiles.lookup p = some pr →
        wp (when (reason ≠ 0 ∧ pr.auth.signedin) (Profile.sync p))
          (fun _ => wp (endSession p) (fun _ => I) (fun _ => I)) (fun _ => I)
          { s with trace := .native (.streamerOnPlayerDisconnect p reason) :: s.trace } := by
  simp only [Event.run, discard, onPlayerDisconnect, disconnectPlayer, native, emit, profileMgr,
    wp_bind, wp_handle, wp_modify, wp_gets, wp_orRaise, wp_pure]
  exact and_comm

/-- A response runs the handler of its dialog, for a player with a profile. -/
theorem wp_dialogResponse {dialogid response listitem : ℤ} {inputtext : Text}
    (hout : ∀ a b, Kind.output.change a b → I a → I b) (hs : I s)
    (h : ∀ pr d, s.profiles.lookup p = some pr → Event.dialog dialogid = some d →
      (Dialog.mustResponse d || decide (response = 1)) = true →
      wp (Dialog.callback p listitem inputtext d) (fun _ => I) (fun _ => I) s) :
    wp (Event.run (.dialogResponse p dialogid response listitem inputtext)) (fun _ => I)
      (fun _ => I) s := by
  simp only [Event.run, discard, onDialogResponse, wp_bind]
  refine wp_reported hout ?_
  simp only [dialogMgrExec, profileMgr, wp_bind, wp_orRaise, wp_when, wp_gets]
  refine ⟨fun d hd => ?_, fun _ => hs⟩
  split
  case isTrue hresponse => exact ⟨fun pr hpr => h pr d hpr hd hresponse, fun _ => hs⟩
  case isFalse => exact hs

/-- A response runs the callback of its dialog. -/
theorem run_response {s : Server} {dialogid listitem : ℤ} {inputtext : Text} {d : DialogId}
    {pr : Profile} (hd : Event.dialog dialogid = some d) (hpr : s.profiles.lookup p = some pr) :
    Event.run (.dialogResponse p dialogid 1 listitem inputtext) s =
      reported p .dialogResponse (Dialog.callback p listitem inputtext d) s := by
  have hdialog : (DialogId.ofNumber dialogid).filter DialogId.isRegistered = some d := hd
  have hexec : dialogMgrExec p (decide ((1 : ℤ) = 1)) dialogid listitem inputtext s =
      Dialog.callback p listitem inputtext d s := by
    simp [dialogMgrExec, profileMgr, getItem, bind_apply, hdialog, hpr, when_true]
  have hreported : ∀ x : Game Unit, (discard do
      x
      pure true) = x := by
    intro x
    funext s
    simp only [discard, bind_apply]
    cases x s <;> simp
  rw [Event.run, onDialogResponse, hreported, reported, reported, handle_apply, handle_apply, hexec]

/-- A command line runs its command, for a player who passes the checks. -/
theorem wp_commandText {cmdtext : Text} (hout : ∀ a b, Kind.output.change a b → I a → I b)
    (hs : I s)
    (h : ∀ pr cmd line c, s.profiles.lookup p = some pr → scanCommand s.platform cmdtext = some (cmd, line) →
      CommandId.ofName cmd = some c → c.accepts pr = true →
      wp (Command.run p line c) (fun _ => I) (fun _ => I) s) :
    wp (Event.run (.playerCommandText p cmdtext)) (fun _ => I) (fun _ => I) s := by
  simp only [Event.run, discard, onPlayerCommandText, wp_bind, wp_gets, wp_orUndefined]
  rintro ⟨cmd, line⟩ hscan
  refine wp_reported hout ?_
  simp only [cmdMgrExec, profileMgr, wp_bind, wp_orRaise, wp_gets]
  refine ⟨fun c hc => ⟨fun pr hpr => ?_, fun _ => hs⟩, fun _ => hs⟩
  exact CommandId.wp_require (h pr cmd line c hpr hscan hc) fun _ => hs

/-- The server once a timer is spent or due again. -/
def Server.rearmed (s : Server) (tm : Timer) : Server :=
  if tm.repeats then { s with timers := s.timers.map fun u =>
    { u with due := if u.handle = tm.handle then u.due + u.period else u.due } }
  else { s with timers := s.timers.filter fun u => u.handle ≠ tm.handle }

theorem Server.rearmed_eq (tm : Timer) : ∃ timers, s.rearmed tm = { s with timers := timers } := by
  unfold rearmed
  split <;> exact ⟨_, rfl⟩

/-- A timer that is pending runs its callback. -/
theorem wp_fireTimer {handle : ℤ} {Q : Unit → Server → Prop} {E : Exn → Server → Prop} :
    wp (fireTimer handle) Q E s ↔
      ((s.timers.find? fun u => u.handle = handle) = none → Q () s) ∧
      ∀ tm, (s.timers.find? fun u => u.handle = handle) = some tm →
        wp tm.callback.run Q E (s.rearmed tm) := by
  simp only [fireTimer, wp_bind, wp_gets]
  cases s.timers.find? fun u => u.handle = handle with
  | none => simp
  | some tm =>
    simp only [wp_bind, rearm, Server.rearmed, reduceCtorEq, false_imp_iff, true_and,
      Option.some.injEq, forall_eq']
    split <;> rfl

end Rules

/-! ## Steps -/

namespace Server

/-- The server when an event comes in. -/
def begin (s : Server) (env : Env) : Server :=
  { s with env := env, database := { s.database with faults := env.faults }, genoids := 0, trace := [] }

/-- One event, in its environment. -/
def step (s : Server) (i : Event × Env) : Option Server := (i.1.run (s.begin i.2)).state?

/-- The server before `OnGameModeInit`. -/
def initial (platform : Platform) (config : Config) (docs : Collection → List Document) : Server :=
  { platform := platform, config := config, database := { docs := docs } }

variable {s t : Server} {e : Event} {env : Env}

/-- What every run of an event's program satisfies, the state after its step does. -/
theorem of_step {P : Server → Prop} (h : s.step (e, env) = some t)
    (hP : wp e.run (fun _ => P) (fun _ => P) (s.begin env)) : P t := state_of_wp hP h

theorem step_path (h : s.step (e, env) = some t) :
    Path Kind.change e.footprint (s.begin env) t := of_step h ((e.stays_run).path _)

/-- A view that no kind in the event's footprint changes is the same after the step. -/
theorem step_view {γ : Type*} {view : Server → γ} (h : s.step (e, env) = some t)
    (hv : ∀ k ∈ e.footprint, ∀ a b, k.change a b → view b = view a) : view t = view (s.begin env) :=
  (step_path h).view_eq hv

/-- An invariant of every kind in the event's footprint is one of the step. -/
theorem step_invariant {I : Server → Prop} (h : s.step (e, env) = some t)
    (hI : ∀ k ∈ e.footprint, ∀ a b, k.change a b → I a → I b) (hs : I (s.begin env)) : I t :=
  (step_path h).invariant hI hs

end Server

/-! ## A small server -/

namespace Demo

/-- A text that is a decimal number in the range of an `int`. -/
def castInt (t : Text) : Option ℤ :=
  let (sign, ds) := readSign t
  let n := sign * digitsValue ds
  if !ds.isEmpty && ds.all isDigit && decide (-2147483648 ≤ n ∧ n < 2147483648) then some n else none

theorem castInt_fits (t : Text) (n : ℤ) (h : castInt t = some n) :
    -2147483648 ≤ n ∧ n < 2147483648 := by
  simp only [castInt, Option.ite_none_right_eq_some, Option.some.injEq, Bool.and_eq_true,
    decide_eq_true_eq] at h
  omega

/-- A text that is a short decimal number with or without a point. -/
def castFloat (t : Text) : Option ℚ :=
  let (sign, t) := readSign t
  let whole := t.takeWhile isDigit
  let fraction := (t.dropWhile isDigit).drop 1
  if !whole.isEmpty && decide ((t.dropWhile isDigit).head? ∈ [none, some 46]) &&
      fraction.all isDigit then
    some ((sign * digitsValue (whole ++ fraction) : ℤ) / 10 ^ fraction.length)
  else none

/-- The square of a waypoint document's distance from a point. -/
def distance (x y : ℚ) (doc : Document) : Option ℚ := do
  let xy ← (doc.field? .xy).bind Bson.asArray
  let wx ← xy[0]?.bind Bson.asNumber
  let wy ← xy[1]?.bind Bson.asNumber
  pure ((wx - x) * (wx - x) + (wy - y) * (wy - y))

/-- The documents with a place, in the order of their distance. -/
def nearest (x y : ℚ) (docs : List Document) : List Document :=
  (docs.filter fun d => (distance x y d).isSome).insertionSort fun a b =>
    (distance x y a).getD 0 ≤ (distance x y b).getD 0

theorem nearest_subset (x y : ℚ) (docs : List Document) : nearest x y docs ⊆ docs := fun _ hdoc =>
  List.mem_of_mem_filter ((List.mem_insertionSort _).mp hdoc)

/-- Ids are given out in order, arithmetic is exact, letters and fields are those of ASCII. -/
def platform : Platform where
  streamerId ids := ids.length + 1
  gangZoneId ids := ids.length
  lexicalCastInt := castInt
  lexicalCastInt_fits := castInt_fits
  lexicalCastFloat := castFloat
  toLower t := t.map fun b => if 65 ≤ b && b ≤ 90 then b + 32 else b
  tokenize line := (line.splitOn 44).filter fun t => !t.isEmpty
  near := nearest
  near_subset := nearest_subset

/-- Every key has a value. -/
def config : Config where
  collection _ := true
  int _ := some 5
  float _ := some 1

/-- The object ids of the two teams. -/
def team : OID := ⟨7⟩

def rivals : OID := ⟨8⟩

/-- Two teams, a zone of the first one and a race with three checkpoints. -/
def docs : Collection → List Document
  | .team => [
    [(._id, .oid team.data), (.name, .string (ascii "team")), (.color, .int 0), (.leader, .oid 0)],
    [(._id, .oid rivals.data), (.name, .string (ascii "rivals")), (.color, .int 1),
      (.leader, .oid 0)]]
  | .gangzone => [
    [(._id, .oid 9), (.name, .string (ascii "zone")), (.owner, .oid team.data), (.spawn, .oid 0),
      (.minx, .int 0), (.miny, .int 0), (.maxx, .int 1), (.maxy, .int 1),
      (.trigger, .object [(.x, .int 0), (.y, .int 0), (.z, .int 0)])]]
  | .racing => [
    [(._id, .oid 10), (.name, .string (ascii "race")), (.creator, .oid 0), (.type, .int 0),
      (.checkpoint, .array (List.replicate 3 (.array [.int 0, .int 0, .int 0])))]]
  | _ => []

def initial : Server := Server.initial platform config docs

/-- No faults, and every read has its default answer. -/
def env : Env := {}

/-- Events without faults. -/
def quietly (es : List Event) : List (Event × Env) := es.map fun e => (e, env)

/-- The response by which a player chooses the team. -/
def chooseTeam (p : ℤ) : Event := .dialogResponse p 24 1 0 team.str

/-- The response by which a player starts the race. -/
def startRace (p : ℤ) : Event := .dialogResponse p 1 1 0 (ascii "race")

/-- The response that reloads the teams. -/
def reloadTeams (p : ℤ) : Event := .dialogResponse p 13 1 0 []

end Demo
end FreshCity
