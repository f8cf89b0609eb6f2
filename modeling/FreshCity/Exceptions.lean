import FreshCity.EndingWars
import FreshCity.Imperative.Nothrow
import FreshCity.RaceCounting
import FreshCity.Saving

/-!
# Exceptions that leave a callback

A callback that reports what it catches lets nothing go, whatever fails inside it.
`OnPlayerText` and the timer callbacks catch nothing: whether they return depends
on the player's team, on the war of the zone and on the database.
-/
namespace FreshCity
open Imperative Prog Run

/-! ## Races between events -/

/-- Every registered race is sound. -/
def Server.SoundRaces (s : Server) : Prop := ∀ k, SoundRace k s

section Races
set_option synthInstance.maxSize 1000
variable {s t : Server} {k p : ℤ} {race : Racing} {e : Event} {env : Env}

theorem Server.soundRaces_iff : s.SoundRaces ↔ ∀ k race, s.races.lookup k = some race →
    (race.track s.samp.raceCheckpoint).Sound := by
  simp only [SoundRaces, SoundRace, Server.track, Option.map_eq_some_iff, forall_exists_index,
    and_imp, forall_apply_eq_imp_iff₂]

/-- What is on display does not matter. -/
theorem Track.Sound.redisplay {c : Track} (h : c.Sound) (display : ℤ → Option RaceCheckpoint) :
    ({ c with display := display } : Track).Sound := ⟨h.long, h.unjoined, h.waiting, h.within⟩

/-- Races that were there before, and as they were, are still sound. -/
theorem Server.SoundRaces.of_kept (h : s.SoundRaces)
    (hraces : ∀ k race, t.races.lookup k = some race → s.races.lookup k = some race) :
    t.SoundRaces :=
  Server.soundRaces_iff.mpr fun k race hrace =>
    (Server.soundRaces_iff.mp h k race (hraces k race hrace)).redisplay _

theorem Kind.soundRaces {kind : Kind} (h : kind.change s t) (hkind : kind ≠ .races)
    (hs : s.SoundRaces) : t.SoundRaces := by
  have hraces : t.races = s.races := (Kind.frame h).races hkind
  exact hs.of_kept fun k race hrace => hraces ▸ hrace

/-- The races other than one are as they were, or gone. -/
def Server.SparesOthers (k : ℤ) (s t : Server) : Prop :=
  ∀ j race, j ≠ k → t.races.lookup j = some race → s.races.lookup j = some race

theorem Server.SoundRaces.of_others (hs : s.SoundRaces) (hothers : s.SparesOthers k t)
    (hk : SoundRace k t) : t.SoundRaces := by
  intro j
  by_cases hj : j = k
  · exact hj ▸ hk
  intro c hc
  obtain ⟨race, hrace, rfl⟩ := Server.track_eq_some.mp hc
  exact (Server.soundRaces_iff.mp hs j race (hothers j race hj hrace)).redisplay _

instance (priority := low) keeps_sparesOthers {α : Type} {x : Game α}
    [hx : Stays (.createTimer .race :: raceKinds) x] : Keeps (Server.SparesOthers k s) x := by
  refine hx.keeps fun kind hkind a b hab ha j race hj hrace => ha j race hj ?_
  rwa [(Kind.frame hab).races (by rintro rfl; simp at hkind)] at hrace

instance keeps_modifyRace_others {g : Racing → Racing} :
    Keeps (Server.SparesOthers k s) (Racing.modifyRace k g) := by
  refine keeps_of_wp fun a ha j race hj hrace => ha j race hj ?_
  rwa [Map.lookup_adjust, if_neg hj] at hrace

instance keeps_modifyData_others {g : RaceData → RaceData} :
    Keeps (Server.SparesOthers k s) (Racing.modifyData k g) := by
  unfold Racing.modifyData; infer_instance

instance keeps_modifyRacer_others {g : RacerInfo → RacerInfo} :
    Keeps (Server.SparesOthers k s) (Racing.modifyRacer k p g) := by
  unfold Racing.modifyRacer; infer_instance

instance keeps_mgrRemove_others {i : ℤ} : Keeps (Server.SparesOthers k s) (Racing.mgrRemove i) := by
  have herase : Keeps (Server.SparesOthers k s)
      (modify fun a => { a with races := a.races.erase i } : Game Unit) :=
    keeps_of_wp fun a ha j race hj hrace => ha j race hj (Map.lookup_of_lookup_erase hrace)
  unfold Racing.mgrRemove
  infer_instance

instance keeps_finish_others : Keeps (Server.SparesOthers k s) (Racing.finish k) := by
  unfold Racing.finish; infer_instance

instance keeps_playerFinish_others : Keeps (Server.SparesOthers k s) (Racing.playerFinish k p) := by
  unfold Racing.playerFinish; infer_instance

instance keeps_reach_others :
    Keeps (Server.SparesOthers k s) (Racing.playerReachCheckpoint k p) := by
  unfold Racing.playerReachCheckpoint; infer_instance

instance keeps_start_others : Keeps (Server.SparesOthers k s) (Racing.start k) := by
  unfold Racing.start; infer_instance

instance keeps_countDown_others : Keeps (Server.SparesOthers k s) (Racing.countDown k) := by
  unfold Racing.countDown; infer_instance

instance keeps_ready_others : Keeps (Server.SparesOthers k s) (Racing.ready k) := by
  have htimer : ∀ a, Stays (.createTimer .race :: raceKinds)
      (createTimer (.raceCountDown a) 1000 true) := fun _ => stays_createTimer .race rfl
  unfold Racing.ready; infer_instance

instance keeps_quit_others : Keeps (Server.SparesOthers k s) (Racing.quit k p) := by
  unfold Racing.quit; infer_instance

theorem wp_join_others : wp (Racing.withRace k (Racing.join p)) (fun _ => s.SparesOthers k)
    (fun _ => s.SparesOthers k) s := by
  have hput : ∀ (r : Racing) (t : Server), t.races = s.races →
      s.SparesOthers k { t with races := t.races.adjust k fun _ => r } := by
    intro r t ht j race hj hrace
    rwa [Map.lookup_adjust, if_neg hj, ht] at hrace
  rw [Racing.withRace, wp_focus]
  intro race hrace
  refine wp_mono wp_join (fun _ q hq => ?_) (fun _ q hq => ?_)
  · obtain ⟨_, _, _, -, -, hq2⟩ := hq.shown
    exact hput _ _ (by rw [hq2]; rfl)
  · rcases hq with rfl | hq
    · exact hput _ _ rfl
    · exact hput _ _ hq.races

/-! ### What the operations leave -/

/-- An operation that moves a sound race along, and spares the others. -/
theorem wp_soundRaces {x : Game Unit} {op : RaceOp} (hs : s.SoundRaces)
    (hgone : s.races.lookup k = none → x s = .undefined)
    (hothers : wp x (fun _ => s.SparesOthers k) (fun _ => s.SparesOthers k) s)
    (hmoved : ∀ c, s.track k = some c → c.Sound →
      wp x (fun _ => s.Moved k c op) (fun _ => s.Moved k c op) s) :
    wp x (fun _ => Server.SoundRaces) (fun _ => Server.SoundRaces) s := by
  cases hc : s.track k with
  | none => exact wp_of_undefined (hgone (Option.map_eq_none_iff.mp hc))
  | some c =>
    have hafter : ∀ t, s.Moved k c op t ∧ s.SparesOthers k t → t.SoundRaces := by
      rintro t ⟨hmoved, hspares⟩
      refine hs.of_others hspares fun c' hc' => ?_
      rcases hmoved with hnone | ⟨d, hd, ht⟩
      · exact absurd (hnone.symm.trans hc') (by simp)
      · obtain rfl := Option.some.inj (ht.symm.trans hc')
        exact (hs k c hc).moves hd
    exact wp_mono (wp_and (hmoved c hc (hs k c hc)) hothers) (fun _ => hafter) (fun _ => hafter)

theorem Server.sparesOthers_self : s.SparesOthers k s := fun _ _ _ h => h

/-- A reference to a race that is gone. -/
theorem ref_gone {α : Type} {f : Racing → Game α} (hnone : s.races.lookup k = none) :
    (Racing.ref k >>= f) s = .undefined := by
  simp [Racing.ref, bind_apply, hnone]

theorem wp_ready_sound (hs : s.SoundRaces) :
    wp (Racing.ready k) (fun _ => Server.SoundRaces) (fun _ => Server.SoundRaces) s :=
  wp_soundRaces hs ref_gone (keeps_ready_others.wp_of_keeps Server.sparesOthers_self)
    fun _ hc _ => wp_ready_track hc

theorem wp_join_sound (hs : s.SoundRaces) : wp (Racing.withRace k (Racing.join p))
    (fun _ => Server.SoundRaces) (fun _ => Server.SoundRaces) s :=
  wp_soundRaces hs (fun hnone => by simp [Racing.withRace, focus, hnone]) wp_join_others
    fun _ hc hsound => wp_join_track hc hsound

theorem wp_quit_sound (hs : s.SoundRaces) :
    wp (Racing.quit k p) (fun _ => Server.SoundRaces) (fun _ => Server.SoundRaces) s :=
  wp_soundRaces hs ref_gone (keeps_quit_others.wp_of_keeps Server.sparesOthers_self)
    fun _ hc _ => wp_quit_track hc

theorem wp_countDown_sound (hs : s.SoundRaces) :
    wp (Racing.countDown k) (fun _ => Server.SoundRaces) (fun _ => Server.SoundRaces) s :=
  wp_soundRaces hs ref_gone (keeps_countDown_others.wp_of_keeps Server.sparesOthers_self)
    fun _ hc hsound => wp_countDown_track hc hsound

theorem wp_reach_sound (hs : s.SoundRaces) : wp (Racing.playerReachCheckpoint k p)
    (fun _ => Server.SoundRaces) (fun _ => Server.SoundRaces) s :=
  wp_soundRaces hs ref_gone (keeps_reach_others.wp_of_keeps Server.sparesOthers_self)
    fun _ hc _ => wp_playerReachCheckpoint_track hc

/-! ### Events -/

theorem wp_sound_of_stays {α : Type} {K : List Kind} {x : Game α} (hx : Stays K x)
    (hK : Kind.races ∉ K) (hs : s.SoundRaces) :
    wp x (fun _ => Server.SoundRaces) (fun _ => Server.SoundRaces) s :=
  hx.invariant (fun _ hkind _ _ h => Kind.soundRaces h fun heq => hK (heq ▸ hkind)) hs

theorem wp_mgrRemove_sound (hs : s.SoundRaces) :
    wp (Racing.mgrRemove k) (fun _ => Server.SoundRaces) (fun _ => Server.SoundRaces) s := by
  have hdestruct : ∀ race : Racing, Stays raceKinds race.destruct := fun _ => inferInstance
  rw [Racing.mgrRemove, wp_bind, wp_gets, wp_bind, wp_modify]
  have herased : ({ s with races := s.races.erase k } : Server).SoundRaces :=
    hs.of_kept fun _ _ => Map.lookup_of_lookup_erase
  refine wp_forEach _ herased fun race _ t ht => ?_
  exact wp_sound_of_stays (hdestruct race) (by simp) ht

/-- A new race that its first racer was entered in is sound. -/
theorem Racing.New.sound_insertRacer (hnew : race.New) (hlong : 2 ≤ race.checkpoints.length)
    (hjoining : race.racedata.state = .joining) (display : ℤ → Option RaceCheckpoint) :
    ((race.insertRacer p).track display).Sound := by
  have hnone : ∀ q, (race.track display).progress q = none := by simp [Racing.track, hnew.racers]
  have hempty : (race.track display).Sound :=
    ⟨fun _ => hlong, fun _ => hnone, fun _ q i hi => by simp [hnone] at hi,
      fun q i hi => by simp [hnone] at hi⟩
  have hplaced : ((race.track display).place p 0 none).Sound :=
    hempty.place (by simp [Racing.track, hjoining]) (fun _ => rfl) (by omega)
  rw [← Racing.track_insertRacer (by simp [hnew.racers])] at hplaced
  exact hplaced.redisplay display

theorem wp_mgrAdd_sound (hs : s.SoundRaces) (hsound : ∀ display, (race.track display).Sound) :
    wp (Racing.mgrAdd k race) (fun _ => Server.SoundRaces) (fun _ => Server.SoundRaces) s := by
  have hdestruct : Stays raceKinds race.destruct := inferInstance
  simp only [Racing.mgrAdd, wp_bind, wp_gets, wp_ite, wp_modify, wp_pure, id_eq]
  split
  case isTrue => exact wp_sound_of_stays hdestruct (by simp) hs
  case isFalse =>
    rw [Server.soundRaces_iff]
    intro j r hr
    simp only [Map.lookup_insert_ite] at hr
    split at hr
    · obtain rfl := Option.some.inj hr
      exact hsound _
    · exact Server.soundRaces_iff.mp hs j r hr

theorem wp_racingStartName_sound {inputtext : Text} (hs : s.SoundRaces) :
    wp (Dialog.racingStartName p inputtext) (fun _ => Server.SoundRaces)
      (fun _ => Server.SoundRaces) s := by
  have hload : Stays [.output, .database, .counters] (Racing.ofName inputtext p) := inferInstance
  rw [Dialog.racingStartName, wp_bind]
  have hnew := Racing.wp_ofName_new inputtext p s
  refine wp_mono (wp_and (wp_sound_of_stays hload (by simp) hs) hnew) (fun race t ht => ?_)
    (fun _ _ ht => ht.1)
  obtain ⟨hs, hnew⟩ := ht
  have hdestruct : ∀ (r : Racing) (u : Server), u.races = t.races →
      wp r.destruct (fun _ => Server.SoundRaces) (fun _ => Server.SoundRaces) u := fun r u hu =>
    wp_sound_of_stays (K := raceKinds) inferInstance (by simp) (hs.of_kept fun _ _ h => hu ▸ h)
  rw [wp_bind, wp_owned]
  refine wp_mono wp_join (fun _ q hq => ?_) (fun _ q hq => ?_)
  · obtain ⟨_, nextcp, _, -, hnext, hserver⟩ := hq.shown
    have hlong : 2 ≤ race.checkpoints.length := (List.getElem?_eq_some_iff.mp hnext).1
    have hkept : q.2.SoundRaces := hs.of_kept fun _ _ h => by rwa [hserver] at h
    rw [wp_bind]
    refine wp_mono (wp_mgrAdd_sound hkept fun display => ?_) (fun _ _ h => h) (fun _ _ h => h)
    rw [hq.entered]
    exact hnew.sound_insertRacer hlong hq.admits.state display
  · rcases hq with rfl | hq
    · exact hdestruct _ _ rfl
    · exact hdestruct _ _ hq.races

theorem soundRaces_dialogResponse {dialogid response listitem : ℤ} {inputtext : Text}
    (hs : s.SoundRaces) : wp (Event.run (.dialogResponse p dialogid response listitem inputtext))
      (fun _ => Server.SoundRaces) (fun _ => Server.SoundRaces) s := by
  refine wp_dialogResponse (fun a b h => Kind.soundRaces h (by simp)) hs fun pr d _ _ _ => ?_
  have hstay := Dialog.stays_callback p listitem inputtext d
  cases d
  case racingStartName => exact wp_racingStartName_sound hs
  all_goals exact wp_sound_of_stays hstay (by simp [Dialog.footprint]) hs

theorem soundRaces_commandText {cmdtext : Text} (hs : s.SoundRaces) :
    wp (Event.run (.playerCommandText p cmdtext)) (fun _ => Server.SoundRaces)
      (fun _ => Server.SoundRaces) s := by
  refine wp_commandText (fun a b h => Kind.soundRaces h (by simp)) hs fun pr cmd line d _ _ _ _ =>
    ?_
  have hstay := Command.stays_run p line d
  cases d
  case raceStart =>
    simp only [Command.run, Command.raceStart, racingMgr, getItem, wp_bind, wp_gets, wp_orRaise]
    exact ⟨fun _ _ => wp_ready_sound hs, fun _ => hs⟩
  case raceJoin =>
    simp only [Command.run, Command.raceJoin, racingMgr, getItem, wp_bind, wp_gets, wp_orRaise]
    exact ⟨fun _ _ => wp_join_sound hs, fun _ => hs⟩
  all_goals exact wp_sound_of_stays hstay (by simp [Command.footprint]) hs

theorem soundRaces_timer {handle : ℤ} (hs : s.SoundRaces) :
    wp (fireTimer handle) (fun _ => Server.SoundRaces) (fun _ => Server.SoundRaces) s := by
  refine wp_fireTimer.mpr ⟨fun _ => hs, fun tm _ => ?_⟩
  have hrearmed : (s.rearmed tm).SoundRaces := by
    obtain ⟨timers, heq⟩ := s.rearmed_eq tm
    exact heq ▸ hs.of_kept fun _ _ h => h
  have hstay := TimerCallback.stays_run tm.callback
  cases hcb : tm.callback
  case raceCountDown a =>
    simp only [TimerCallback.run, wp_bind, wp_gets, wp_orUndefined]
    exact fun k _ => wp_countDown_sound hrearmed
  all_goals
    rw [hcb] at hstay
    exact wp_sound_of_stays hstay (by simp [TimerCallback.footprint]) hrearmed

theorem soundRaces_step (h : s.step (e, env) = some t) (hs : s.SoundRaces) : t.SoundRaces := by
  have hbegin : (s.begin env).SoundRaces := hs.of_kept fun _ _ h => h
  refine Server.of_step (P := Server.SoundRaces) h ?_
  cases e
  case dialogResponse => exact soundRaces_dialogResponse hbegin
  case playerCommandText => exact soundRaces_commandText hbegin
  case timer => exact soundRaces_timer hbegin
  case enterRaceCheckpoint p =>
    simp only [Event.run, discard, onPlayerEnterRaceCheckpoint, wp_bind]
    refine wp_reported (fun a b h => Kind.soundRaces h (by simp)) ?_
    simp only [profileMgr, racingMgr, getItem, Profile.getVar, Profile.ref, wp_bind, wp_gets,
      wp_orRaise, wp_orUndefined, wp_when]
    refine ⟨fun pr _ => ?_, fun _ => hbegin⟩
    split
    case isFalse => exact hbegin
    case isTrue =>
      exact fun _ _ => ⟨fun _ _ => ⟨fun _ _ => wp_reach_sound hbegin, fun _ => hbegin⟩,
        fun _ => hbegin⟩
  case raceQuit k p =>
    simp only [Event.run, raceQuit, racingMgr, profileMgr, getItem, wp_bind, wp_gets, wp_orRaise]
    exact ⟨fun _ _ => ⟨fun _ _ => wp_quit_sound hbegin, fun _ => hbegin⟩, fun _ => hbegin⟩
  case raceRemove k => exact wp_mgrRemove_sound hbegin
  all_goals exact wp_sound_of_stays (Event.stays_run _) (by simp [Event.footprint]) hbegin

end Races

/-! ## Callbacks that catch everything -/

section Handlers
variable {p : ℤ}

instance {e : Effect} : Nothrow (emit e) := nothrow_modify _

instance {n : Native} : Nothrow (native n) := nothrow_modify _

instance {m : Message} : Nothrow (sendClientMessage p m) := nothrow_modify _

instance {money : ℤ} : Nothrow (givePlayerMoney p money) := nothrow_bind

instance {c : Reporter} {x : Game Unit} : Nothrow (reported p c x) := nothrow_handle

instance {α : Type} {x : Game α} [Nothrow x] : Nothrow (discard x) := nothrow_bind

theorem nothrow_showDialog {d : DialogId} (hd : d.isRegistered = true) (m : Message) :
    Nothrow (showDialog p d m) := by
  refine nothrow_of_wp fun s => ?_
  rw [showDialog, wp_bind, wp_raiseIf, if_neg (by simp [hd])]
  trivial

end Handlers

namespace Event

/-- The callbacks that are exported or handed to a timer. The other events stand for operations that
no callback reaches. -/
def isCallback : Event → Bool
  | teamAdd _ _ _ => false
  | teamRemove _ => false
  | raceQuit _ _ => false
  | raceRemove _ => false
  | _ => true

/-- The callbacks that handle what they catch, whatever it is. -/
theorem nothrow_run {e : Event} (hcallback : e.isCallback = true)
    (htext : ∀ p text, e ≠ playerText p text) (htimer : ∀ handle, e ≠ timer handle) :
    Nothrow e.run := by
  cases e
  case gameModeInit => unfold run onGameModeInit; infer_instance
  case playerConnect => unfold run onPlayerConnect; infer_instance
  case playerDisconnect => unfold run onPlayerDisconnect; infer_instance
  case playerRequestClass => unfold run onPlayerRequestClass; infer_instance
  case playerCommandText => unfold run onPlayerCommandText; infer_instance
  case playerKeyStateChange => unfold run onPlayerKeyStateChange; infer_instance
  case dialogResponse => unfold run onDialogResponse; infer_instance
  case playerDeath => unfold run onPlayerDeath; infer_instance
  case playerRequestSpawn p =>
    have hshow : ∀ m, Nothrow (showDialog p .teamSelect m) := nothrow_showDialog rfl
    unfold run onPlayerRequestSpawn
    infer_instance
  case playerSpawn => unfold run onPlayerSpawn; infer_instance
  case enterDynamicArea => unfold run onPlayerEnterDynamicArea; infer_instance
  case leaveDynamicArea => unfold run onPlayerLeaveDynamicArea; infer_instance
  case pickUpPickup => unfold run onPlayerPickUpPickup; infer_instance
  case clickMap => unfold run onPlayerClickMap; infer_instance
  case clickPlayer => unfold run onPlayerClickPlayer; infer_instance
  case enterRaceCheckpoint => unfold run onPlayerEnterRaceCheckpoint; infer_instance
  case playerText p text => exact absurd rfl (htext p text)
  case timer handle => exact absurd rfl (htimer handle)
  all_goals cases hcallback

end Event

/-! ## Timer callbacks -/

/-- Whether the callback of a timer meets nothing that throws. -/
def TimerCallback.returns (s : Server) : TimerCallback → Bool
  | endTurfWar a => ((keyAt s.zones (·.addr) a).bind s.zones.lookup).all fun zone =>
      !zone.warinfo.inWar || s.canEndWar zone false
  | turfWarWaitTimeout a => ((keyAt s.zones (·.addr) a).bind s.zones.lookup).all fun zone =>
      !zone.warinfo.inWar || s.canEndWar zone true
  | autoSaveProfile a => (keyAt s.profiles (·.addr) a).all fun p =>
      (s.profiles.lookup p).all fun pr => Profile.canSync s p pr
  | raceCountDown a => ((keyAt s.races (·.addr) a).bind s.races.lookup).all fun race =>
      decide (race.racedata.state = .ready)
  | changeWeather => true
  | changeTime => true

section Timers
variable {s : Server} {k p : ℤ} {callback : TimerCallback}

theorem wp_war_returns {addr : ℕ} {causedbytimeout : Bool}
    (hwar : callback.war? = some (addr, causedbytimeout)) :
    wp callback.run (fun _ _ => callback.returns s = true)
      (fun _ _ => ¬callback.returns s = true) s := by
  have hreturns : callback.returns s =
      ((keyAt s.zones (·.addr) addr).bind s.zones.lookup).all fun zone =>
        !zone.warinfo.inWar || s.canEndWar zone causedbytimeout := by
    cases callback <;> cases hwar <;> rfl
  rw [TimerCallback.run_of_war hwar, hreturns, wp_bind, wp_gets, wp_bind, wp_orUndefined]
  intro z hz
  rw [wp_bind]
  cases hzone : s.zones.lookup z with
  | none =>
    exact wp_of_undefined (by simp [GangZoneItem.endWar, GangZoneItem.ref, bind_apply, hzone])
  | some zone =>
    simp only [hz, Option.bind_some, hzone, Option.all_some, Bool.or_eq_true, Bool.not_eq_true']
    by_cases hin : zone.warinfo.inWar = true
    · refine wp_mono (GangZoneItem.wp_endWar_iff hzone hin) (fun _ t ht => Or.inr ht.1)
        (fun _ t ht => ?_)
      simp [hin, ht.1]
    · rw [GangZoneItem.endWar, GangZoneItem.ref, wp_bind, wp_bind, wp_gets, hzone, wp_orUndefined]
      rintro _ ⟨⟩
      rw [wp_ite, if_neg hin, wp_pure]
      exact Or.inl (by simpa using hin)

theorem wp_autoSave_returns {a : ℕ} : wp (TimerCallback.autoSaveProfile a).run
    (fun _ _ => (TimerCallback.autoSaveProfile a).returns s = true)
    (fun _ _ => ¬(TimerCallback.autoSaveProfile a).returns s = true) s := by
  simp only [TimerCallback.run, TimerCallback.returns, wp_bind, wp_gets, wp_orUndefined]
  intro p hp
  have hsync : Returns (Profile.sync p) s ↔
      ((s.profiles.lookup p).all fun pr => Profile.canSync s p pr) = true := by
    rw [returns_iff, Profile.wp_sync, Option.all_eq_true]
  rw [hp, Option.all_some]
  exact wp_mono (wp_of_returns_iff hsync) (fun _ _ h => h) (fun _ _ h => h)

/-- The countdown of a sound race throws exactly if the race is not ready. -/
theorem wp_countDown_returns {race : Racing} (hs : s.SoundRaces)
    (hrace : s.races.lookup k = some race) :
    wp (Racing.countDown k) (fun _ _ => race.racedata.state = .ready)
      (fun _ _ => ¬race.racedata.state = .ready) s := by
  have hc : s.track k = some (race.track s.samp.raceCheckpoint) := by simp [Server.track, hrace]
  simp only [Racing.countDown, Racing.ref, wp_bind, wp_gets, wp_orUndefined, wp_raiseIf, wp_ite]
  intro r hr
  obtain rfl : race = r := Option.some.inj (hrace.symm.trans hr)
  split
  case isTrue hnot => exact hnot
  case isFalse hready =>
  have hready : race.racedata.state = .ready := not_not.mp hready
  split
  case isTrue =>
    have hstarted : ∀ t : Server, t.track k = some (race.track s.samp.raceCheckpoint) → wp (do
        Racing.modifyData k fun d => { d with countdowntimerid := 0 }
        Racing.start k : Game Unit) (fun _ _ => race.racedata.state = .ready)
        (fun _ _ => ¬race.racedata.state = .ready) t := by
      intro t ht
      have hstopped := Server.track_modifyData (fun d => { d with countdowntimerid := 0 }) ht
        fun _ hd => ⟨hd, rfl⟩
      rw [wp_bind, Racing.modifyData, Racing.modifyRace, wp_modify]
      exact wp_mono (wp_start_track hstopped (hs k _ hc) hready) (fun _ _ _ => hready)
        (fun _ _ hf => hf.elim)
    rw [wp_when]
    split
    · exact hstarted _ hc
    · exact hstarted s hc
  case isFalse =>
    refine wp_mono (wp_forEach (I := fun _ => True) (J := fun _ _ => False) _ trivial
      fun q _ t _ => trivial) (fun _ t _ => ?_) (fun _ _ hf => hf.elim)
    exact hready

/-- The callback of a timer returns exactly if it meets nothing that throws. -/
theorem TimerCallback.wp_returns (hs : s.SoundRaces) : wp callback.run
    (fun _ _ => callback.returns s = true) (fun _ _ => ¬callback.returns s = true) s := by
  cases callback
  case endTurfWar a => exact wp_war_returns rfl
  case turfWarWaitTimeout a => exact wp_war_returns rfl
  case autoSaveProfile a => exact wp_autoSave_returns
  case changeWeather => exact rfl
  case changeTime => exact rfl
  case raceCountDown a =>
    simp only [run, returns, wp_bind, wp_gets, wp_orUndefined]
    intro k hk
    simp only [hk, Option.bind_some]
    cases hrace : s.races.lookup k with
    | none => exact wp_of_undefined (ref_gone hrace)
    | some race =>
      simp only [Option.all_some, decide_eq_true_eq]
      exact wp_countDown_returns hs hrace

end Timers

/-! ## Runs -/

/-- Whether a callback that catches nothing meets nothing that throws: the player who talks has a
profile and a team, and the callback of a timer that fires returns. -/
def Event.returns (s : Server) : Event → Bool
  | playerText p _ => (s.profiles.lookup p).any fun pr => (s.teams.members.lookup pr.team).isSome
  | timer handle => (s.timers.find? fun u => u.handle = handle).all fun tm => tm.callback.returns s
  | _ => true

section Runs
variable {s t : Server} {e : Event}

theorem returns_playerText {p : ℤ} {text : Text} :
    Returns (Event.run (.playerText p text)) s ↔ (Event.playerText p text).returns s = true := by
  rw [returns_iff]
  simp only [Event.run, discard, onPlayerText, native, emit, profileMgr, teamMgr, getItem,
    sendClientMessageToAll, wp_bind, wp_modify, wp_gets, wp_orRaise, wp_pure, Event.returns]
  cases s.profiles.lookup p with
  | none => simp
  | some pr =>
    simp only [Option.some.injEq, forall_eq', Option.any_some, reduceCtorEq, false_imp_iff,
      and_true]
    cases s.teams.members.lookup pr.team <;> simp

theorem wp_timer_returns {handle : ℤ} (hs : s.SoundRaces) : wp (fireTimer handle)
    (fun _ _ => (Event.timer handle).returns s = true)
    (fun _ _ => ¬(Event.timer handle).returns s = true) s := by
  rw [wp_fireTimer, Event.returns]
  refine ⟨fun hnone => by rw [hnone]; rfl, fun tm htm => ?_⟩
  have hrearmed : (s.rearmed tm).SoundRaces ∧
      tm.callback.returns (s.rearmed tm) = tm.callback.returns s := by
    obtain ⟨timers, heq⟩ := s.rearmed_eq tm
    rw [heq]
    exact ⟨hs.of_kept fun _ _ h => h, rfl⟩
  rw [htm, Option.all_some, ← hrearmed.2]
  exact TimerCallback.wp_returns hrearmed.1

/-- Whether an exception leaves a callback depends on the callbacks that catch nothing. -/
theorem returns_run_iff (hs : s.SoundRaces) (ht : (e.run s).state? = some t)
    (hcallback : e.isCallback = true) : Returns e.run s ↔ e.returns s = true := by
  by_cases htext : ∃ p text, e = .playerText p text
  · obtain ⟨p, text, rfl⟩ := htext
    exact returns_playerText
  by_cases htimer : ∃ handle, e = .timer handle
  · obtain ⟨handle, rfl⟩ := htimer
    exact returns_iff_of_wp (wp_timer_returns hs) ht
  have hnothrow := Event.nothrow_run hcallback (fun p text heq => htext ⟨p, text, heq⟩)
    fun handle heq => htimer ⟨handle, heq⟩
  refine iff_of_true (hnothrow.returns s) ?_
  cases e
  case playerText p text => exact absurd ⟨p, text, rfl⟩ htext
  case timer handle => exact absurd ⟨handle, rfl⟩ htimer
  all_goals rfl

end Runs

/-- In a run of the server no exception leaves a callback exactly if whoever talks has a profile and
a team, a war whose timer fires can be ended, a profile whose timer fires can be saved, and a race
whose timer fires is ready. -/
theorem exceptions_caught_iff (platform : Platform) (config : Config)
    (docs : Collection → List Document) (is : List (Event × Env)) :
    AllSteps Server.step (fun s i _ => i.1.isCallback = true → Returns i.1.run (s.begin i.2))
        (Server.initial platform config docs) is ↔
      Meets Server.step (fun s i => i.1.returns (s.begin i.2) = true)
        (Server.initial platform config docs) is := by
  refine allSteps_iff_meets (I := Server.SoundRaces) (fun s i t hs ht => ?_)
    (fun s i t hs ht _ => soundRaces_step ht hs) ?_
  · have hbegin : (s.begin i.2).SoundRaces := hs.of_kept fun _ _ h => h
    by_cases hcallback : i.1.isCallback = true
    · rw [← returns_run_iff hbegin ht hcallback]
      exact ⟨fun h => h hcallback, fun h _ => h⟩
    · refine iff_of_true (fun h => absurd h hcallback) ?_
      obtain ⟨e, env⟩ := i
      cases e
      case teamAdd => rfl
      case teamRemove => rfl
      case raceQuit => rfl
      case raceRemove => rfl
      all_goals exact absurd rfl hcallback
  · intro k c hc
    cases hc

namespace Demo

/-- The first player connects, and has not chosen a team yet. -/
def speechless : List (Event × Env) := quietly [.gameModeInit, .playerConnect 0]

end Demo

/-- A player without a team talks. -/
theorem teamless_player_talks : ¬∀ is,
    AllSteps Server.step (fun s i _ => i.1.isCallback = true → Returns i.1.run (s.begin i.2))
      Demo.initial is := by
  intro hall
  exact not_allSteps Demo.speechless (.playerText 0 [], Demo.env)
    (fun u _ => !((Event.playerText 0 []).run (u.begin Demo.env)).threw)
    (fun _ _ h => (Bool.not_eq_true' _).mpr (h rfl)) (by decide +kernel) (hall _)

end FreshCity
