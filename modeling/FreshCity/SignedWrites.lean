import FreshCity.OwnedProperties
import FreshCity.Restoring
import FreshCity.SignIns

/-!
# Writes of sessions that have signed in

The document of a profile is found by the player's name before any password is checked, and
the handlers that write to it differ in whether they ask `IsSignedIn`. `OnPlayerDisconnect`
does; the dialogs of the profile settings and of a sold property do not.
-/
namespace FreshCity
open Imperative Prog Run

/-! ## What is written for whom -/

/-- The id is that of a session that had signed in before the event, or that registers in it. -/
def SignedInAs (w : Server × SignIns) (i : Event × Env) (u : Server × SignIns) (id : OID) : Prop :=
  (∃ p, w.2 p = true ∧ Profile.Carries p id w.1) ∨
    ∃ p, i.1.registers w.1 i.2 p = true ∧ Profile.Carries p id u.1

/-- An event updates the documents of profiles, and those of properties that a profile owns,
for sessions that are signed in. -/
structure WritesSigned (w : Server × SignIns) (i : Event × Env) (u : Server × SignIns) : Prop where
  profile : ∀ id m, Effect.update .profile id m ∈ u.1.trace → SignedInAs w i u id
  property : ∀ o m prop, Effect.update .property o m ∈ u.1.trace →
    w.1.properties.lookup o = some prop → prop.owner.isSet = true → SignedInAs w i u prop.owner

/-- The documents that may be updated for the sessions that have signed in. -/
def Entitled (w : Server × SignIns) : Collection → OID → Prop
  | .profile, id => ∃ p, w.2 p = true ∧ Profile.Carries p id w.1
  | .property, o => ∀ prop, w.1.properties.lookup o = some prop → prop.owner.isSet = true →
    ∃ p, w.2 p = true ∧ Profile.Carries p prop.owner w.1
  | _, _ => True

/-- A response whose handler updates a document of its player, and does not ask `IsSignedIn`. -/
def Event.writesUnasked (s : Server) (env : Env) : Event → Bool
  | dialogResponse p dialogid response listitem inputtext =>
    decide (response = 1) && (s.profiles.lookup p).any fun pr =>
      pr.item.uniqueid.isSet && match dialog dialogid with
        | some .profileSetting => decide (listitem = 1)
        | some .profileSettingNickname => !inputtext.isEmpty
        | some .propertySold =>
          (pr.pvars.propertyLastviewed.bind fun o => s.properties.lookup o).any fun prop =>
            decide (prop.owner = pr.item.uniqueid) && (decide (listitem = 1) ||
              decide (listitem = 0) && decide (Property.earns s.platform prop env.time ≠ 0))
        | _ => false
  | _ => false

/-- Who writes without being asked has signed in, and a session starts with a profile that is
not signed in yet. -/
def signedFirst (w : Server × SignIns) (i : Event × Env) : Bool :=
  i.1.startsAnew w.1 && (!i.1.writesUnasked w.1 i.2 || i.1.player.any w.2)

section Dialogs
set_option synthInstance.maxSize 3000
open Server Dialog
variable {w : Server × SignIns} {s : Server} {p listitem : ℤ} {inputtext : Text} {pr : Profile}
  {P : Collection → OID → Prop}

/-- What writes to profiles leaves the properties alone. -/
abbrev settingKinds : List Kind :=
  [.output, .database, .profileItem, .profileLoaded, .profileGame, .update .profile]

/-- A save updates the document of its profile. -/
theorem wp_sync_trades (hs : s.Trades P) (hpr : s.profiles.lookup p = some pr)
    (hP : pr.item.uniqueid.isSet = true → P .profile pr.item.uniqueid) :
    wp (Profile.sync p) (fun _ => Trades P) (fun _ => Trades P) s :=
  wp_trades_of_only (K := settingKinds) inferInstance (by simp) hs.keyed
    (wp_mono (Profile.wp_sync_updates hs.only hpr hP) (fun _ _ hu => hu.only) (fun _ _ hu => hu.only))

/-- The choice to save, of `DIALOG_PROFILE_SETTING`, saves. -/
theorem wp_profileSetting_trades (hs : s.Trades P) (hpr : s.profiles.lookup p = some pr)
    (hP : listitem = 1 → pr.item.uniqueid.isSet = true → P .profile pr.item.uniqueid) :
    wp (profileSetting p listitem) (fun _ => Trades P) (fun _ => Trades P) s := by
  have houtput : ∀ {β : Type} {x : Game β} [Stays [.output] x], Keeps (Trades P) x :=
    fun {_ _} hx => keeps_trades_of_stays hx (by simp) (by simp)
  unfold profileSetting
  split
  case h_2 =>
    have htells : Keeps (Trades P) (sendClientMessage p .profileSynced) := houtput
    rw [wp_bind]
    exact wp_mono (wp_sync_trades hs hpr (hP rfl)) (fun _ _ hu => htells.wp_of_keeps hu)
      (fun _ _ hu => hu)
  all_goals exact houtput.wp_of_keeps hs

/-- A nickname that is not blank is stored. -/
theorem wp_profileSettingNickname_trades (hs : s.Trades P) (hpr : s.profiles.lookup p = some pr)
    (hP : inputtext.isEmpty = false → pr.item.uniqueid.isSet = true →
      P .profile pr.item.uniqueid) :
    wp (profileSettingNickname p inputtext) (fun _ => Trades P) (fun _ => Trades P) s := by
  have htells : ∀ m, Keeps (Trades P) (sendClientMessage p m) := fun _ =>
    keeps_trades_of_stays (K := [.output]) inferInstance (by simp) (by simp)
  rw [profileSettingNickname, wp_bind, wp_raiseIf]
  split
  case isTrue => exact hs
  case isFalse hblank =>
    rw [wp_bind]
    refine wp_mono (wp_trades_of_only (K := settingKinds) inferInstance (by simp) hs.keyed
      (Profile.wp_setNickname_updates hs.only hpr (hP (by simpa using hblank))))
      (fun _ _ hu => (htells _).wp_of_keeps hu) (fun _ _ hu => hu)

/-- `DIALOG_PROPERTY_SOLD` draws or sells for the owner. -/
theorem wp_propertySold_trades (hs : s.Trades P) (hpr : s.profiles.lookup p = some pr)
    (hP : ∀ o prop, pr.pvars.propertyLastviewed = some o → s.properties.lookup o = some prop →
      pr.item.uniqueid = prop.owner → (listitem = 1 ∧ prop.owner.isSet = true ∨
        listitem = 0 ∧ Property.earns s.platform prop s.env.time ≠ 0) → P .property o) :
    wp (propertySold p listitem) (fun _ => Trades P) (fun _ => Trades P) s := by
  simp only [propertySold, Profile.getVar, Profile.ref, propertyMgr, wp_bind, wp_gets, hpr,
    orUndefined_some, wp_pure, wp_orRaise]
  refine ⟨fun o hview => ⟨fun prop hprop => ?_, fun _ => hs⟩, fun _ => hs⟩
  split
  case h_1 =>
    rw [wp_bind]
    exact wp_mono (Property.wp_draw_trades hs hprop hpr fun howner hearns =>
      hP o prop hview hprop howner (.inr ⟨rfl, hearns⟩)) (fun _ _ hu => hu) (fun _ _ hu => hu)
  case h_2 =>
    exact Property.wp_sell_trades hs hprop hpr fun hset howner =>
      hP o prop hview hprop howner (.inl ⟨rfl, hset⟩)
  case h_3 => exact hs

/-- `DIALOG_PROPERTY_ONSALE` buys what no one owns. -/
theorem wp_propertyOnSale_trades (hs : s.Trades P) (hpr : s.profiles.lookup p = some pr)
    (hP : ∀ o prop, s.properties.lookup o = some prop → prop.owner.isSet = false →
      P .property o) :
    wp (propertyOnSale p) (fun _ => Trades P) (fun _ => Trades P) s := by
  have htells : ∀ m, Keeps (Trades P) (sendClientMessage p m) := fun _ =>
    keeps_trades_of_stays (K := [.output]) inferInstance (by simp) (by simp)
  simp only [propertyOnSale, Profile.getVar, Profile.ref, propertyMgr, wp_bind, wp_gets, hpr,
    orUndefined_some, wp_pure, wp_orRaise]
  refine ⟨fun o hview => ⟨fun prop hprop => ?_, fun _ => hs⟩, fun _ => hs⟩
  exact wp_mono (Property.wp_purchase_trades hs hprop (hP o prop hprop))
    (fun _ _ hu => (htells _).wp_of_keeps hu) (fun _ _ hu => hu)

/-- What constructs a property and registers it. -/
abbrev importKinds : List Kind :=
  [.output, .profileVars, .database, .counters, .streamer, .pickups, .insert .property]

theorem keeps_trades_importKinds {α : Type} {x : Game α} [hx : Stays importKinds x] :
    Keeps (Trades P) x := keeps_trades_of_stays hx (by simp) (by simp)

theorem keeps_trades_propertyCreateProfit : Keeps (Trades P) (propertyCreateProfit p inputtext) := by
  have hkinds : ∀ {β : Type} {x : Game β} [Stays importKinds x], Keeps (Trades P) x :=
    keeps_trades_importKinds
  unfold propertyCreateProfit modifyPropertyCreation
  infer_instance

theorem keeps_trades_importProperty : Keeps (Trades P) (Command.importProperty inputtext) := by
  have hkinds : ∀ {β : Type} {x : Game β} [Stays importKinds x], Keeps (Trades P) x :=
    keeps_trades_importKinds
  have hadd : ∀ platform line pos, Keeps (Trades P) (Command.importAt platform line pos) := fun _ _ _ => by
    unfold Command.importAt
    infer_instance
  have hline : ∀ line, Keeps (Trades P) (Command.importLine line) := fun _ => by
    unfold Command.importLine
    infer_instance
  unfold Command.importProperty
  infer_instance

theorem keeps_trades_serverMain : Keeps (Trades P) (serverMain listitem) := by
  have hothers : ∀ {β : Type} {x : Game β} [Stays [.output, .sampZones, .database, .streamer,
      .counters, .config, .teamIds, .insertTeam, .clearTeams, .zones, .areas, .pickups, .readConfig,
      .reload .team, .reload .gangzone] x], Keeps (Trades P) x :=
    fun {_ _} hx => keeps_trades_of_stays hx (by simp) (by simp)
  unfold serverMain
  split <;> infer_instance

theorem keeps_trades_loadGameMode : Keeps (Trades P) loadGameMode := by
  have hothers : ∀ {β : Type} {x : Game β} [Stays [.output, .sampZones, .streamer, .database,
      .counters, .insertProfile (-1), .teamIds, .insertTeam, .clearTeams, .zones, .areas, .pickups,
      .destroyTimer, .reload .team, .reload .gangzone] x], Keeps (Trades P) x :=
    fun {_ _} hx => keeps_trades_of_stays hx (by simp) (by simp)
  have htimer : ∀ c d, c.target = .nothing → Keeps (Trades P) (createTimer c d true) :=
    fun c d hc => keeps_trades_of_stays (K := [.output, .createTimer .nothing])
      (stays_createTimer .nothing hc) (by simp) (by simp)
  have hweather : Keeps (Trades P) (createTimer .changeWeather 300000 true) := htimer _ _ rfl
  have htime : Keeps (Trades P) (createTimer .changeTime 60000 true) := htimer _ _ rfl
  unfold loadGameMode
  infer_instance

end Dialogs

/-! ## Steps -/

/-- What every step keeps, of the server and of those who have signed in. -/
structure Signing (w : Server × SignIns) : Prop where
  addressed : w.1.Addressed
  saves : w.1.SavesMinded
  signed : w.1.SignedWithin fun p => w.2 p = true
  keyed : w.1.PropertiesKeyed

section Steps
open Server
variable {w u : Server × SignIns} {t : Server} {e : Event} {env : Env} {p : ℤ} {pr : Profile}

theorem Signing.begin (h : Signing w) (env : Env) : (w.1.begin env).Trades (Entitled w) :=
  ⟨.of_nil rfl, h.keyed⟩

/-- A session that has signed in may write to its own document. -/
theorem entitled_of_signed (hpr : w.1.profiles.lookup p = some pr) (hp : w.2 p = true) :
    Entitled w .profile pr.item.uniqueid := ⟨p, hp, pr, hpr, rfl⟩

/-- What an event updates that registers no one. -/
theorem writesSigned_of_trades {i : Event × Env} (h : u.1.Trades (Entitled w)) :
    WritesSigned w i u where
  profile id m hmem := .inl (h.only .profile id m hmem)
  property o m prop hmem hprop howner := .inl (h.only .property o m hmem prop hprop howner)

/-- A timer saves a profile that is signed in. -/
theorem trades_timer {handle : ℤ} (h : Signing w) :
    wp (fireTimer handle) (fun _ => Trades (Entitled w)) (fun _ => Trades (Entitled w))
      (w.1.begin env) := by
  refine wp_fireTimer.mpr ⟨fun _ => h.begin env, fun tm htm => ?_⟩
  have hrearmed : ((w.1.begin env).rearmed tm).Trades (Entitled w) ∧
      ((w.1.begin env).rearmed tm).profiles = w.1.profiles := by
    obtain ⟨timers, heq⟩ := (w.1.begin env).rearmed_eq tm
    rw [heq]
    exact ⟨⟨.of_nil rfl, h.keyed⟩, rfl⟩
  obtain ⟨hrearmed, hprofiles⟩ := hrearmed
  have hmem : tm ∈ w.1.timers := List.mem_of_find?_eq_some htm
  have hstay := TimerCallback.stays_run tm.callback
  cases hcallback : tm.callback
  case autoSaveProfile a =>
    have htells : ∀ p m, Keeps (Trades (Entitled w)) (sendClientMessage p m) := fun _ _ =>
      keeps_trades_of_stays (K := [.output]) inferInstance (by simp) (by simp)
    simp only [TimerCallback.run, wp_bind, wp_gets, wp_orUndefined, hprofiles]
    intro p hkey
    obtain ⟨pr, hpr, hminds⟩ := minds_of_keyAt h.addressed h.saves hmem hcallback hkey
    have htarget : tm ∈ w.1.timersFor .profile := mem_timersFor.mpr ⟨hmem, by rw [hcallback]; rfl⟩
    have htimer : pr.auth.autosavetimer ≠ 0 := hminds.handle ▸ h.saves.handles.ne_zero htarget
    have hp : w.2 p = true := h.signed.player p pr hpr (h.signed.timer p pr hpr htimer)
    exact wp_mono (wp_sync_trades hrearmed (hprofiles ▸ hpr) fun _ => entitled_of_signed hpr hp)
      (fun _ _ hu => (htells _ _).wp_of_keeps hu) (fun _ _ hu => hu)
  all_goals
    rw [hcallback] at hstay
    refine (keeps_trades_of_stays hstay (by simp [TimerCallback.footprint]) ?_).wp_of_keeps hrearmed
    simp [TimerCallback.footprint, Entitled]

/-- A disconnect saves a profile that is signed in. -/
theorem trades_disconnect {reason : ℤ} (h : Signing w) :
    wp (Event.run (.playerDisconnect p reason)) (fun _ => Trades (Entitled w))
      (fun _ => Trades (Entitled w)) (w.1.begin env) := by
  have hends : Keeps (Trades (Entitled w)) (endSession p) :=
    keeps_trades_of_stays (K := [.output, .sampTeam p, .streamer, .eraseProfile p, .profileTeam,
      .teamRoster, .destroyTimer]) inferInstance (by simp) (by simp)
  have hstart : Trades (Entitled w) { w.1.begin env with
      trace := .native (.streamerOnPlayerDisconnect p reason) :: (w.1.begin env).trace } :=
    ⟨(h.begin env).only.cons (fun _ _ _ heq => by cases heq), (h.begin env).keyed⟩
  refine wp_playerDisconnect.mpr ⟨fun _ => hstart, fun pr hpr => ?_⟩
  rw [wp_when]
  replace hpr : w.1.profiles.lookup p = some pr := hpr
  split
  case isTrue hsave =>
    have hp : w.2 p = true := h.signed.player p pr hpr hsave.2
    exact wp_mono (wp_sync_trades hstart hpr fun _ => entitled_of_signed hpr hp)
      (fun _ _ hu => hends.wp_of_keeps hu) (fun _ _ hu => hu)
  case isFalse => exact hends.wp_of_keeps hstart

/-- A response other than a registration writes for sessions that have signed in. -/
theorem trades_dialogResponse {dialogid response listitem : ℤ} {inputtext : Text} (h : Signing w)
    (hfirst : signedFirst w (.dialogResponse p dialogid response listitem inputtext, env) = true)
    (hregister : Event.dialog dialogid ≠ some .profileRegister) :
    wp (Event.run (.dialogResponse p dialogid response listitem inputtext))
      (fun _ => Trades (Entitled w)) (fun _ => Trades (Entitled w)) (w.1.begin env) := by
  refine wp_dialogResponse (fun _ _ hab ha => Kind.trades hab (by simp) (by simp) ha)
    (h.begin env) fun pr d hpr hd hresponse => ?_
  replace hpr : w.1.profiles.lookup p = some pr := hpr
  have hpr' : (w.1.begin env).profiles.lookup p = some pr := hpr
  have hstay := Dialog.stays_callback p listitem inputtext d
  -- the handler writes unasked, so the player has signed in
  have hasked : Event.writesUnasked w.1 env (.dialogResponse p dialogid response listitem inputtext) =
      true → w.2 p = true := by
    intro hwrites
    simpa [signedFirst, hwrites, Event.player] using (Bool.and_eq_true_iff.mp hfirst).2
  cases d
  case profileRegister => exact absurd hd hregister
  case profileSetting =>
    have hyes : response = 1 := by simpa [Dialog.mustResponse] using hresponse
    refine wp_profileSetting_trades (h.begin env) hpr' fun hitem hset =>
      entitled_of_signed hpr (hasked ?_)
    simp [Event.writesUnasked, hyes, hpr, hset, hd, hitem]
  case profileSettingNickname =>
    have hyes : response = 1 := by simpa [Dialog.mustResponse] using hresponse
    refine wp_profileSettingNickname_trades (h.begin env) hpr' fun hblank hset =>
      entitled_of_signed hpr (hasked ?_)
    simp [Event.writesUnasked, hyes, hpr, hset, hd, hblank]
  case propertySold =>
    have hyes : response = 1 := by simpa [Dialog.mustResponse] using hresponse
    refine wp_propertySold_trades (h.begin env) hpr' fun o prop hview hprop howner hitem => ?_
    replace hprop : w.1.properties.lookup o = some prop := hprop
    intro prop' hprop' hset
    obtain rfl := Option.some.inj (hprop.symm.trans hprop')
    refine ⟨p, hasked ?_, pr, hpr, howner⟩
    have hdeals : (decide (listitem = 1) || decide (listitem = 0) &&
        decide (Property.earns w.1.platform prop env.time ≠ 0)) = true := by
      rcases hitem with ⟨hitem, -⟩ | ⟨hitem, hearns⟩
      · simp [hitem]
      · have hearns' : Property.earns w.1.platform prop env.time ≠ 0 := hearns
        simp [hitem, hearns']
    simp only [Event.writesUnasked, hyes, hpr, hd, hview, hprop, Option.any_some, Option.bind_some,
      howner, hset, decide_true, Bool.true_and]
    exact hdeals
  case propertyOnSale =>
    refine wp_propertyOnSale_trades (h.begin env) hpr' fun o prop hprop honsale prop' hprop' hset => ?_
    replace hprop : w.1.properties.lookup o = some prop := hprop
    obtain rfl := Option.some.inj (hprop.symm.trans hprop')
    rw [honsale] at hset
    cases hset
  case propertyCreateProfit => exact keeps_trades_propertyCreateProfit.wp_of_keeps (h.begin env)
  case serverMain => exact keeps_trades_serverMain.wp_of_keeps (h.begin env)
  all_goals
    refine (keeps_trades_of_stays hstay (by simp [Dialog.footprint]) ?_).wp_of_keeps (h.begin env)
    simp [Dialog.footprint]

/-- What a registration leaves: nothing is updated, or the document it created. -/
def AfterRegistration (s : Server) (p : ℤ) (inputtext : Text) (u : Server) : Prop :=
  u.PropertiesKeyed ∧ (u.UpdatesOnly (fun _ _ => False) ∨
    (inputtext.isEmpty = false ∧ Profile.creates s p (s.env.name p) inputtext = true) ∧
      Profile.Created p (Profile.newId s) u)

theorem Kind.afterRegistration {k : Kind} {s a b : Server} {inputtext : Text} (h : k.change a b)
    (hk : k ≠ .properties) (hids : k.keepsIds = true) (ha : AfterRegistration s p inputtext a) :
    AfterRegistration s p inputtext b := by
  obtain ⟨hkeyed, hupdates⟩ := ha
  refine ⟨by rwa [PropertiesKeyed, (Kind.frame h).properties hk], ?_⟩
  obtain hnone | ⟨hcreates, hcreated⟩ := hupdates
  · exact .inl (Kind.updatesOnly h (by rintro c rfl; cases hids) hnone)
  · exact .inr ⟨hcreates, Kind.updates h hids hcreated⟩

/-- A registration updates the document that it creates. -/
theorem wp_profileRegister_after {s : Server} {inputtext : Text} (hkeyed : s.PropertiesKeyed)
    (hnone : s.UpdatesOnly fun _ _ => False) :
    wp (Dialog.profileRegister p inputtext) (fun _ => AfterRegistration s p inputtext)
      (fun _ => AfterRegistration s p inputtext) s := by
  have hout : ∀ a b, Kind.output.change a b → AfterRegistration s p inputtext a →
      AfterRegistration s p inputtext b :=
    fun _ _ hab ha => Kind.afterRegistration hab (by simp) rfl ha
  have hcreate : Keeps PropertiesKeyed (Profile.create p (s.env.name p) inputtext) :=
    keeps_keyed_of_stays (K := sessionKinds p) inferInstance (by simp)
  have hstay : Stays [.output, .profileSignIn, .createTimer .profile]
      (Profile.setSignedIn p true) := inferInstance
  have hsign : Keeps (AfterRegistration s p inputtext) (Profile.setSignedIn p true) :=
    hstay.keeps fun k hk a b hab ha => Kind.afterRegistration hab (by rintro rfl; simp at hk)
      (by revert k; simp [Kind.keepsIds]) ha
  refine wp_profileRegister (J := AfterRegistration s p inputtext) ⟨hkeyed, .inl hnone⟩ hout hout
    (fun hpassword => ?_) fun u hu => hsign.wp_of_keeps hu
  refine wp_mono (wp_and (Profile.wp_create_updates hnone) (hcreate.wp_of_keeps hkeyed))
    (fun _ u hu => ?_) (fun _ u hu => ?_)
  · obtain ⟨⟨hcreates, hcreated⟩, hkeyed⟩ := hu
    exact ⟨hkeyed, .inr ⟨⟨hpassword, hcreates⟩, hcreated⟩⟩
  · obtain ⟨hnone | ⟨hcreates, hcreated⟩, hkeyed⟩ := hu
    · exact ⟨hkeyed, .inl hnone⟩
    · exact ⟨hkeyed, .inr ⟨⟨hpassword, hcreates⟩, hcreated⟩⟩

theorem afterRegistration_dialogResponse {dialogid response listitem : ℤ} {inputtext : Text}
    (hd : Event.dialog dialogid = some .profileRegister) (h : Signing w) :
    wp (Event.run (.dialogResponse p dialogid response listitem inputtext))
      (fun _ => AfterRegistration (w.1.begin env) p inputtext)
      (fun _ => AfterRegistration (w.1.begin env) p inputtext) (w.1.begin env) := by
  refine wp_dialogResponse (fun _ _ hab ha => Kind.afterRegistration hab (by simp) rfl ha)
    ⟨h.keyed, .inl (.of_nil rfl)⟩ fun pr d hpr hd' _ => ?_
  obtain rfl := Option.some.inj (hd.symm.trans hd')
  exact wp_profileRegister_after h.keyed (.of_nil rfl)

/-- The session that a registration writes for is the one it registers. -/
theorem writesSigned_of_register {dialogid response listitem : ℤ} {inputtext : Text}
    (hd : Event.dialog dialogid = some .profileRegister)
    (h : AfterRegistration (w.1.begin env) p inputtext u.1) :
    WritesSigned w (.dialogResponse p dialogid response listitem inputtext, env) u := by
  obtain ⟨-, hnone | ⟨⟨hpassword, hcreates⟩, hcreated⟩⟩ := h
  · exact ⟨fun id m hmem => (hnone .profile id m hmem).elim,
      fun o m prop hmem _ _ => (hnone .property o m hmem).elim⟩
  · have hregisters : Event.registers w.1 env p
        (.dialogResponse p dialogid response listitem inputtext) = true := by
      simp only [Event.registers, hd, hpassword, decide_true, Bool.not_false, Bool.true_and]
      exact hcreates
    constructor
    · intro id m hmem
      obtain ⟨-, rfl⟩ := hcreated.only .profile id m hmem
      exact .inr ⟨p, hregisters, hcreated.carries⟩
    · intro o m prop hmem _ _
      obtain ⟨hc, -⟩ := hcreated.only .property o m hmem
      cases hc

/-- Every step updates for sessions that have signed in, and keeps track of them. -/
theorem signing_step (h : Signing w) (hstep : Server.signing w (e, env) = some u)
    (hfirst : signedFirst w (e, env) = true) : WritesSigned w (e, env) u ∧ Signing u := by
  obtain ⟨ht, hsee⟩ := watch_eq_some.mp hstep
  have hnew : e.startsAnew w.1 = true := (Bool.and_eq_true_iff.mp hfirst).1
  have hsigned : u.1.SignedWithin fun p => u.2 p = true := by
    rw [← hsee]
    exact signedWithin_step ht hnew h.signed
  have hkeeps : u.1.PropertiesKeyed → Signing u := fun hkeyed =>
    ⟨addressed_step ht h.addressed, savesMinded_step ht h.saves, hsigned, hkeyed⟩
  have hdone : u.1.Trades (Entitled w) → WritesSigned w (e, env) u ∧ Signing u := fun hu =>
    ⟨writesSigned_of_trades hu, hkeeps hu.keyed⟩
  cases e
  case gameModeInit =>
    exact hdone (Server.of_step (P := Trades (Entitled w)) ht (wp_gameModeInit
      (fun _ _ hab ha => Kind.trades hab (by simp) (by simp) ha) (h.begin env)
      fun v hv => keeps_trades_loadGameMode.wp_of_keeps hv))
  case playerDisconnect => exact hdone (Server.of_step ht (trades_disconnect h))
  case playerCommandText p cmdtext =>
    refine hdone (Server.of_step ht (wp_commandText
      (fun _ _ hab ha => Kind.trades hab (by simp) (by simp) ha) (h.begin env)
      fun pr cmd line d _ _ _ _ => ?_))
    have hstay := Command.stays_run p line d
    cases d
    case importProperty => exact keeps_trades_importProperty.wp_of_keeps (h.begin env)
    all_goals
      refine (keeps_trades_of_stays hstay (by simp [Command.footprint]) ?_).wp_of_keeps (h.begin env)
      simp [Command.footprint]
  case dialogResponse p dialogid response listitem inputtext =>
    by_cases hd : Event.dialog dialogid = some .profileRegister
    · have hafter : AfterRegistration (w.1.begin env) p inputtext u.1 :=
        Server.of_step ht (afterRegistration_dialogResponse hd h)
      exact ⟨writesSigned_of_register hd hafter, hkeeps hafter.1⟩
    · exact hdone (Server.of_step ht (trades_dialogResponse h hfirst hd))
  case timer => exact hdone (Server.of_step ht (trades_timer h))
  all_goals
    refine hdone (trades_of_path (Server.step_path ht) (by simp [Event.footprint]) ?_ (h.begin env))
    simp [Event.footprint]

end Steps

/-! ## Runs -/

/-- In every run in which the dialogs that do not ask are answered by players who have signed in,
and no session takes over a profile that is signed in, the documents of profiles and of their
properties are updated for sessions that are signed in. -/
theorem writes_signed (platform : Platform) (config : Config) (docs : Collection → List Document)
    (is : List (Event × Env))
    (h : Meets Server.signing (fun w i => signedFirst w i = true)
      (Server.initial platform config docs, fun _ => false) is) :
    AllSteps Server.signing WritesSigned (Server.initial platform config docs, fun _ => false) is := by
  refine AllSteps.of_invariant (fun w i u hI hstep hC => signing_step hI hstep hC) ?_ h
  have hset : (Server.initial platform config docs).HandlesSet :=
    ⟨Int.one_pos, fun tm htm => absurd htm List.not_mem_nil⟩
  have hnone : ∀ (p : ℤ) (pr : Profile),
      (Server.initial platform config docs).profiles.lookup p ≠ some pr := fun _ _ heq => by cases heq
  exact ⟨⟨fun p pr hpr => absurd hpr (hnone p pr), fun p _ pr _ hpr => absurd hpr (hnone p pr)⟩,
    ⟨hset, .nil⟩, ⟨fun p pr hpr => absurd hpr (hnone p pr), fun p pr hpr => absurd hpr (hnone p pr)⟩,
    fun _ _ heq => by cases heq⟩

namespace Demo

/-- The response by which a player saves the profile. -/
def saveProfile (p : ℤ) : Event := .dialogResponse p 26 1 1 []

end Demo

/-- A player logs in, saves the profile, has it saved by the timer, and leaves. -/
theorem writes_signed_login :
    AllSteps Server.signing WritesSigned (Demo.accounts, fun _ => false)
      (Demo.quietly [.playerConnect 0, Demo.login 0, Demo.saveProfile 0, .timer 1,
        .playerDisconnect 0 1]) :=
  writes_signed _ _ _ _ (meets_of_check (b := signedFirst) (fun _ _ h => h) (by decide +kernel))

/-- A test for a player who has signed in, if the document of a profile was updated. -/
def someoneSigned (w u : Server × SignIns) : Bool :=
  !(u.1.trace.any fun e => e.kind = .update .profile) || w.1.profiles.keys.any w.2

theorem someoneSigned_of_writesSigned {w u : Server × SignIns}
    (h : WritesSigned w (Demo.saveProfile 0, Demo.env) u) : someoneSigned w u = true := by
  rw [someoneSigned, Bool.or_eq_true, Bool.not_eq_true', ← Bool.not_eq_true]
  refine or_iff_not_imp_left.mpr fun hupdate => ?_
  obtain ⟨e, hmem, hkind⟩ := List.any_eq_true.mp (not_not.mp hupdate)
  cases e
  case update c id m =>
    obtain rfl : c = .profile := by simpa [Effect.kind] using hkind
    obtain ⟨p, hp, pr, hpr, -⟩ | ⟨p, hregisters, -⟩ := h.profile id m hmem
    · exact List.any_eq_true.mpr ⟨p, AList.mem_keys.mp (Map.mem_iff_lookup.mpr ⟨pr, hpr⟩), hp⟩
    · have hdialog : Event.dialog 26 ≠ some .profileRegister := by decide
      simp [Event.registers, Demo.saveProfile, hdialog] at hregisters
  all_goals simp [Effect.kind] at hkind

/-- Before the password is asked for, the player saves the profile that has the name. -/
theorem saved_without_login :
    ¬∀ is, AllSteps Server.signing WritesSigned (Demo.accounts, fun _ => false) is := by
  intro hall
  exact not_allSteps (Demo.quietly [.playerConnect 0]) (Demo.saveProfile 0, Demo.env) someoneSigned
    (fun _ _ => someoneSigned_of_writesSigned) (by decide +kernel) (hall _)

end FreshCity
