import FreshCity.Imperative.Run
import FreshCity.Views

/-!
# The two copies of a player's money

A profile holds its player's money, and SA-MP holds it too. `GiveMoney` writes both.
A death takes money from the copy of SA-MP alone.
-/
namespace FreshCity
open Imperative Prog Run

namespace Server

/-- SA-MP holds for every player what the player's profile holds. -/
def MoneyAgrees (s : Server) : Prop :=
  ∀ p pr, 0 ≤ p → s.profiles.lookup p = some pr → s.samp.money p = pr.gamedata.money

/-- The server after money was given to a player: both copies hold the new sum. -/
def given (s : Server) (p : ℤ) (pr : Profile) (money : ℤ) (trace : List Effect) : Server :=
  { s with
    trace := trace
    profiles := s.profiles.adjust p fun q => { q with
      gamedata := { q.gamedata with money := s.platform.int (q.gamedata.money + money) } }
    samp := { s.samp with
      money := Function.update s.samp.money p
        (s.platform.int (0 + s.platform.int (pr.gamedata.money + money))) } }

end Server

theorem Profile.wp_giveMoney {s : Server} {p money : ℤ} {pr : Profile} {Q : Unit → Server → Prop}
    {E : Exn → Server → Prop} (hpr : s.profiles.lookup p = some pr)
    (h : ∀ trace, Q () (s.given p pr money trace)) : wp (Profile.giveMoney p money) Q E s := by
  simp only [Profile.giveMoney, Profile.modifyGame, Profile.ref, resetPlayerMoney, givePlayerMoney,
    emit, wp_bind, wp_gets, wp_modify, wp_orUndefined, Map.lookup_adjust, if_true, hpr,
    Option.map_some, Option.some.injEq, forall_eq', Function.update_self, Function.update_idem]
  exact h _

/-! ## Kinds of change -/

namespace Kind

/-- A change that writes neither copy keeps them equal, if a new profile finds no money. -/
theorem moneyAgrees {k : Kind} {s t : Server} (h : k.change s t) (hsamp : k ≠ .sampMoney)
    (hmoney : k ≠ .profileMoney)
    (hnew : ∀ p, k = .insertProfile p → 0 ≤ p → s.samp.money p = 0) (hs : s.MoneyAgrees) :
    t.MoneyAgrees := by
  have hframe := frame h
  intro p pr' hp hpr'
  rw [hframe.sampMoney hsamp]
  by_cases hinsert : k = .insertProfile p
  · have hzero := hnew p hinsert hp
    subst hinsert
    obtain ⟨pr, hpr, -, rfl⟩ := h
    rw [AList.lookup_insert, Option.some.injEq] at hpr'
    rw [hzero, ← hpr', hpr.money]
  · have hmem : p ∈ s.profiles := mem_profiles h hinsert (Map.mem_iff_lookup.mpr ⟨pr', hpr'⟩)
    obtain ⟨pr, hpr⟩ := Map.mem_iff_lookup.mp hmem
    have herase : k ≠ .eraseProfile p := by
      rintro rfl
      rw [h] at hpr'
      simp at hpr'
    obtain ⟨pr'', hpr'', hev⟩ := evolves h herase hpr
    obtain rfl := Option.some.inj (hpr''.symm.trans hpr')
    rw [hev.money hmoney, hs p pr hp hpr]

/-- The kinds that leave both copies alone. -/
def keepsMoney : Kind → Bool
  | sampMoney => false
  | profileMoney => false
  | insertProfile p => decide (p < 0)
  | _ => true

theorem moneyAgrees_of_keepsMoney {k : Kind} {s t : Server} (h : k.change s t)
    (hk : k.keepsMoney = true) (hs : s.MoneyAgrees) : t.MoneyAgrees := by
  refine moneyAgrees h ?_ ?_ ?_ hs
  · rintro rfl; cases hk
  · rintro rfl; cases hk
  · rintro p rfl hp
    simp only [keepsMoney, decide_eq_true_eq] at hk
    omega

end Kind

/-- The kinds of change that go along with giving money and score. -/
abbrev aroundMoney : List Kind :=
  [.output, .samp, .sampZones, .streamer, .pickups, .properties, .zoneData, .database,
    .update .property, .createTimer .profile, .createTimer .zone, .setVar .propertyLastviewtime,
    .setVar .propertyLastviewed, .profileVars, .profileKills, .profileRole, .profileSignIn]

/-! ## What gives money -/

/-- An invariant of what gives money, and of what else happens there. -/
class KeptByGifts (I : Server → Prop) : Prop where
  around : ∀ k ∈ aroundMoney, ∀ s t, k.change s t → I s → I t
  giveMoney : ∀ p money, Keeps I (Profile.giveMoney p money)
  giveScore : ∀ p score, Keeps I (Profile.giveScore p score)
  setColor : ∀ p color, Keeps I (Profile.setColor p color)
  load : ∀ p, Keeps I (Profile.load p)

section Gifts
set_option synthInstance.maxSize 3000
variable {I : Server → Prop} [hI : KeptByGifts I] {p killerid z money score color listitem : ℤ}
  {o : OID}

instance (priority := low) keeps_aroundMoney {α : Type} {x : Game α} [hx : Stays aroundMoney x] :
    Keeps I x := hx.keeps hI.around

instance : Keeps I (Profile.giveMoney p money) := hI.giveMoney p money

instance : Keeps I (Profile.giveScore p score) := hI.giveScore p score

instance : Keeps I (Profile.setColor p color) := hI.setColor p color

instance : Keeps I (Profile.load p) := hI.load p

instance : Keeps I (Profile.applyDataToPlayer p) := by
  unfold Profile.applyDataToPlayer rethrowAs
  infer_instance

instance : Keeps I (Property.draw o p) := by
  unfold Property.draw
  infer_instance

instance : Keeps I (Property.purchase o p) := by
  unfold Property.purchase
  infer_instance

instance : Keeps I (Property.sell o p) := by
  unfold Property.sell
  infer_instance

instance {text : Text} : Keeps I (Dialog.profileLogin p text) := by
  unfold Dialog.profileLogin
  infer_instance

instance : Keeps I (Dialog.propertyOnSale p) := by
  unfold Dialog.propertyOnSale
  infer_instance

instance : Keeps I (Dialog.propertySold p listitem) := by
  unfold Dialog.propertySold
  refine within_bind (j := fun o => within_bind (j := fun _ => ?_))
  split <;> infer_instance

instance {c : PickupClass} : Keeps I (c.effect p) := by
  cases c <;> unfold PickupClass.effect <;> infer_instance

instance : Keeps I (PickupManager.exec p z) := by
  unfold PickupManager.exec
  infer_instance

instance : Keeps I (onPlayerPickUpPickup p) := by
  unfold onPlayerPickUpPickup reported
  infer_instance

instance : Keeps I (rewardKiller p killerid) := by
  unfold rewardKiller
  infer_instance

instance : Keeps I (playerDeath p killerid) := by
  unfold playerDeath
  infer_instance

end Gifts

/-- Both copies are given the same money. -/
theorem keeps_giveMoney_moneyAgrees {p money : ℤ} : Keeps Server.MoneyAgrees (Profile.giveMoney p money) := by
  refine keeps_of_wp fun s hs => ?_
  cases hpr : s.profiles.lookup p with
  | none => simp [Profile.giveMoney, Profile.modifyGame, Profile.ref, resetPlayerMoney, emit, hpr]
  | some pr =>
    refine Profile.wp_giveMoney hpr fun trace q pr' hq hpr' => ?_
    by_cases hqp : q = p
    · subst hqp
      simp only [Server.given, Map.lookup_adjust, if_true, hpr, Option.map_some,
        Option.some.injEq] at hpr'
      simp [Server.given, ← hpr', s.platform.int_int]
    · simp only [Server.given, Map.lookup_adjust, if_neg hqp] at hpr'
      simpa [Server.given, hqp] using hs q pr' hq hpr'

theorem keeps_moneyAgrees {α : Type} {K : List Kind} {x : Game α} (hx : Stays K x)
    (hK : ∀ k ∈ K, k.keepsMoney = true) : Keeps Server.MoneyAgrees x :=
  hx.keeps fun k hk _ _ hab => Kind.moneyAgrees_of_keepsMoney hab (hK k hk)

instance : KeptByGifts Server.MoneyAgrees where
  around k hk _ _ hab := by
    have hK : ∀ k ∈ aroundMoney, k.keepsMoney = true := by simp [Kind.keepsMoney]
    exact Kind.moneyAgrees_of_keepsMoney hab (hK k hk)
  giveMoney _ _ := keeps_giveMoney_moneyAgrees
  giveScore _ _ := keeps_moneyAgrees (K := [.output, .samp, .profileGame]) inferInstance
    (by simp [Kind.keepsMoney])
  setColor _ _ := keeps_moneyAgrees (K := [.output, .samp, .profileGame]) inferInstance
    (by simp [Kind.keepsMoney])
  load _ := keeps_moneyAgrees (K := [.profileLoaded]) inferInstance (by simp [Kind.keepsMoney])

/-! ## Events -/

namespace Server

/-- SA-MP gives a player who connects no money. -/
def welcome (s : Server) : Event → Server
  | .playerConnect p => { s with samp := { s.samp with money := Function.update s.samp.money p 0 } }
  | _ => s

/-- One event, after SA-MP has set up a new player. -/
def moneyStep (s : Server) (i : Event × Env) : Option Server := (s.welcome i.1).step i

end Server

namespace Event

/-- No player with a profile dies, and no one who connects gets a profile with money in it. -/
def keepsMoney (s : Server) : Event → Bool
  | playerConnect p => (s.profiles.lookup p).all fun pr => decide (pr.gamedata.money = 0)
  | playerDeath p _ _ => decide (p < 0 ∨ p ∉ s.profiles)
  | _ => true

/-- The events that give no money and start no session. -/
def isCalm : Event → Bool
  | playerConnect _ => false
  | dialogResponse _ _ _ _ _ => false
  | playerDeath _ _ _ => false
  | pickUpPickup _ => false
  | _ => true

theorem keepsMoney_footprint {e : Event} (he : e.isCalm = true) :
    ∀ k ∈ e.footprint, k.keepsMoney = true := by
  cases e
  case playerCommandText p cmdtext =>
    simp [footprint, CommandId.all, Command.footprint, Kind.keepsMoney]
  case playerConnect => cases he
  case dialogResponse => cases he
  case playerDeath => cases he
  case pickUpPickup => cases he
  all_goals simp [footprint, Kind.keepsMoney]

end Event

section Events
open Server
variable {s t : Server} {e : Event} {env : Env} {p killerid reason : ℤ}

theorem moneyAgrees_output {a b : Server} (h : Kind.output.change a b) (ha : a.MoneyAgrees) : b.MoneyAgrees :=
  Kind.moneyAgrees_of_keepsMoney h rfl ha

/-- The handlers that give money keep the copies equal, and the others do not touch them. -/
theorem keeps_callback (p listitem : ℤ) (inputtext : Text) (d : DialogId) :
    Keeps MoneyAgrees (Dialog.callback p listitem inputtext d) := by
  cases d
  case profileLogin => exact (inferInstance : Keeps MoneyAgrees (Dialog.profileLogin p inputtext))
  case propertyOnSale => exact (inferInstance : Keeps MoneyAgrees (Dialog.propertyOnSale p))
  case propertySold => exact (inferInstance : Keeps MoneyAgrees (Dialog.propertySold p listitem))
  all_goals
    refine keeps_moneyAgrees (Dialog.stays_callback p listitem inputtext _) ?_
    simp [Dialog.footprint, Kind.keepsMoney]

/-- A new profile holds no money, and neither does SA-MP for its player. -/
theorem wp_connect_agrees (hs : s.MoneyAgrees) (hzero : s.samp.money p = 0) :
    wp (Event.run (.playerConnect p)) (fun _ => MoneyAgrees) (fun _ => MoneyAgrees) s := by
  have hstay := (Event.playerConnect p).stays_run
  refine wp_mono (hstay.invariant (I := fun u => u.MoneyAgrees ∧ u.samp.money p = 0) ?_ ⟨hs, hzero⟩)
    (fun _ _ h => h.1) (fun _ _ h => h.1)
  intro k hk a b hab ha
  have hsamp : k ≠ .sampMoney := by
    rintro rfl
    simp [Event.footprint] at hk
  refine ⟨Kind.moneyAgrees hab hsamp ?_ (fun q hq _ => ?_) ha.1, ?_⟩
  · rintro rfl
    simp [Event.footprint] at hk
  · subst hq
    obtain rfl : q = p := by simpa [Event.footprint] using hk
    exact ha.2
  · rw [(Kind.frame hab).sampMoney hsamp]
    exact ha.2

/-- A death only takes money from a player without a profile. -/
theorem wp_death_agrees (hs : s.MoneyAgrees) (hp : p < 0 ∨ p ∉ s.profiles) :
    wp (Event.run (.playerDeath p killerid reason)) (fun _ => MoneyAgrees) (fun _ => MoneyAgrees) s := by
  rw [Event.run, wp_discard, onPlayerDeath, wp_bind]
  simp only [givePlayerMoney, emit, wp_bind, wp_modify, native]
  refine wp_reported (fun _ _ => moneyAgrees_output) ?_
  have hkeep : Keeps MoneyAgrees (playerDeath p killerid) := inferInstance
  refine hkeep.wp_of_keeps fun q pr hq hpr => ?_
  have hne : q ≠ p := by
    rintro rfl
    rcases hp with hneg | hnone
    · omega
    · exact hnone (Map.mem_iff_lookup.mpr ⟨pr, hpr⟩)
  simpa [hne] using hs q pr hq hpr

theorem moneyAgrees_step (hs : s.MoneyAgrees) (h : s.moneyStep (e, env) = some t)
    (hC : e.keepsMoney s = true) : t.MoneyAgrees := by
  by_cases hcalm : e.isCalm = true
  · have hsame : s.welcome e = s := by cases e <;> first | rfl | cases hcalm
    rw [Server.moneyStep, hsame] at h
    exact step_invariant h (fun k hk _ _ hab =>
      Kind.moneyAgrees_of_keepsMoney hab (Event.keepsMoney_footprint hcalm k hk)) hs
  refine of_step h ?_
  cases e
  case playerConnect p =>
    refine wp_connect_agrees (fun q pr hq hpr => ?_) (Function.update_self ..)
    replace hpr : s.profiles.lookup q = some pr := hpr
    by_cases hqp : q = p
    · subst hqp
      have hzero : pr.gamedata.money = 0 := by simpa [Event.keepsMoney, hpr] using hC
      simp [welcome, Server.begin, hzero]
    · simpa [welcome, Server.begin, hqp] using hs q pr hq hpr
  case playerDeath p killerid reason =>
    have hp : p < 0 ∨ p ∉ s.profiles := by simpa [Event.keepsMoney] using hC
    exact wp_death_agrees hs hp
  case dialogResponse p dialogid response listitem inputtext =>
    exact wp_dialogResponse (fun _ _ => moneyAgrees_output) hs fun pr d _ _ _ =>
      (keeps_callback p listitem inputtext d).wp_of_keeps hs
  case pickUpPickup p =>
    have hkeep : Keeps MoneyAgrees (onPlayerPickUpPickup p) := inferInstance
    rw [Event.run, wp_discard]
    exact hkeep.wp_of_keeps hs
  all_goals exact absurd rfl hcalm

/-- In every run in which no player with a profile dies and no one who connects gets a profile
with money in it, SA-MP holds for every player what the player's profile holds. -/
theorem money_agrees (platform : Platform) (config : Config) (docs : Collection → List Document)
    (is : List (Event × Env))
    (h : Meets moneyStep (fun s i => i.1.keepsMoney s = true)
      (Server.initial platform config docs) is) :
    AllSteps moneyStep (fun _ _ t => t.MoneyAgrees) (Server.initial platform config docs) is := by
  refine AllSteps.of_invariant (I := MoneyAgrees) (fun s i t hs ht hC => ?_)
    (fun p pr _ hpr => ?_) h
  · have hagrees := moneyAgrees_step hs ht hC
    exact ⟨hagrees, hagrees⟩
  · simp [Server.initial] at hpr

end Events

/-! ## Two runs -/

namespace Demo

def password : Text := ascii "secret"

/-- The document of a player who has some money and a point. -/
def account : Document :=
  [(._id, .oid 11),
   (.auth, .object
     [(.logname, .string []), (.password, .string ((getPasswordDigest password).getD [])),
      (.deleted, .bool false)]),
   (.archive, .object [(.gtasa, .object
     [(.reginfo, .object [(.nickname, .string [])]), (.mgmtlevel, .int 0), (.banned, .bool false),
      (.attribute, .object
        [(.color, .int 0), (.fightingstyle, .int 4), (.money, .int 100), (.score, .int 1)])])])]

/-- The database has one player. -/
def accounts : Server := Server.initial platform config fun c => if c = .profile then [account] else []

/-- The response by which a player logs in. -/
def login (p : ℤ) : Event := .dialogResponse p 28 1 0 password

/-- The response by which a player buys the property viewed last. -/
def buy (p : ℤ) : Event := .dialogResponse p 10 1 0 []

/-- The database has a player and a kiosk on sale. -/
def fair : Server := Server.initial platform config fun
  | .profile => [account]
  | .property => [Property.document ⟨21⟩ (ascii "kiosk") ⟨0, 0, 0⟩ 10 50 0]
  | _ => []

/-- The player logs in, picks up the marker of the kiosk and buys it, and another one comes and
goes. -/
def fairDay : List (Event × Env) :=
  quietly [.gameModeInit, .playerConnect 0, .playerConnect 1, login 0] ++
    [(.pickUpPickup 0, { env with pickedUp := 1 })] ++
    quietly [buy 0, .playerDisconnect 1 1]

end Demo

/-- The player has half of the money left in both copies. -/
theorem money_agrees_two_players :
    AllSteps Server.moneyStep (fun _ _ t => t.MoneyAgrees) Demo.fair Demo.fairDay ∧
      ((final Server.moneyStep Demo.fair Demo.fairDay).map fun t => t.samp.money 0) = some 50 :=
  ⟨money_agrees _ _ _ _
    (meets_of_check (b := fun s (i : Event × Env) => i.1.keepsMoney s) (fun _ _ h => h)
      (by decide +kernel)), by decide +kernel⟩

/-- A player who dies has less money in SA-MP than in the profile. -/
theorem death_takes_money_once :
    ¬∀ is, AllSteps Server.moneyStep (fun _ _ t => t.MoneyAgrees) Demo.initial is := by
  intro hall
  refine not_allSteps (T := fun _ _ (t : Server) => t.MoneyAgrees)
    (Demo.quietly [.gameModeInit, .playerConnect 0]) (.playerDeath 0 invalidPlayerId 54, Demo.env)
    (fun _ (t : Server) =>
      (t.profiles.lookup 0).all fun pr => decide (t.samp.money 0 = pr.gamedata.money))
    (fun _ t h => ?_) (by decide +kernel) (hall _)
  cases hpr : t.profiles.lookup 0 with
  | none => rfl
  | some pr => simpa using h 0 pr le_rfl hpr

end FreshCity
