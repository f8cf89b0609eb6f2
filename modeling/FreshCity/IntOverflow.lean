import FreshCity.SplitDraws
import FreshCity.Totality

/-!
# Sums that do not fit into an `int`

The server's `int` has 32 bits. What a property earned is a product of days and profit,
and is added to the owner's money, without a look at how large they are.
-/
namespace FreshCity
open Imperative Prog Run

theorem int32_spec (x : ℤ) : ∃ k, int32 x = x + 4294967296 * k ∧ -2147483648 ≤ int32 x ∧
    int32 x < 2147483648 := by
  have hsum : x = Int.bmod x 4294967296 + 4294967296 * Int.bdiv x 4294967296 :=
    (Int.bmod_add_bdiv x 4294967296).symm
  have hle : -2147483648 ≤ Int.bmod x 4294967296 := Int.le_bmod (by decide)
  have hlt : Int.bmod x 4294967296 < 2147483648 := Int.bmod_lt (by decide)
  refine ⟨-Int.bdiv x 4294967296, ?_, hle, hlt⟩
  rw [int32]
  omega

/-- The product is the same if one factor was brought into the range before. -/
theorem int32_mul (x y : ℤ) : int32 (int32 x * y) = int32 (x * y) := Int.bmod_mul_bmod

theorem int32_int32 (x : ℤ) : int32 (int32 x) = int32 x := Int.bmod_bmod

theorem int32_eq_int32 (x y : ℤ) : int32 x = int32 y ↔ int32 (x - y) = 0 := by
  rw [int32, int32, int32, Int.bmod_eq_bmod_iff_bmod_sub_eq_zero]

namespace Property

/-- What a property earned since the last draw, as a number. -/
def due (prop : Property) (now : ℤ) : ℤ := prop.idleDays now * prop.profit

/-- The server when a sale comes to write the owner. -/
def afterDraw (prop : Property) (s : Server) : Server :=
  if prop.due s.env.time % 4294967296 = 0 then s
  else s.saved .property prop.item.uniqueid (drawModifier s.env.time)

/-- What was earned is something as an `int` too, and the database does not take the draw. -/
def drawRefused (prop : Property) (s : Server) : Bool :=
  decide (prop.due s.env.time % 4294967296 ≠ 0) && !prop.writable s (drawModifier s.env.time)

/-- The sum of a balance, what a property earned and what it is worth fits into an `int`,
as far as the database takes the draw and the sale. -/
def tradeFits (prop : Property) (pr : Profile) (s : Server) : Bool :=
  prop.drawRefused s ||
    decide (pr.gamedata.money + prop.due s.env.time < 2147483648) &&
      (!prop.writable (prop.afterDraw s) (ownerModifier OID.unset) ||
        decide (pr.gamedata.money + prop.due s.env.time + prop.value < 2147483648))

variable {s t u : Server} {o : OID} {p n : ℤ} {prop : Property} {pr : Profile}

theorem due_nonneg (hprofit : 0 ≤ prop.profit) (hnow : prop.lastdraw ≤ s.env.time) :
    0 ≤ prop.due s.env.time := mul_nonneg (idleDays_nonneg hnow) hprofit

theorem earns_int32 {platform : Platform} {now : ℤ} (hint : platform.int = int32)
    (hnow : prop.lastdraw ≤ now) : earns platform prop now = int32 (prop.due now) := by
  have htdiv : Int.tdiv (now - prop.lastdraw) 1440 = prop.idleDays now :=
    Int.tdiv_eq_ediv_of_nonneg (by omega)
  rw [earns, hint, htdiv, int32_mul, due]

theorem pays_int32 (hint : s.platform.int = int32) (hnow : prop.lastdraw ≤ s.env.time)
    (howner : pr.item.uniqueid = prop.owner) :
    prop.pays s pr = true ↔ prop.due s.env.time % 4294967296 ≠ 0 := by
  obtain ⟨k, hk, hle, hlt⟩ := int32_spec (prop.due s.env.time)
  simp only [pays, howner, decide_true, Bool.true_and, decide_eq_true_eq, earns_int32 hint hnow]
  omega

end Property

namespace Server
variable {s t : Server} {o : OID} {p n : ℤ} {prop prop' : Property} {pr : Profile} {m : Modifier}

theorem moneyOf_of_lookup (hpr : s.profiles.lookup p = some pr) :
    s.moneyOf p = pr.gamedata.money := by
  rw [moneyOf, hpr]
  rfl

theorem Refused.moneyOf (h : s.Refused t prop m) : t.moneyOf p = s.moneyOf p := by
  obtain ⟨-, db, trace, -, rfl⟩ := h
  rfl

theorem Traded.moneyOf (h : s.Traded t o p prop prop' n m) (hpr : s.profiles.lookup p = some pr) :
    t.moneyOf p = s.platform.int (s.moneyOf p + n) := by
  rw [moneyOf_of_lookup hpr, Server.moneyOf, h.profiles, Map.lookup_adjust_self hpr]
  rfl

end Server

/-! ## What the trade does to the balance -/

namespace Property
variable {s t u : Server} {o : OID} {p n : ℤ} {prop : Property} {pr : Profile}

theorem defined_updateItem {m : Modifier} (hprop : s.properties.lookup o = some prop) :
    Defined (withItem o (SaveableItem.update .property m false)) s := by
  rw [withItem, defined_focus]
  exact ⟨prop.item, by rw [hprop, Option.map_some], Total.defined _⟩

/-- A draw of a player from a property that is there has an outcome. -/
theorem defined_draw (hprop : s.properties.lookup o = some prop)
    (hpr : s.profiles.lookup p = some pr) : Defined (draw o p) s := by
  simp only [draw, Profile.ref, ref, defined_bind, defined_gets, defined_pure, defined_ite,
    defined_orUndefined, wp_bind, wp_gets, wp_orUndefined, hpr, hprop, Option.some.injEq,
    exists_eq', forall_eq', true_and]
  split
  · trivial
  split
  · trivial
  refine ⟨defined_updateItem hprop, wp_mono (wp_updateItem hprop) (fun _ t ht => ?_)
    fun _ _ _ => trivial⟩
  obtain ⟨-, rfl⟩ := ht
  refine ⟨Profile.defined_giveMoney (show _ = some pr from hpr),
    Profile.wp_giveMoney (show _ = some pr from hpr) fun trace => ?_⟩
  simp only [modifyProperty, defined_modify, wp_modify, and_self]

theorem defined_pass (owner : OID) (money : ℤ) (hprop : s.properties.lookup o = some prop)
    (hpr : s.profiles.lookup p = some pr) :
    Defined (do
      writeOwner o owner
      Profile.giveMoney p money
      withProperty o reloadMarker) s := by
  rw [defined_bind, writeOwner, defined_bind, wp_bind]
  refine ⟨⟨defined_updateItem hprop, wp_mono (wp_true _) (fun _ _ _ => defined_modify _)
    fun _ _ _ => trivial⟩, wp_mono (wp_updateItem hprop) (fun _ t ht => ?_) fun _ _ _ => trivial⟩
  obtain ⟨-, rfl⟩ := ht
  rw [modifyProperty, wp_modify, defined_bind]
  refine ⟨Profile.defined_giveMoney (show _ = some pr from hpr),
    Profile.wp_giveMoney (show _ = some pr from hpr) fun trace => ?_⟩
  rw [withProperty, defined_focus]
  exact ⟨_, Map.lookup_adjust_self hprop _, Total.defined _⟩

/-- A sale by a player of a property that is there has an outcome. -/
theorem defined_sell (hprop : s.properties.lookup o = some prop)
    (hpr : s.profiles.lookup p = some pr) : Defined (sell o p) s := by
  simp only [sell, Profile.ref, ref, defined_bind, defined_gets, defined_raiseIf,
    defined_orUndefined, wp_bind, wp_gets, wp_orUndefined, wp_raiseIf, hpr, hprop,
    Option.some.injEq, exists_eq', forall_eq', true_and]
  split
  · trivial
  split
  · trivial
  refine ⟨defined_draw hprop hpr, wp_mono (wp_draw hprop hpr) (fun n u hdraws => ?_)
    fun _ _ _ => trivial⟩
  obtain ⟨pr', hpr'⟩ := hdraws.lookup_profile hpr
  have hpass := defined_pass OID.unset prop.value (hdraws.lookup_property hprop) hpr'
  simpa only [defined_bind] using hpass

/-- A draw returns what was earned, and does not lower the balance. -/
def DrawsRight (s : Server) (o : OID) (p : ℤ) (prop : Property) : Prop :=
  wp (draw o p) (fun n t => n = prop.due s.env.time ∧ s.moneyOf p ≤ t.moneyOf p)
    (fun _ t => s.moneyOf p ≤ t.moneyOf p) s

/-- A sale does not lower the balance. -/
def SellsRight (s : Server) (o : OID) (p : ℤ) : Prop :=
  wp (sell o p) (fun _ t => s.moneyOf p ≤ t.moneyOf p) (fun _ t => s.moneyOf p ≤ t.moneyOf p) s

/-- An owner with a balance, and a property as the dialogs create it that was not drawn from
in the future. -/
structure Owned (s : Server) (o : OID) (p : ℤ) (prop : Property) (pr : Profile) : Prop where
  int : s.platform.int = int32
  property : s.properties.lookup o = some prop
  profile : s.profiles.lookup p = some pr
  owner : pr.item.uniqueid = prop.owner
  sold : prop.owner.isSet = true
  value : ∃ inputtext, s.platform.lexicalCastInt inputtext = some prop.value
  profit : ∃ inputtext, s.platform.lexicalCastInt inputtext = some prop.profit
  value_nonneg : 0 ≤ prop.value
  profit_nonneg : 0 ≤ prop.profit
  lastdraw : prop.lastdraw ≤ s.env.time
  money_nonneg : 0 ≤ pr.gamedata.money
  money_lt : pr.gamedata.money < 2147483648

namespace Owned

theorem value_lt (h : Owned s o p prop pr) : prop.value < 2147483648 := by
  obtain ⟨t, ht⟩ := h.value
  exact (s.platform.lexicalCastInt_fits t _ ht).2

theorem due_nonneg (h : Owned s o p prop pr) : 0 ≤ prop.due s.env.time :=
  Property.due_nonneg h.profit_nonneg h.lastdraw

theorem drawRefused_iff (h : Owned s o p prop pr) : prop.drawRefused s = true ↔
    prop.pays s pr = true ∧ prop.writable s (drawModifier s.env.time) = false := by
  rw [pays_int32 h.int h.lastdraw h.owner, drawRefused, Bool.and_eq_true, decide_eq_true_eq,
    Bool.not_eq_true']

/-- The balance after a draw that returned. -/
theorem moneyOf_draws (h : Owned s o p prop pr) (hdraws : Draws s o p prop pr n t) :
    prop.drawRefused s = false ∧ n = int32 (prop.due s.env.time) ∧
      t.moneyOf p = int32 (pr.gamedata.money + n) := by
  obtain ⟨k, hk, hle, hlt⟩ := int32_spec (prop.due s.env.time)
  have hpays := pays_int32 h.int h.lastdraw h.owner
  rw [Draws] at hdraws
  split at hdraws
  case isTrue hyes =>
    obtain ⟨hn, htraded⟩ := hdraws
    have hmoney := htraded.moneyOf h.profile
    have haccepted := htraded.accepted
    refine ⟨by simp [drawRefused, haccepted], hn.trans (earns_int32 h.int h.lastdraw), ?_⟩
    rw [hmoney, h.int, Server.moneyOf_of_lookup h.profile]
  case isFalse hno =>
    obtain ⟨rfl, rfl⟩ := hdraws
    have hzero : prop.due t.env.time % 4294967296 = 0 := not_not.mp fun hne => hno (hpays.mpr hne)
    obtain ⟨j, hj, hle', hlt'⟩ := int32_spec (pr.gamedata.money + 0)
    have hmoney := h.money_nonneg
    have hmoney' := h.money_lt
    refine ⟨by simp [drawRefused, hzero], by omega, ?_⟩
    rw [Server.moneyOf_of_lookup h.profile]
    omega

/-- The two sums that a draw computes are right exactly if the last one fits. -/
theorem sums_right_iff (h : Owned s o p prop pr) :
    int32 (prop.due s.env.time) = prop.due s.env.time ∧
        pr.gamedata.money ≤ int32 (pr.gamedata.money + int32 (prop.due s.env.time)) ↔
      pr.gamedata.money + prop.due s.env.time < 2147483648 := by
  have hdue := h.due_nonneg
  have hmoney := h.money_nonneg
  have hmoney' := h.money_lt
  obtain ⟨k, hk, hle, hlt⟩ := int32_spec (prop.due s.env.time)
  obtain ⟨j, hj, hle', hlt'⟩ := int32_spec (pr.gamedata.money + int32 (prop.due s.env.time))
  omega

theorem drawsRight_iff (h : Owned s o p prop pr) : DrawsRight s o p prop ↔
    prop.drawRefused s = true ∨ pr.gamedata.money + prop.due s.env.time < 2147483648 := by
  have hrun := wp_draw h.property h.profile
  rw [DrawsRight, Server.moneyOf_of_lookup h.profile]
  rcases hdraw : draw o p s with ⟨n, t⟩ | ⟨e, t⟩ | _
  · rw [wp_of_ok hdraw] at hrun ⊢
    obtain ⟨haccepted, rfl, hmoney⟩ := h.moneyOf_draws hrun
    rw [hmoney, h.sums_right_iff, haccepted]
    simp
  · rw [wp_of_error hdraw] at hrun ⊢
    rw [hrun.2.moneyOf, Server.moneyOf_of_lookup h.profile]
    exact iff_of_true le_rfl (.inl (h.drawRefused_iff.mpr ⟨hrun.1, hrun.2.1⟩))
  · exact absurd (defined_draw h.property h.profile) (by simp [Defined, hdraw])

/-- What a draw that returned did to the database. -/
theorem database_draws (h : Owned s o p prop pr) (hdraws : Draws s o p prop pr n u) :
    u.database = (prop.afterDraw s).database := by
  have hpays := pays_int32 h.int h.lastdraw h.owner
  rw [Draws] at hdraws
  rw [afterDraw]
  split at hdraws
  case isTrue hyes =>
    rw [if_neg (hpays.mp hyes), hdraws.2.database]
    rfl
  case isFalse hno =>
    rw [if_pos (not_not.mp fun hne => hno (hpays.mpr hne)), hdraws.2]

theorem writable_draws (h : Owned s o p prop pr) (hdraws : Draws s o p prop pr n u) (m : Modifier) :
    (prop.drawn s pr).writable u m = prop.writable (prop.afterDraw s) m := by
  have hitem : (prop.drawn s pr).item = prop.item := by
    rw [drawn]
    split <;> rfl
  rw [writable, writable, hitem, h.database_draws hdraws]

/-- A sale whose draw is refused changes no balance. -/
theorem sellsRight_of_refused (h : Owned s o p prop pr) (hrefused : prop.drawRefused s = true) :
    SellsRight s o p := by
  have hnot : ∀ {n u}, ¬Draws s o p prop pr n u := fun hdraws => by
    have haccepted := (h.moneyOf_draws hdraws).1
    rw [hrefused] at haccepted
    cases haccepted
  refine wp_mono (wp_sell h.property h.profile) (fun _ t ht => ?_) (fun _ t ht => ?_)
  · obtain ⟨-, n, u, -, hdraws, -⟩ := ht
    exact absurd hdraws hnot
  · rw [if_pos ⟨h.sold, h.owner⟩] at ht
    rcases ht with ⟨-, hrefused'⟩ | ⟨n, u, -, hdraws, -⟩
    · exact hrefused'.moneyOf.ge
    · exact absurd hdraws hnot

/-- After a draw that was right, a sale is right if the database refuses it or the sum fits. -/
theorem sellsRight_iff (h : Owned s o p prop pr) (haccepted : prop.drawRefused s = false)
    (hfits : pr.gamedata.money + prop.due s.env.time < 2147483648) : SellsRight s o p ↔
      prop.writable (prop.afterDraw s) (ownerModifier OID.unset) = false ∨
        pr.gamedata.money + prop.due s.env.time + prop.value < 2147483648 := by
  have hdrawn : ∀ {n u}, Draws s o p prop pr n u →
      u.moneyOf p = pr.gamedata.money + prop.due s.env.time := by
    intro n u hdraws
    obtain ⟨-, rfl, hmoney⟩ := h.moneyOf_draws hdraws
    have hdue := h.due_nonneg
    have hnonneg := h.money_nonneg
    obtain ⟨k, hk, hle, hlt⟩ := int32_spec (prop.due s.env.time)
    obtain ⟨j, hj, hle', hlt'⟩ := int32_spec (pr.gamedata.money + int32 (prop.due s.env.time))
    omega
  have hdue := h.due_nonneg
  have hnonneg := h.money_nonneg
  have hvalue := h.value_nonneg
  have hvalue' := h.value_lt
  have hrun := wp_sell h.property h.profile
  rw [SellsRight, Server.moneyOf_of_lookup h.profile]
  rcases hsell : sell o p s with ⟨_, t⟩ | ⟨e, t⟩ | _
  · rw [wp_of_ok hsell] at hrun ⊢
    obtain ⟨-, n, u, -, hdraws, pickupid, mapicon, htraded⟩ := hrun
    obtain ⟨pr', hpr'⟩ := hdraws.lookup_profile h.profile
    have hint : u.platform.int = int32 := (hdraws.ages h.property).platform ▸ h.int
    have hwritten := htraded.accepted
    rw [h.writable_draws hdraws] at hwritten
    rw [htraded.moneyOf hpr', hint, hdrawn hdraws, hwritten]
    obtain ⟨k, hk, hle, hlt⟩ := int32_spec
      (pr.gamedata.money + prop.due s.env.time + prop.value)
    simp only [Bool.true_eq_false, false_or]
    omega
  · rw [wp_of_error hsell, if_pos ⟨h.sold, h.owner⟩] at hrun
    rw [wp_of_error hsell]
    rcases hrun with ⟨⟨e', hdraw⟩, hrefused⟩ | ⟨n, u, -, hdraws, hrefused⟩
    · have hpays := (wp_of_error hdraw).mp (wp_draw h.property h.profile)
      have hrefused' := h.drawRefused_iff.mpr ⟨hpays.1, hpays.2.1⟩
      rw [haccepted] at hrefused'
      cases hrefused'
    · rw [hrefused.moneyOf, hdrawn hdraws]
      refine iff_of_true (by omega) (.inl ?_)
      rw [← h.writable_draws hdraws]
      exact hrefused.1
  · exact absurd (defined_sell h.property h.profile) (by simp [Defined, hsell])

end Owned
end Property

/-- A draw pays exactly what was earned, and neither a draw nor a sale lowers the balance,
exactly if the sums fit as far as the database takes the writes. -/
theorem trade_never_lowers_iff (s : Server) (o : OID) (p : ℤ) (prop : Property) (pr : Profile)
    (h : Property.Owned s o p prop pr) :
    Property.DrawsRight s o p prop ∧ Property.SellsRight s o p ↔ prop.tradeFits pr s = true := by
  rw [h.drawsRight_iff, Property.tradeFits]
  by_cases hrefused : prop.drawRefused s = true
  · simp [hrefused, h.sellsRight_of_refused hrefused]
  rw [Bool.not_eq_true] at hrefused
  by_cases hfits : pr.gamedata.money + prop.due s.env.time < 2147483648
  · simp [hrefused, hfits, h.sellsRight_iff hrefused hfits]
  · simp [hrefused, hfits]

/-! ## Two days of the largest profit -/

namespace Demo

/-- The property, with the largest profit that the dialog takes. -/
def goldMine : Property := { houseOwned with profit := 2147483647 }

/-- Its owner is connected, and it has a document. -/
def mining : Server :=
  { initial with
    platform := { initial.platform with
      int := int32, int_int := int32_int32, int_eq_int := int32_eq_int32 }
    profiles := (∅ : Map ℤ Profile).insert 0 (buyer ⟨11⟩)
    properties := (∅ : Map OID Property).insert house goldMine
    database := { docs := fun
      | .property => [Property.document house [] ⟨0, 0, 0⟩ 2147483647 50 0]
      | _ => [] } }

end Demo

theorem Demo.mining_owned (env : Env) (henv : 0 ≤ env.time) :
    Property.Owned (Demo.mining.begin env) Demo.house 0 Demo.goldMine (Demo.buyer ⟨11⟩) := by
  have hvalue : Demo.castInt (ascii "50") = some Demo.goldMine.value := by decide
  have hprofit : Demo.castInt (ascii "2147483647") = some Demo.goldMine.profit := by decide
  exact ⟨rfl, rfl, rfl, rfl, by decide, ⟨ascii "50", hvalue⟩,
    ⟨ascii "2147483647", hprofit⟩, by decide, by decide, henv,
    by decide, by decide⟩

/-- A draw on the day of the purchase pays nothing, and a sale pays the value. -/
theorem same_day_trade_right :
    Property.DrawsRight (Demo.mining.begin Demo.env) Demo.house 0 Demo.goldMine ∧
      Property.SellsRight (Demo.mining.begin Demo.env) Demo.house 0 :=
  (trade_never_lowers_iff _ _ _ _ _ (Demo.mining_owned Demo.env (by decide))).mpr
    (by decide +kernel)

/-- A draw after two days lowers the balance by two. -/
theorem two_days_lower_balance :
    ¬∀ (s : Server) (o : OID) (p : ℤ) (prop : Property) (pr : Profile),
      Property.Owned s o p prop pr →
        Property.DrawsRight s o p prop ∧ Property.SellsRight s o p := by
  intro hall
  have howned := Demo.mining_owned { time := 2880 } (by decide)
  have hfits := (trade_never_lowers_iff _ _ _ _ _ howned).mp (hall _ _ _ _ _ howned)
  exact absurd hfits (by decide +kernel)

end FreshCity
