import FreshCity.Money
import FreshCity.Saving

/-!
# The trade in properties

What `Draw`, `Purchase` and `Sell` do to the server, and the sum of the players'
money and the value of what they own. A player who is not registered has the id
that an owner is unset with, and so pays for a property that stays on sale.
-/
namespace FreshCity
open Imperative Prog Run

namespace Property

/-- An update of a property's document is not refused. -/
def writable (s : Server) (prop : Property) (m : Modifier) : Bool :=
  prop.item.uniqueid.isSet && !s.database.refusesUpdate .property prop.item.uniqueid m

/-- The write of a new owner. -/
def ownerModifier (owner : OID) : Modifier := [([.owner], .oid owner.data)]

end Property

/-! ## What the operations do -/

namespace Property
variable {s : Server} {o : OID} {p : ℤ} {prop : Property} {pr : Profile} {m : Modifier}

theorem wp_updateItem (hprop : s.properties.lookup o = some prop) :
    wp (withItem o (SaveableItem.update .property m false))
      (fun _ t => prop.writable s m = true ∧ t = s.saved .property prop.item.uniqueid m)
      (fun _ t => prop.writable s m = false ∧ ∃ db trace,
        db.docs = prop.item.docsAfter .property m s.database ∧
        t = { s with database := db, trace := trace }) s := by
  refine SaveableItem.wp_focus_update (by rw [hprop, Option.map_some]) fun db trace => ?_
  have hsame : (s.properties.adjust o fun q => { q with item := prop.item }) = s.properties :=
    Map.adjust_eq_self fun q hq => by
      rw [hprop, Option.some.injEq] at hq
      rw [← hq]
  simp only [hsame]

end Property

namespace Server

/-- An update of a property was refused: beside the database nothing is touched. -/
def Refused (s t : Server) (prop : Property) (m : Modifier) : Prop :=
  prop.writable s m = false ∧ ∃ db trace, db.docs = prop.item.docsAfter .property m s.database ∧
    t = { s with database := db, trace := trace }

/-- An update of a property was accepted, and money changed hands. -/
structure Traded (s t : Server) (o : OID) (p : ℤ) (prop prop' : Property) (money : ℤ)
    (m : Modifier) : Prop where
  platform : t.platform = s.platform
  env : t.env = s.env
  accepted : prop.writable s m = true
  database : t.database = (s.database.afterUpdate .property prop.item.uniqueid m).next
  profiles : t.profiles = s.profiles.adjust p fun q => { q with
    gamedata := { q.gamedata with money := s.platform.int (q.gamedata.money + money) } }
  properties : t.properties = s.properties.adjust o fun _ => prop'

end Server

namespace Property
variable {s : Server} {o : OID} {p : ℤ} {prop : Property} {pr : Profile}

/-- The write of the time of a draw. -/
def drawModifier (now : ℤ) : Modifier := [([.lastdraw], .int now)]

/-- A draw pays: the player owns the property, and there is something to pay. -/
def pays (s : Server) (prop : Property) (pr : Profile) : Bool :=
  decide (pr.item.uniqueid = prop.owner) && decide (earns s.platform prop s.env.time ≠ 0)

/-- What a draw did that returned `n`. -/
def Draws (s : Server) (o : OID) (p : ℤ) (prop : Property) (pr : Profile) (n : ℤ) (t : Server) :
    Prop :=
  if prop.pays s pr then n = earns s.platform prop s.env.time ∧
    s.Traded t o p prop { prop with lastdraw := s.env.time } n (drawModifier s.env.time)
  else n = 0 ∧ t = s

/-- `Draw` pays what the property earned, or nothing. -/
theorem wp_draw (hprop : s.properties.lookup o = some prop) (hpr : s.profiles.lookup p = some pr) :
    wp (draw o p) (fun n t => Draws s o p prop pr n t)
      (fun _ t => prop.pays s pr = true ∧ s.Refused t prop (drawModifier s.env.time)) s := by
  rw [draw, wp_bind, Profile.ref, wp_bind, wp_gets, hpr, orUndefined_some, wp_pure, wp_bind, ref,
    wp_bind, wp_gets, hprop, orUndefined_some, wp_pure, wp_bind, wp_gets, wp_bind, wp_gets, wp_ite]
  split
  case isTrue howner => exact (if_neg (by simp [pays, howner])).mpr ⟨rfl, rfl⟩
  case isFalse howner =>
  rw [wp_ite]
  split
  case isTrue hzero => exact (if_neg (by simp [pays, hzero])).mpr ⟨rfl, rfl⟩
  case isFalse hzero =>
  have hpays : prop.pays s pr = true := by
    rw [ne_eq, not_not] at howner
    simp [pays, howner, hzero]
  rw [wp_bind]
  refine wp_mono (wp_updateItem hprop) (fun _ t ht => ?_) (fun _ _ ht => ⟨hpays, ht⟩)
  obtain ⟨haccepted, rfl⟩ := ht
  rw [wp_bind]
  refine Profile.wp_giveMoney hpr fun trace => ?_
  rw [wp_bind, modifyProperty, wp_modify, wp_pure]
  refine (if_pos hpays).mpr ⟨rfl, rfl, rfl, haccepted, rfl, rfl, ?_⟩
  refine Map.adjust_congr fun q hq => ?_
  obtain rfl := Option.some.inj (hprop.symm.trans hq)
  rfl

/-- The property with another marker. -/
def marked (prop : Property) (pickupid : ℤ) (mapicon : Option ℤ) : Property :=
  { prop with pickupid := pickupid, mapicon := mapicon }

/-- Only what is shown differs. -/
def Shows (s t : Server) : Prop :=
  ∃ streamer pickups, t = { s with streamer := streamer, pickups := pickups }

theorem wp_removePickup {id : ℤ} {u : Server} (hu : Shows s u) :
    wp (PickupManager.remove id) (fun _ => Shows s) (fun _ _ => False) u := by
  obtain ⟨streamer, pickups, rfl⟩ := hu
  simp only [PickupManager.remove, wp_bind, wp_gets, wp_modify]
  refine wp_forEach _ ⟨_, _, rfl⟩ ?_
  rintro item - _ ⟨_, _, rfl⟩
  exact ⟨_, _, rfl⟩

theorem wp_addPickup {item : EffectiveItem} {u : Server} (hu : Shows s u) :
    wp (PickupManager.add item) (fun _ => Shows s) (fun _ _ => False) u := by
  obtain ⟨streamer, pickups, rfl⟩ := hu
  simp only [PickupManager.add, PickupManager.destruct, destroyDynamicPickup, wp_bind, wp_gets,
    wp_ite, wp_modify, wp_pure]
  split <;> exact ⟨_, _, rfl⟩

theorem wp_destroyMapIcons {icons : List ℤ} {u : Server} (hu : Shows s u) :
    wp (forEach destroyDynamicMapIcon icons) (fun _ => Shows s) (fun _ _ => False) u := by
  refine wp_forEach icons hu ?_
  rintro icon - _ ⟨_, _, rfl⟩
  exact ⟨_, _, rfl⟩

/-- A new marker changes nothing but the items that are shown. -/
theorem wp_reloadMarker (hprop : s.properties.lookup o = some prop) :
    wp (withProperty o reloadMarker) (fun _ t => ∃ streamer pickups pickupid mapicon, t = { s with
        streamer := streamer
        pickups := pickups
        properties := s.properties.adjust o fun _ => prop.marked pickupid mapicon })
      (fun _ _ => False) s := by
  rw [withProperty, wp_focus]
  intro q hq
  obtain rfl := Option.some.inj (hprop.symm.trans hq)
  have hremoved : wp (when (prop.pickupid ≠ 0) (shared (PickupManager.remove prop.pickupid)))
      (fun _ q => q.1 = prop ∧ Shows s q.2) (fun _ _ => False) (prop, s) := by
    rw [wp_when, wp_shared]
    split
    · exact wp_mono (wp_removePickup ⟨_, _, rfl⟩) (fun _ _ h => ⟨rfl, h⟩) (fun _ _ h => h)
    · exact ⟨rfl, _, _, rfl⟩
  rw [reloadMarker, wp_bind, wp_self, wp_bind]
  refine wp_mono hremoved (fun _ q hq => ?_) (fun _ _ h => h)
  obtain ⟨q, u⟩ := q
  obtain ⟨rfl, streamer, pickups, rfl⟩ := hq
  simp only [PickupManager.create, createDynamicPickup, createDynamicMapIcon, wp_bind, wp_shared,
    wp_gets, wp_modify, wp_pure, wp_assign]
  refine wp_mono (wp_destroyMapIcons (s := s) ⟨_, _, rfl⟩) (fun _ u hu => ?_) (fun _ _ h => h)
  refine wp_mono (wp_addPickup hu) (fun _ u hu => ?_) (fun _ _ h => h)
  obtain ⟨streamer, pickups, rfl⟩ := hu
  exact ⟨streamer, pickups, _, _, rfl⟩

/-- What a purchase or a sale did: the owner and the marker changed, and money was given. -/
def Passes (s : Server) (o : OID) (p : ℤ) (prop : Property) (owner : OID) (money : ℤ) (t : Server) :
    Prop :=
  ∃ pickupid mapicon, s.Traded t o p prop
    ({ prop with owner := owner }.marked pickupid mapicon) money (ownerModifier owner)

/-- The steps a purchase and a sale have in common. -/
theorem wp_pass {owner : OID} {money : ℤ} (hprop : s.properties.lookup o = some prop)
    (hpr : s.profiles.lookup p = some pr) :
    wp (do
        writeOwner o owner
        Profile.giveMoney p money
        withProperty o reloadMarker)
      (fun _ t => Passes s o p prop owner money t)
      (fun _ t => s.Refused t prop (ownerModifier owner)) s := by
  rw [wp_bind, writeOwner, wp_bind]
  refine wp_mono (wp_updateItem hprop) (fun _ t ht => ?_) (fun _ _ ht => ht)
  obtain ⟨haccepted, rfl⟩ := ht
  rw [modifyProperty, wp_modify, wp_bind]
  refine Profile.wp_giveMoney hpr fun trace => ?_
  refine wp_mono (wp_reloadMarker (Map.lookup_adjust_self hprop _)) (fun _ t ht => ?_)
    (fun _ _ h => h.elim)
  obtain ⟨streamer, pickups, pickupid, mapicon, rfl⟩ := ht
  refine ⟨pickupid, mapicon, rfl, rfl, haccepted, rfl, rfl, ?_⟩
  exact Map.adjust_adjust ..

/-- `Purchase` throws before it does anything, or the property passes to the buyer. -/
theorem wp_purchase (hprop : s.properties.lookup o = some prop)
    (hpr : s.profiles.lookup p = some pr) :
    wp (purchase o p)
      (fun _ t => prop.onSale = true ∧ prop.value ≤ pr.gamedata.money ∧
        Passes s o p prop pr.item.uniqueid (s.platform.int (prop.value * -1)) t)
      (fun _ t => t = s ∧ (prop.onSale = true → pr.gamedata.money < prop.value) ∨
        s.Refused t prop (ownerModifier pr.item.uniqueid)) s := by
  rw [purchase, wp_bind, Profile.ref, wp_bind, wp_gets, hpr, orUndefined_some, wp_pure, wp_bind, ref,
    wp_bind, wp_gets, hprop, orUndefined_some, wp_pure, wp_bind, wp_gets, wp_bind, wp_raiseIf]
  split
  case isTrue hsold => exact .inl ⟨rfl, fun hsale => by simp [hsale] at hsold⟩
  case isFalse hsale =>
  rw [wp_bind, wp_raiseIf]
  split
  case isTrue hpoor => exact .inl ⟨rfl, fun _ => hpoor⟩
  case isFalse hrich =>
  refine wp_mono (wp_pass hprop hpr) (fun _ t ht => ⟨by simpa using hsale, by simpa using hrich, ht⟩)
    (fun _ _ ht => .inr ht)

/-- The property after a draw. -/
def drawn (s : Server) (prop : Property) (pr : Profile) : Property :=
  if prop.pays s pr then { prop with lastdraw := s.env.time } else prop

section Drawn
variable {n : ℤ} {u : Server}

theorem Draws.lookup_property (h : Draws s o p prop pr n u)
    (hprop : s.properties.lookup o = some prop) :
    u.properties.lookup o = some (prop.drawn s pr) := by
  rw [Draws] at h
  rw [drawn]
  split at h
  case isTrue hpays => rw [if_pos hpays, h.2.properties, Map.lookup_adjust_self hprop]
  case isFalse hpays => rw [if_neg hpays, h.2, hprop]

theorem Draws.lookup_profile (h : Draws s o p prop pr n u)
    (hpr : s.profiles.lookup p = some pr) : ∃ pr', u.profiles.lookup p = some pr' := by
  rw [Draws] at h
  split at h
  · exact ⟨_, by rw [h.2.profiles, Map.lookup_adjust_self hpr]⟩
  · exact ⟨pr, by rw [h.2, hpr]⟩

end Drawn

/-- What a sale did until it returned. -/
def Sells (s : Server) (o : OID) (p : ℤ) (prop : Property) (pr : Profile) (t : Server) : Prop :=
  ∃ n u, draw o p s = .ok n u ∧ Draws s o p prop pr n u ∧
    Passes u o p (prop.drawn s pr) OID.unset prop.value t

/-- A sale drew, or failed to, and then went no further. -/
def SaleFails (s : Server) (o : OID) (p : ℤ) (prop : Property) (pr : Profile) (t : Server) : Prop :=
  (∃ e, draw o p s = .error e t) ∧ s.Refused t prop (drawModifier s.env.time) ∨
    ∃ n u, draw o p s = .ok n u ∧ Draws s o p prop pr n u ∧
      u.Refused t (prop.drawn s pr) (ownerModifier OID.unset)

/-- `Sell` throws before it does anything, or it draws first and passes the property on. -/
theorem wp_sell (hprop : s.properties.lookup o = some prop) (hpr : s.profiles.lookup p = some pr) :
    wp (sell o p)
      (fun _ t => (prop.owner.isSet = true ∧ pr.item.uniqueid = prop.owner) ∧
        Sells s o p prop pr t)
      (fun _ t => if prop.owner.isSet = true ∧ pr.item.uniqueid = prop.owner
        then SaleFails s o p prop pr t else t = s) s := by
  rw [sell, wp_bind, Profile.ref, wp_bind, wp_gets, hpr, orUndefined_some, wp_pure, wp_bind, ref,
    wp_bind, wp_gets, hprop, orUndefined_some, wp_pure, wp_bind, wp_raiseIf]
  split
  case isTrue hsale =>
    refine (if_neg fun h => ?_).mpr rfl
    simp [onSale, h.1] at hsale
  case isFalse hsold =>
  rw [wp_bind, wp_raiseIf]
  split
  case isTrue hother => exact (if_neg fun h => hother h.2).mpr rfl
  case isFalse howner =>
  have hsells : prop.owner.isSet = true ∧ pr.item.uniqueid = prop.owner :=
    ⟨by simpa [onSale] using hsold, not_not.mp howner⟩
  rw [wp_bind]
  refine wp_mono (wp_and (wp_run (draw o p)) (wp_draw hprop hpr)) (fun n u hu => ?_)
    (fun e _ ht => (if_pos hsells).mpr (.inl ⟨⟨e, ht.1⟩, ht.2.2⟩))
  obtain ⟨hrun, hu⟩ := hu
  obtain ⟨pr', hpr'⟩ := hu.lookup_profile hpr
  refine wp_mono (wp_pass (hu.lookup_property hprop) hpr')
    (fun _ t ht => ⟨hsells, n, u, hrun, hu, ht⟩)
    (fun _ _ ht => (if_pos hsells).mpr (.inr ⟨n, u, hrun, hu, ht⟩))

end Property

/-! ## Runs of trades -/

/-- The operations of the trade. -/
inductive TradeOp where
  | purchase (o : OID) (p : ℤ)
  | draw (o : OID) (p : ℤ)
  | sell (o : OID) (p : ℤ)
  deriving DecidableEq

namespace TradeOp

def run : TradeOp → Game Unit
  | purchase o p => Property.purchase o p
  | draw o p => discard (Property.draw o p)
  | sell o p => Property.sell o p

/-- The property an operation is about. -/
def property : TradeOp → OID
  | purchase o _ => o
  | draw o _ => o
  | sell o _ => o

/-- The player an operation is for. -/
def player : TradeOp → ℤ
  | purchase _ p => p
  | draw _ p => p
  | sell _ p => p

/-- What `Draw` returns, and nothing if it throws. -/
def drawnProfit (s : Server) (o : OID) (p : ℤ) : ℤ := ((Property.draw o p s).value?).getD 0

/-- The profit an operation pays. A `Sell` gets to its `Draw` if the player owns the property. -/
def paid (s : Server) : TradeOp → ℤ
  | purchase _ _ => 0
  | draw o p => drawnProfit s o p
  | sell o p =>
    if (s.properties.lookup o).any fun prop => prop.owner.isSet &&
        (s.profiles.lookup p).any fun pr => decide (pr.item.uniqueid = prop.owner)
    then drawnProfit s o p else 0

/-- One operation, which may throw. -/
def step (s : Server) (i : TradeOp × Env) : Option Server := (i.1.run (s.begin i.2)).state?

/-- A purchase is not one by a player without an id who has the money for a property that
costs something and is on sale, in a database that takes the write. -/
def conserves (s : Server) : TradeOp → Bool
  | purchase o p => (s.properties.lookup o).all fun prop => (s.profiles.lookup p).all fun pr =>
      pr.item.uniqueid.isSet || !prop.onSale || decide (pr.gamedata.money < prop.value) ||
        decide (prop.value = 0) || !prop.writable s (Property.ownerModifier pr.item.uniqueid)
  | _ => true

end TradeOp

/-! ## The other properties -/

/-- Every property but one is as it was. -/
def Server.OthersStay (s : Server) (o : OID) (t : Server) : Prop :=
  ∀ o' ≠ o, t.properties.lookup o' = s.properties.lookup o'

section Others
variable {s t u : Server} {o : OID} {p : ℤ} {prop : Property} {pr : Profile}

theorem Server.OthersStay.refl (s : Server) (o : OID) : s.OthersStay o s := fun _ _ => rfl

theorem Server.OthersStay.trans (h : s.OthersStay o t) (h' : t.OthersStay o u) :
    s.OthersStay o u := fun o' hne => (h' o' hne).trans (h o' hne)

theorem Server.Traded.othersStay {prop' : Property} {money : ℤ} {m : Modifier}
    (h : s.Traded t o p prop prop' money m) : s.OthersStay o t := fun o' hne => by
  rw [h.properties, Map.lookup_adjust, if_neg hne]

theorem Server.Refused.othersStay {m : Modifier} (h : s.Refused t prop m) : s.OthersStay o t := by
  obtain ⟨-, db, trace, -, rfl⟩ := h
  exact fun _ _ => rfl

namespace Property

theorem Draws.othersStay {n : ℤ} (h : Draws s o p prop pr n t) : s.OthersStay o t := by
  rw [Draws] at h
  split at h
  · exact h.2.othersStay
  · rw [h.2]
    exact .refl s o

theorem Passes.othersStay {owner : OID} {money : ℤ} (h : Passes s o p prop owner money t) :
    s.OthersStay o t := by
  obtain ⟨_, _, htraded⟩ := h
  exact htraded.othersStay

theorem Sells.othersStay (h : Sells s o p prop pr t) : s.OthersStay o t := by
  obtain ⟨n, u, -, hdraws, hpasses⟩ := h
  exact hdraws.othersStay.trans hpasses.othersStay

theorem SaleFails.othersStay (h : SaleFails s o p prop pr t) : s.OthersStay o t := by
  rcases h with ⟨-, hrefused⟩ | ⟨n, u, -, hdraws, hrefused⟩
  · exact hrefused.othersStay
  · exact hdraws.othersStay.trans hrefused.othersStay

end Property

/-- An operation changes no property but its own, whether it returns or throws. -/
theorem TradeOp.wp_run_othersStay {op : TradeOp} (hprop : s.properties.lookup op.property = some prop)
    (hpr : s.profiles.lookup op.player = some pr) :
    wp op.run (fun _ => s.OthersStay op.property) (fun _ => s.OthersStay op.property) s := by
  cases op with
  | purchase o p =>
    refine wp_mono (Property.wp_purchase hprop hpr) (fun _ t ht => ht.2.2.othersStay) ?_
    rintro _ t (⟨rfl, -⟩ | hrefused)
    · exact .refl t o
    · exact hrefused.othersStay
  | draw o p =>
    rw [TradeOp.run, wp_discard]
    exact wp_mono (Property.wp_draw hprop hpr) (fun _ _ ht => ht.othersStay)
      (fun _ _ ht => ht.2.othersStay)
  | sell o p =>
    refine wp_mono (Property.wp_sell hprop hpr) (fun _ _ ht => ht.2.othersStay) fun _ t ht => ?_
    split at ht
    · exact ht.othersStay
    · rw [ht]
      exact .refl s o

end Others

namespace Property

/-- What the owner of a property paid for it. -/
def stake (prop : Property) : ℤ := if prop.onSale then 0 else prop.value

end Property

namespace Server

/-- The money of all players and the value of all properties that are not on sale. -/
def worth (s : Server) : ℤ :=
  (s.profiles.values.map fun pr => pr.gamedata.money).sum + (s.properties.values.map Property.stake).sum

variable {s t : Server} {o : OID} {p money : ℤ} {prop prop' : Property} {pr : Profile} {m : Modifier}

theorem Refused.worth (h : s.Refused t prop m) : t.worth = s.worth := by
  obtain ⟨-, db, trace, -, rfl⟩ := h
  rfl

/-- A trade changes the sum by what it gives and by what it does to the stake. -/
theorem Traded.worth (h : s.Traded t o p prop prop' money m) (hint : s.platform.int = id)
    (hprop : s.properties.lookup o = some prop) (hpr : s.profiles.lookup p = some pr) :
    t.worth = s.worth + money + (prop'.stake - prop.stake) := by
  have hmoney := Map.sum_values_adjust (fun pr : Profile => pr.gamedata.money) (fun q => { q with
    gamedata := { q.gamedata with money := s.platform.int (q.gamedata.money + money) } }) hpr
  have hstake := Map.sum_values_adjust Property.stake (fun _ => prop') hprop
  simp only [hint, id_eq, add_sub_cancel_left] at hmoney
  simp only [Server.worth, h.profiles, h.properties, hint, id_eq, hmoney, hstake]
  omega

end Server

section Conservation
open Property Server
variable {s t : Server} {o : OID} {p : ℤ} {prop : Property} {pr : Profile}

/-- A draw changes the sum by what it pays. -/
theorem draws_worth {n : ℤ} (h : Draws s o p prop pr n t) (hint : s.platform.int = id)
    (hprop : s.properties.lookup o = some prop) (hpr : s.profiles.lookup p = some pr) :
    t.worth = s.worth + n := by
  rw [Draws] at h
  split at h
  case isTrue hpays =>
    have hworth := h.2.worth hint hprop hpr
    have hstake : ({ prop with lastdraw := s.env.time } : Property).stake = prop.stake := rfl
    omega
  case isFalse =>
    obtain ⟨rfl, rfl⟩ := h
    omega

/-- A property that passes changes the sum by the money and by who has a stake in it. -/
theorem passes_worth {owner : OID} {money : ℤ} (h : Passes s o p prop owner money t)
    (hint : s.platform.int = id) (hprop : s.properties.lookup o = some prop)
    (hpr : s.profiles.lookup p = some pr) :
    t.worth = s.worth + money + ((if owner.isSet then prop.value else 0) - prop.stake) := by
  obtain ⟨pickupid, mapicon, htraded⟩ := h
  have hworth := htraded.worth hint hprop hpr
  have hstake : (({ prop with owner := owner } : Property).marked pickupid mapicon).stake =
      if owner.isSet then prop.value else 0 := by
    by_cases howner : owner.isSet = true <;> simp [stake, onSale, marked, howner]
  rw [hworth, hstake]

theorem stake_drawn (s : Server) (prop : Property) (pr : Profile) :
    (prop.drawn s pr).stake = prop.stake := by
  rw [drawn]
  split <;> rfl

theorem sells_worth (h : Sells s o p prop pr t) (hint : s.platform.int = id)
    (hprop : s.properties.lookup o = some prop) (hpr : s.profiles.lookup p = some pr)
    (howned : prop.owner.isSet = true) : t.worth = s.worth + TradeOp.drawnProfit s o p := by
  obtain ⟨n, u, hrun, hdraws, hpasses⟩ := h
  obtain ⟨pr', hpr'⟩ := hdraws.lookup_profile hpr
  have hplatform : u.platform = s.platform := by
    rw [Draws] at hdraws
    split at hdraws
    · exact hdraws.2.platform
    · rw [hdraws.2]
  have hdrawn := draws_worth hdraws hint hprop hpr
  have hpassed := passes_worth hpasses (hplatform ▸ hint) (hdraws.lookup_property hprop) hpr'
  have hunset : OID.unset.isSet = false := by decide
  have hstake : prop.stake = prop.value := by simp [stake, onSale, howned]
  rw [stake_drawn, hunset, if_neg Bool.false_ne_true, hstake] at hpassed
  rw [TradeOp.drawnProfit, hrun, Outcome.value?_ok, Option.getD_some]
  omega

theorem saleFails_worth (h : SaleFails s o p prop pr t) (hint : s.platform.int = id)
    (hprop : s.properties.lookup o = some prop) (hpr : s.profiles.lookup p = some pr) :
    t.worth = s.worth + TradeOp.drawnProfit s o p := by
  rcases h with ⟨⟨e, hrun⟩, hrefused⟩ | ⟨n, u, hrun, hdraws, hrefused⟩
  · rw [hrefused.worth, TradeOp.drawnProfit, hrun, Outcome.value?_error, Option.getD_none, add_zero]
  · rw [hrefused.worth, draws_worth hdraws hint hprop hpr, TradeOp.drawnProfit, hrun,
      Outcome.value?_ok, Option.getD_some]

/-- An operation has a player and a property. -/
theorem exists_of_run {op : TradeOp} (h : (op.run s).state? = some t) :
    ∃ prop pr, s.properties.lookup op.property = some prop ∧
      s.profiles.lookup op.player = some pr := by
  cases hpr : s.profiles.lookup op.player with
  | none =>
    have hundefined : op.run s = .undefined := by
      cases op <;> simp_all [TradeOp.run, TradeOp.player, discard, purchase, draw, sell,
        Profile.ref, bind_apply]
    simp [hundefined] at h
  | some pr =>
    cases hprop : s.properties.lookup op.property with
    | none =>
      have hundefined : op.run s = .undefined := by
        cases op <;> simp_all [TradeOp.run, TradeOp.player, TradeOp.property, discard, purchase,
          draw, sell, Profile.ref, ref, bind_apply]
      simp [hundefined] at h
    | some prop => exact ⟨prop, pr, rfl, rfl⟩

theorem drawn_run_worth (hint : s.platform.int = id) (hprop : s.properties.lookup o = some prop)
    (hpr : s.profiles.lookup p = some pr) :
    wp (draw o p) (fun _ t => t.worth = s.worth + TradeOp.drawnProfit s o p)
      (fun _ t => t.worth = s.worth + TradeOp.drawnProfit s o p) s := by
  refine wp_mono (wp_and (wp_run _) (wp_draw hprop hpr)) (fun n t ht => ?_) (fun e t ht => ?_)
  · rw [draws_worth ht.2 hint hprop hpr, TradeOp.drawnProfit, ht.1]
    rfl
  · rw [ht.2.2.worth, TradeOp.drawnProfit, ht.1, Outcome.value?_error, Option.getD_none, add_zero]

theorem sell_run_worth (hint : s.platform.int = id) (hprop : s.properties.lookup o = some prop)
    (hpr : s.profiles.lookup p = some pr) :
    wp (sell o p) (fun _ t => t.worth = s.worth + (TradeOp.sell o p).paid s)
      (fun _ t => t.worth = s.worth + (TradeOp.sell o p).paid s) s := by
  have hpaid : (TradeOp.sell o p).paid s = if prop.owner.isSet = true ∧
      pr.item.uniqueid = prop.owner then TradeOp.drawnProfit s o p else 0 := by
    simp [TradeOp.paid, hprop, hpr]
  refine wp_mono (wp_sell hprop hpr) (fun _ t ht => ?_) (fun _ t ht => ?_)
  · rw [hpaid, if_pos ht.1]
    exact sells_worth ht.2 hint hprop hpr ht.1.1
  · rw [hpaid]
    split at ht
    case isTrue howner => rw [if_pos howner, saleFails_worth ht hint hprop hpr]
    case isFalse howner => rw [if_neg howner, ht, add_zero]

/-- A purchase by a player with an id leaves the sum as it is. -/
theorem purchase_run_worth (hint : s.platform.int = id) (hprop : s.properties.lookup o = some prop)
    (hpr : s.profiles.lookup p = some pr) (hC : (TradeOp.purchase o p).conserves s = true) :
    wp (purchase o p) (fun _ t => t.worth = s.worth) (fun _ t => t.worth = s.worth) s := by
  refine wp_mono (wp_purchase hprop hpr) (fun _ t ht => ?_) (fun _ t ht => ?_)
  · obtain ⟨hsale, hmoney, hpasses⟩ := ht
    have hworth := passes_worth hpasses hint hprop hpr
    have haccepted : prop.writable s (ownerModifier pr.item.uniqueid) = true := by
      obtain ⟨_, _, htraded⟩ := hpasses
      exact htraded.accepted
    have hstake : prop.stake = 0 := by simp [stake, hsale]
    have hcase : pr.item.uniqueid.isSet = true ∨ prop.value = 0 := by
      simpa [TradeOp.conserves, hprop, hpr, hsale, haccepted, not_lt.mpr hmoney] using hC
    rw [hint, id_eq] at hworth
    rcases hcase with hset | hzero
    · rw [if_pos hset] at hworth
      omega
    · rw [hzero, ite_self] at hworth
      omega
  · rcases ht with ⟨rfl, -⟩ | hrefused
    · rfl
    · exact hrefused.worth

/-- A purchase by a player without an id takes the money, and the property stays on sale. -/
theorem purchase_run_wrong (hint : s.platform.int = id) (hprop : s.properties.lookup o = some prop)
    (hpr : s.profiles.lookup p = some pr) (hC : (TradeOp.purchase o p).conserves s = false) :
    wp (purchase o p) (fun _ t => t.worth ≠ s.worth) (fun _ t => t.worth ≠ s.worth) s := by
  simp only [TradeOp.conserves, hprop, hpr, Option.all_some, Bool.or_eq_false_iff,
    Bool.not_eq_false', decide_eq_false_iff_not] at hC
  obtain ⟨⟨⟨⟨hunset, hsale⟩, hrich⟩, hcosts⟩, haccepted⟩ := hC
  refine wp_mono (wp_purchase hprop hpr) (fun _ t ht => ?_) (fun _ t ht => ?_)
  · have hworth := passes_worth ht.2.2 hint hprop hpr
    have hstake : prop.stake = 0 := by simp [stake, hsale]
    rw [hint, id_eq, hunset, if_neg Bool.false_ne_true] at hworth
    omega
  · rcases ht with ⟨-, hpoor⟩ | hrefused
    · exact absurd (hpoor hsale) hrich
    · rw [hrefused.1] at haccepted
      cases haccepted

/-- An operation changes the sum by the profit it pays, exactly if it is not a purchase by a
player without an id. -/
theorem run_worth_iff {op : TradeOp} (hint : s.platform.int = id) (h : (op.run s).state? = some t) :
    t.worth = s.worth + op.paid s ↔ op.conserves s = true := by
  obtain ⟨prop, pr, hprop, hpr⟩ := exists_of_run h
  cases op with
  | purchase o p =>
    rw [TradeOp.paid, add_zero]
    constructor
    · intro hworth
      by_contra hC
      exact state_of_wp (P := fun t => t.worth ≠ s.worth)
        (purchase_run_wrong hint hprop hpr ((Bool.not_eq_true _).mp hC)) h hworth
    · exact fun hC => state_of_wp (P := fun t => t.worth = s.worth)
        (purchase_run_worth hint hprop hpr hC) h
  | draw o p =>
    refine iff_of_true (state_of_wp (P := fun t => t.worth = s.worth + TradeOp.drawnProfit s o p)
      ?_ h) rfl
    rw [TradeOp.run, wp_discard]
    exact drawn_run_worth hint hprop hpr
  | sell o p =>
    exact iff_of_true (state_of_wp (P := fun t => t.worth = s.worth + (TradeOp.sell o p).paid s)
      (sell_run_worth hint hprop hpr) h) rfl

theorem trade_platform {op : TradeOp} (h : (op.run s).state? = some t) :
    t.platform = s.platform := by
  have hstay : Stays [.output, .database, .update .property, .properties, .sampMoney, .profileMoney,
      .streamer, .pickups] op.run := by
    cases op <;> unfold TradeOp.run <;> infer_instance
  exact state_of_wp (P := fun t => t.platform = s.platform) (hstay.invariant
    (fun _ _ _ _ hab ha => (Kind.frame hab).platform.trans ha) rfl) h

end Conservation

/-- In a run the sum of all money and all stakes changes by the profits that are paid and by
nothing else exactly if no player without an id purchases a property that costs something. -/
theorem money_conserved_iff (s : Server) (ops : List (TradeOp × Env))
    (hint : s.platform.int = id) :
    AllSteps TradeOp.step (fun s i t => t.worth = s.worth + i.1.paid (s.begin i.2)) s ops ↔
      Meets TradeOp.step (fun s i => i.1.conserves (s.begin i.2) = true) s ops := by
  refine allSteps_iff_meets (I := fun s => s.platform.int = id) (fun s i t hint ht => ?_)
    (fun s i t hint ht _ => ?_) hint
  · exact run_worth_iff (s := s.begin i.2) hint ht
  · have hplatform := trade_platform (s := s.begin i.2) ht
    exact hplatform ▸ hint

/-! ## Two buyers -/

namespace Demo

/-- The object id of the property. -/
def house : OID := ⟨20⟩

/-- A property on sale that was created, or drawn from, at time 0. -/
def houseOnSale : Property :=
  { item := { uniqueid := house }, value := 50, profit := 10 }

/-- A player with an object id or without one. -/
def buyer (id : OID) : Profile :=
  { item := { uniqueid := id }, addr := 0, gamedata := { money := 100 } }

/-- A registered player, one who is not, and a property on sale. -/
def market : Server :=
  { initial with
    profiles := ((∅ : Map ℤ Profile).insert 0 (buyer ⟨11⟩)).insert 1 (buyer OID.unset)
    properties := (∅ : Map OID Property).insert house houseOnSale }

/-- A day, which is 1440 seconds, after the property was created. -/
def nextDay : Env := { time := 1440 }

end Demo

/-- A run whose steps all pass the test. -/
theorem meets_conserves {s : Server} {ops : List (TradeOp × Env)}
    (h : checkSteps TradeOp.step (fun s i => i.1.conserves (s.begin i.2)) s ops = true) :
    Meets TradeOp.step (fun s i => i.1.conserves (s.begin i.2) = true) s ops :=
  meets_of_check (fun _ _ h => h) h

/-- A registered player purchases the property, draws from it and sells it. -/
theorem money_conserved_registered :
    AllSteps TradeOp.step (fun s i t => t.worth = s.worth + i.1.paid (s.begin i.2)) Demo.market
      [(.purchase Demo.house 0, Demo.env), (.draw Demo.house 0, Demo.nextDay),
        (.sell Demo.house 0, Demo.nextDay)] :=
  (money_conserved_iff Demo.market _ rfl).mpr (meets_conserves (by decide +kernel))

/-- A player who is not registered pays for a property and does not get it. -/
theorem unregistered_buyer_loses_money :
    ¬∀ (s : Server) (ops : List (TradeOp × Env)), s.platform.int = id →
      AllSteps TradeOp.step (fun s i t => t.worth = s.worth + i.1.paid (s.begin i.2)) s ops := by
  intro hall
  have hmeets := (money_conserved_iff Demo.market _ rfl).mp
    (hall Demo.market ([] ++ [(TradeOp.purchase Demo.house 1, Demo.env)]) rfl)
  exact not_allSteps [] (TradeOp.purchase Demo.house 1, Demo.env)
    (fun (s : Server) _ => (TradeOp.purchase Demo.house 1).conserves (s.begin Demo.env))
    (fun _ _ h => h) (by decide +kernel) hmeets

end FreshCity
