import FreshCity.Markers
import FreshCity.Views

/-!
# Answers to property dialogs

A dialog shows the text of one property, but the answer does not name it. The handlers
act on the property the player looked at last, which may be another one by the time the
answer arrives.
-/
namespace FreshCity
open Imperative Prog Run

/-! ## What a player looked at -/

namespace Server

/-- The property in `property_lastviewed`. -/
def viewed (s : Server) (p : ℤ) : Option OID :=
  (s.profiles.lookup p).bind (·.pvars.propertyLastviewed)

/-- The property the player looks at who picks up what was picked up: the item is a
marker, and the player did not look at one within five seconds. -/
def lookedAt (s : Server) (p : ℤ) : Option OID :=
  (s.profiles.lookup p).bind fun pr =>
    if s.env.pickedUp = 0 ∨
        (pr.pvars.propertyLastviewtime.any fun t => decide (s.env.time - t < 5)) = true then none
    else (s.pickups.lookup s.env.pickedUp).bind EffectiveItem.property?

end Server

/-- The kinds of change that leave what players looked at alone. -/
def Kind.keepsViewed : Kind → Bool
  | .insertProfile _ => false
  | .eraseProfile _ => false
  | .profileVars => false
  | _ => true

section Viewed
variable {k : Kind} {s t : Server} {p : ℤ} {α : Type} {K : List Kind} {x : Game α}

theorem viewed_adjust {q : ℤ} {g : Profile → Profile}
    (hg : ∀ pr, (g pr).pvars.propertyLastviewed = pr.pvars.propertyLastviewed) :
    ({ s with profiles := s.profiles.adjust q g } : Server).viewed = s.viewed := by
  funext p
  simp only [Server.viewed, Map.lookup_adjust]
  split
  case isFalse => rfl
  case isTrue hp =>
    subst hp
    cases s.profiles.lookup p with
    | none => rfl
    | some pr => exact hg pr

theorem Kind.viewed_eq (hk : k.keepsViewed = true) (h : k.change s t) : t.viewed = s.viewed := by
  by_cases hw : k.writesProfiles = false
  · funext p
    simp only [Server.viewed, (Kind.frame h).profiles hw]
  cases k
  case insertProfile => cases hk
  case eraseProfile => cases hk
  case profileVars => cases hk
  all_goals first
    | exact absurd rfl hw
    | (obtain ⟨q, g, rfl⟩ := h; exact viewed_adjust fun _ => rfl)

/-- A program that makes none of the other changes. -/
theorem wp_viewed_eq (h : Stays K x) (hK : ∀ k ∈ K, k.keepsViewed = true) :
    wp x (fun _ t => t.viewed = s.viewed) (fun _ t => t.viewed = s.viewed) s :=
  h.invariant (fun k hk _ _ hab ha => (Kind.viewed_eq (hK k hk) hab).trans ha) rfl

end Viewed

/-! ## Picking up a marker -/

/-- The text a dialog shows of a property. -/
def Property.text (prop : Property) : DialogId → Message
  | .propertyOnSale => .propertyOnSale prop.name prop.value prop.profit
  | .propertySold => .propertyOwned prop.name prop.value prop.profit
  | _ => .propertyInfo prop.name prop.value prop.profit

/-- The dialogs that show a property. -/
def DialogId.showsProperty : DialogId → Bool
  | .propertyOnSale => true
  | .propertySold => true
  | .propertyInfo => true
  | _ => false

namespace Server

/-- A player looked at a property, and what was shown is its text. -/
structure Looked (s : Server) (p : ℤ) (o : OID) (t : Server) : Prop where
  viewed : t.viewed = Function.update s.viewed p (some o)
  shows : ∀ d content, Effect.showDialog p d content ∈ t.trace → d.showsProperty = true ∧
    ∃ prop, s.properties.lookup o = some prop ∧ content = prop.text d

variable {s t : Server} {p : ℤ} {o : OID}

theorem Looked.emit {e : Effect} (h : s.Looked p o t)
    (he : ∀ d content, e = .showDialog p d content → d.showsProperty = true ∧
      ∃ prop, s.properties.lookup o = some prop ∧ content = prop.text d) :
    s.Looked p o { t with trace := e :: t.trace } := by
  refine ⟨h.viewed, fun d content hmem => ?_⟩
  rcases List.mem_cons.mp hmem with heq | hmem
  · exact he d content heq.symm
  · exact h.shows d content hmem

theorem lookedAt_eq_some (h : s.lookedAt p = some o) : ∃ pr item, s.profiles.lookup p = some pr ∧
    s.env.pickedUp ≠ 0 ∧
    (pr.pvars.propertyLastviewtime.any fun t => decide (s.env.time - t < 5)) = false ∧
    s.pickups.lookup s.env.pickedUp = some item ∧ item.property? = some o := by
  rw [lookedAt, Option.bind_eq_some_iff] at h
  obtain ⟨pr, hpr, h⟩ := h
  split at h
  case isTrue => cases h
  case isFalse hnot =>
  rw [not_or, Bool.not_eq_true] at hnot
  obtain ⟨item, hitem, hproperty⟩ := Option.bind_eq_some_iff.mp h
  exact ⟨pr, item, hpr, hnot.1, hnot.2, hitem, hproperty⟩

end Server

section PickUp
open Server
variable {s t : Server} {p : ℤ} {o : OID} {pr : Profile}

/-- Both markers write down what is looked at before they show it. -/
theorem wp_viewProperty {f : Property → Game Unit} (htrace : s.trace = [])
    (hpr : s.profiles.lookup p = some pr)
    (hrecent : (pr.pvars.propertyLastviewtime.any fun t => decide (s.env.time - t < 5)) = false)
    (hf : ∀ prop t, s.properties.lookup o = some prop → s.Looked p o t →
      wp (f prop) (fun _ => s.Looked p o) (fun _ => s.Looked p o) t) :
    wp (viewProperty o p f) (fun _ => s.Looked p o) (fun _ => s.Looked p o) s := by
  simp only [viewProperty, Profile.ref, Profile.setVar, Profile.modifyVars, propertyMgr, getItem,
    emit, wp_bind, wp_gets, wp_orUndefined, wp_when, wp_modify, wp_orRaise, hpr, Option.some.injEq,
    forall_eq', hrecent, Bool.not_false, if_true, Map.adjust_adjust, htrace]
  have hlooked : s.Looked p o { s with
      trace := [.setVar p .propertyLastviewed, .setVar p .propertyLastviewtime]
      profiles := s.profiles.adjust p fun q => { q with pvars := { q.pvars with
        propertyLastviewtime := some s.env.time, propertyLastviewed := some o } } } := by
    refine ⟨?_, fun d content hmem => by simp at hmem⟩
    funext q
    by_cases hq : q = p
    · subst hq
      simp [Server.viewed, hpr]
    · simp [Server.viewed, hq]
  exact ⟨fun prop hprop => hf prop _ hprop hlooked, fun _ => hlooked⟩

theorem registered_of_showsProperty {d : DialogId} (hd : d.showsProperty = true) :
    d.isRegistered = true := by
  cases d <;> first | rfl | cases hd

theorem wp_showProperty {d : DialogId} {prop : Property} (hd : d.showsProperty = true)
    (hprop : s.properties.lookup o = some prop) (h : s.Looked p o t) :
    wp (showDialog p d (prop.text d)) (fun _ => s.Looked p o) (fun _ => s.Looked p o) t := by
  rw [showDialog, wp_bind, wp_raiseIf, if_neg (by simp [registered_of_showsProperty hd])]
  refine h.emit fun d' content heq => ?_
  cases heq
  exact ⟨hd, prop, hprop, rfl⟩

/-- The effect of a marker. -/
theorem wp_markerEffect {item : EffectiveItem} (htrace : s.trace = [])
    (hpr : s.profiles.lookup p = some pr)
    (hrecent : (pr.pvars.propertyLastviewtime.any fun t => decide (s.env.time - t < 5)) = false)
    (hitem : item.property? = some o) :
    wp (item.cls.effect p) (fun _ => s.Looked p o) (fun _ => s.Looked p o) s := by
  obtain ⟨id, disposable, cls⟩ := item
  cases cls
  case propertyMarkerOnSale o' =>
    obtain rfl : o' = o := Option.some.inj hitem
    exact wp_viewProperty htrace hpr hrecent fun prop t hprop ht => wp_showProperty rfl hprop ht
  case propertyMarkerSold o' =>
    obtain rfl : o' = o := Option.some.inj hitem
    refine wp_viewProperty htrace hpr hrecent fun prop t hprop ht => ?_
    simp only [Profile.ref, wp_bind, wp_gets, wp_orUndefined, wp_ite]
    intro pr' _
    split
    · exact wp_showProperty rfl hprop ht
    · exact wp_showProperty rfl hprop ht
  all_goals cases hitem

/-- A player picks up a marker. -/
theorem wp_pickUp_look (htrace : s.trace = []) (hlook : s.lookedAt p = some o) :
    wp (Event.run (.pickUpPickup p)) (fun _ => s.Looked p o) (fun _ => s.Looked p o) s := by
  obtain ⟨pr, item, hpr, hpicked, hrecent, hitem, hproperty⟩ := lookedAt_eq_some hlook
  simp only [Event.run, discard, onPlayerPickUpPickup, reported, PickupManager.exec, profileMgr,
    getItem, wp_bind, wp_handle, wp_gets, wp_when, wp_orRaise, hitem, hpr, Option.some.injEq,
    forall_eq', hpicked, ne_eq, not_false_eq_true, if_true, wp_pure, reduceCtorEq, false_imp_iff,
    and_true]
  have hreport : ∀ e t, s.Looked p o t → wp (sendClientMessage p e)
      (fun _ => s.Looked p o) (fun _ => s.Looked p o) t := fun e t ht =>
    ht.emit fun d content heq => by cases heq
  refine wp_mono (wp_markerEffect htrace hpr hrecent hproperty) (fun _ t ht => ?_)
    (fun e t ht => hreport _ t ht)
  rw [wp_when]
  split
  case isFalse => exact ht
  case isTrue =>
    have hstays : Stays [.streamer, .pickups] (PickupManager.remove s.env.pickedUp) := inferInstance
    refine wp_mono (hstays.invariant (I := s.Looked p o) (fun k hk a b hab ha => ?_) ht)
      (fun _ _ h => h) (fun e t ht => hreport _ t ht)
    have hframe := Kind.frame hab
    simp only [List.mem_cons, List.not_mem_nil, or_false] at hk
    rcases hk with rfl | rfl
    all_goals exact ⟨(Kind.viewed_eq rfl hab).trans ha.viewed, (hframe.trace rfl).symm ▸ ha.shows⟩

/-- The effect of an item that is no marker, or of one that is looked at again too soon. -/
theorem wp_otherEffect {item : EffectiveItem} (hpr : s.profiles.lookup p = some pr)
    (hother : item.property?.isSome = true →
      (pr.pvars.propertyLastviewtime.any fun t => decide (s.env.time - t < 5)) = true) :
    wp (item.cls.effect p) (fun _ t => t.viewed = s.viewed) (fun _ t => t.viewed = s.viewed) s := by
  obtain ⟨id, disposable, cls⟩ := item
  cases cls with
  | medical health =>
    exact wp_viewed_eq (K := [.output, .profileGame])
      (by unfold PickupClass.effect; infer_instance) (by decide)
  | wealth money score =>
    exact wp_viewed_eq (K := [.output, .samp, .sampMoney, .profileMoney, .profileGame])
      (by unfold PickupClass.effect; infer_instance) (by decide)
  | weapon weaponid ammo =>
    exact wp_viewed_eq (K := [.output]) (by unfold PickupClass.effect; infer_instance) (by decide)
  | turfWarTrigger z =>
    exact wp_viewed_eq (K := [.output, .sampZones, .zoneData, .createTimer .zone])
      (by unfold PickupClass.effect; infer_instance) (by decide)
  | teleportTrigger waypoint =>
    exact wp_viewed_eq (K := [.output, .database]) (by unfold PickupClass.effect; infer_instance)
      (by decide)
  | propertyMarkerOnSale o =>
    simp [PickupClass.effect, PickupClass.viewOnSale, viewProperty, Profile.ref, hpr, hother rfl]
  | propertyMarkerSold o =>
    simp [PickupClass.effect, PickupClass.viewSold, viewProperty, Profile.ref, hpr, hother rfl]

/-- A player picks up something else, or looks again too soon. -/
theorem wp_pickUp_other (hlook : s.lookedAt p = none) :
    wp (Event.run (.pickUpPickup p)) (fun _ t => t.viewed = s.viewed) (fun _ t => t.viewed = s.viewed)
      s := by
  simp only [Event.run, discard, onPlayerPickUpPickup, wp_bind]
  have hout : ∀ a b, Kind.output.change a b → a.viewed = s.viewed → b.viewed = s.viewed :=
    fun a b hab ha => (Kind.viewed_eq rfl hab).trans ha
  refine wp_reported (I := fun t => t.viewed = s.viewed) hout ?_
  simp only [wp_bind, wp_gets, wp_when]
  split
  case isFalse => trivial
  case isTrue hpicked =>
  simp only [PickupManager.exec, profileMgr, getItem, wp_bind, wp_gets, wp_orRaise]
  refine ⟨fun item hitem => ⟨fun pr hpr => ?_, fun _ => trivial⟩, fun _ => trivial⟩
  have hother : item.property?.isSome = true →
      (pr.pvars.propertyLastviewtime.any fun t => decide (s.env.time - t < 5)) = true := by
    intro hsome
    rw [Server.lookedAt, hpr, Option.bind_some, hitem, Option.bind_some] at hlook
    by_contra hnot
    rw [if_neg (not_or.mpr ⟨hpicked, hnot⟩)] at hlook
    rw [hlook] at hsome
    cases hsome
  refine wp_mono (wp_otherEffect hpr hother) (fun _ t ht => ?_) (fun _ _ h => h)
  rw [wp_when]
  split
  case isFalse => exact ht
  case isTrue =>
    have hremove : wp (PickupManager.remove s.env.pickedUp) (fun _ u => u.viewed = t.viewed)
        (fun _ u => u.viewed = t.viewed) t :=
      wp_viewed_eq (K := [.streamer, .pickups]) inferInstance (by decide)
    exact wp_mono hremove (fun _ _ h => h.trans ht) (fun _ _ h => h.trans ht)

end PickUp

/-! ## Responses -/

/-- The number of a dialog. -/
def DialogId.number (d : DialogId) : ℤ := DialogId.all.idxOf d

theorem dialog_number {d : DialogId} (h : d.isRegistered = true) :
    Event.dialog d.number = some d := by
  cases d
  case racingJoin => cases h
  all_goals rfl

namespace Dialog

/-- `PropertyMgr[player.GetVar("property_lastviewed")]`. -/
def receiver (p : ℤ) : Game OID := do
  let o ← Profile.getVar p (·.propertyLastviewed)
  let _ ← propertyMgr o
  pure o

/-- The call a handler makes on its receiver. -/
def trade (p listitem : ℤ) (o : OID) : DialogId → Option TradeOp
  | .propertyOnSale => some (.purchase o p)
  | .propertySold =>
    if listitem = 0 then some (.draw o p)
    else if listitem = 1 then some (.sell o p)
    else none
  | _ => none

variable {s : Server} {p listitem : ℤ} {o : OID} {d : DialogId} {op : TradeOp} {pr : Profile}
  {inputtext : Text}

theorem property_of_trade (h : trade p listitem o d = some op) : op.property = o := by
  cases d
  case propertyOnSale =>
    obtain rfl := Option.some.inj h
    rfl
  case propertySold =>
    simp only [trade] at h
    split at h
    · obtain rfl := Option.some.inj h
      rfl
    split at h
    · obtain rfl := Option.some.inj h
      rfl
    · cases h
  all_goals cases h

/-- The receiver is the property that was looked at last, if it is registered. -/
theorem receiver_eq_some :
    (receiver p s).value? = some o ↔ s.viewed p = some o ∧ o ∈ s.properties := by
  simp only [receiver, Profile.getVar, Profile.ref, propertyMgr, getItem, Server.viewed, bind_apply,
    gets_apply, pure_apply, Map.mem_iff_lookup]
  cases s.profiles.lookup p with
  | none => simp
  | some pr =>
    cases hview : pr.pvars.propertyLastviewed with
    | none => simp [hview]
    | some o' =>
      cases hprop : s.properties.lookup o' with
      | none =>
        simp only [orUndefined_some, pure_apply, hview, orRaise_some, hprop, orRaise_none,
          raise_apply, Outcome.value?_error, reduceCtorEq, Option.bind_some, Option.some.injEq,
          false_iff, not_and]
        rintro rfl ⟨prop, hprop'⟩
        rw [hprop] at hprop'
        cases hprop'
      | some prop =>
        simp only [orUndefined_some, pure_apply, hview, orRaise_some, hprop, Outcome.value?_ok,
          Option.bind_some, Option.some.injEq, iff_self_and]
        rintro rfl
        exact ⟨prop, hprop⟩

/-- A handler is the call on its receiver. -/
theorem callback_eq_trade (hreceiver : (receiver p s).value? = some o)
    (htrade : trade p listitem o d = some op) :
    callback p listitem inputtext d s = (do
      op.run
      when (d = DialogId.propertyOnSale) (sendClientMessage p .propertyPurchased)) s := by
  obtain ⟨hview, hmem⟩ := receiver_eq_some.mp hreceiver
  obtain ⟨prop, hprop⟩ := Map.mem_iff_lookup.mp hmem
  obtain ⟨pr, hpr, hview⟩ := Option.bind_eq_some_iff.mp hview
  have hreceived : ∀ {β : Type} (f : OID → Game β), (do
      let o ← Profile.getVar p (·.propertyLastviewed)
      let _ ← propertyMgr o
      f o) s = f o s := by
    intro β f
    simp [Profile.getVar, Profile.ref, propertyMgr, getItem, bind_apply, hpr, hview, hprop]
  cases d
  case propertyOnSale =>
    obtain rfl := Option.some.inj htrade
    exact hreceived fun o => do
      Property.purchase o p
      sendClientMessage p .propertyPurchased
  case propertySold =>
    refine (hreceived _).trans ?_
    simp only [trade] at htrade
    split at htrade
    case isTrue h =>
      subst h
      obtain rfl := Option.some.inj htrade
      cases hdraw : Property.draw o p s <;> simp [TradeOp.run, discard, bind_apply, hdraw, when]
    split at htrade
    case isTrue h =>
      subst h
      obtain rfl := Option.some.inj htrade
      rw [TradeOp.run, when_false (by decide), bind_apply]
      cases hsell : Property.sell o p s <;> simp [hsell]
    case isFalse => cases htrade
  all_goals cases htrade

end Dialog

namespace Server

/-- The call that a response leads to. -/
def trade (s : Server) (p : ℤ) (d : DialogId) (response listitem : ℤ) : Option TradeOp :=
  if response = 1 then ((Dialog.receiver p s).value?).bind fun o => Dialog.trade p listitem o d
  else none

variable {s t : Server} {p response listitem : ℤ} {d : DialogId} {op : TradeOp} {inputtext : Text}

/-- A response that leads to a call makes this call, and reports what it throws. -/
theorem run_response_of_trade (h : s.trade p d response listitem = some op) :
    Event.run (.dialogResponse p d.number response listitem inputtext) s =
      reported p .dialogResponse (do
        op.run
        when (d = DialogId.propertyOnSale) (sendClientMessage p .propertyPurchased)) s := by
  rw [trade] at h
  split at h
  case isFalse => cases h
  case isTrue hresponse =>
  obtain ⟨o, hreceiver, htrade⟩ := Option.bind_eq_some_iff.mp h
  obtain ⟨pr, hpr, -⟩ := Option.bind_eq_some_iff.mp (Dialog.receiver_eq_some.mp hreceiver).1
  have hregistered : d.isRegistered = true := by
    cases d <;> first | rfl | cases htrade
  have hdialog : (DialogId.ofNumber d.number).filter DialogId.isRegistered = some d :=
    dialog_number hregistered
  have hexec : dialogMgrExec p (decide (response = 1)) d.number listitem inputtext s = (do
      op.run
      when (d = DialogId.propertyOnSale) (sendClientMessage p .propertyPurchased)) s := by
    have hcall : Dialog.callback p listitem inputtext d s = _ :=
      Dialog.callback_eq_trade hreceiver htrade
    rw [← hcall]
    simp [dialogMgrExec, profileMgr, getItem, bind_apply, hdialog, hpr, hresponse, when_true]
  have hreported : ∀ x : Game Unit, (discard do
      x
      pure true) = x := by
    intro x
    funext s
    simp only [discard, bind_apply]
    cases x s <;> simp
  rw [Event.run, onDialogResponse, hreported, reported, reported, handle_apply, handle_apply, hexec]

/-- A response that leads to no call leaves players, properties and documents alone. -/
theorem wp_response_of_none (hd : d.showsProperty = true)
    (h : s.trade p d response listitem = none) :
    wp (Event.run (.dialogResponse p d.number response listitem inputtext))
      (fun _ t => t.properties = s.properties ∧ t.profiles = s.profiles ∧ t.database = s.database)
      (fun _ t => t.properties = s.properties ∧ t.profiles = s.profiles ∧ t.database = s.database)
      s := by
  have hout : ∀ a b, Kind.output.change a b →
      a.properties = s.properties ∧ a.profiles = s.profiles ∧ a.database = s.database →
      b.properties = s.properties ∧ b.profiles = s.profiles ∧ b.database = s.database := by
    rintro a _ ⟨_, _, rfl⟩ ha
    exact ha
  refine wp_dialogResponse hout ⟨rfl, rfl, rfl⟩ fun pr d' hpr hd' hresponse => ?_
  obtain rfl : d = d' := by
    rw [dialog_number (registered_of_showsProperty hd)] at hd'
    exact Option.some.inj hd'
  have hreceiver : ∀ o prop, response = 1 → pr.pvars.propertyLastviewed = some o →
      s.properties.lookup o = some prop → Dialog.trade p listitem o d = none := by
    intro o prop hr hview hprop
    have hvalue : (Dialog.receiver p s).value? = some o := Dialog.receiver_eq_some.mpr
      ⟨by rw [viewed, hpr, Option.bind_some, hview], Map.mem_iff_lookup.mpr ⟨prop, hprop⟩⟩
    rwa [trade, if_pos hr, hvalue, Option.bind_some] at h
  cases d
  case propertyInfo => simp [Dialog.callback]
  case propertyOnSale =>
    have hr : response = 1 := by simpa [Dialog.mustResponse] using hresponse
    simp only [Dialog.callback, Dialog.propertyOnSale, Profile.getVar, Profile.ref, propertyMgr,
      getItem, wp_bind, wp_gets, wp_orUndefined, wp_orRaise, hpr, Option.some.injEq, forall_eq']
    refine ⟨fun o ho => ⟨fun prop hprop => ?_, fun _ => by simp⟩, fun _ => by simp⟩
    cases hreceiver o prop hr ho hprop
  case propertySold =>
    have hr : response = 1 := by simpa [Dialog.mustResponse] using hresponse
    simp only [Dialog.callback, Dialog.propertySold, Profile.getVar, Profile.ref, propertyMgr,
      getItem, wp_bind, wp_gets, wp_orUndefined, wp_orRaise, hpr, Option.some.injEq, forall_eq']
    refine ⟨fun o ho => ⟨fun prop hprop => ?_, fun _ => by simp⟩, fun _ => by simp⟩
    have hnone := hreceiver o prop hr ho hprop
    simp only [Dialog.trade] at hnone
    split
    · cases hnone
    · cases hnone
    · simp
  all_goals cases hd

end Server

/-! ## Conversations -/

/-- A look at a property, and the dialog that was shown for it. -/
structure Look where
  property : OID
  dialog : Option DialogId
  deriving DecidableEq

/-- The looks of every player, in order. -/
abbrev Looks : Type := ℤ → List Look

/-- A player picks something up, or a response to one of the dialogs of the player's
looks is delivered. -/
inductive PropertyEvent where
  | pickUp (p : ℤ)
  | respond (p : ℤ) (k : ℕ) (response listitem : ℤ) (inputtext : Text)
  deriving DecidableEq

/-- The dialog that was shown to a player. -/
def Server.shown (t : Server) (p : ℤ) : Option DialogId :=
  t.trace.findSome? fun
    | .showDialog q d _ => if q = p then some d else none
    | _ => none

namespace PropertyEvent

/-- What the server gets. A response answers a dialog that was shown, however long ago. -/
def event (looks : Looks) : PropertyEvent → Option Event
  | pickUp p => some (.pickUpPickup p)
  | respond p k response listitem inputtext => ((looks p)[k]?.bind (·.dialog)).map fun d =>
    .dialogResponse p d.number response listitem inputtext

/-- The looks after an event. -/
def see (s : Server) (looks : Looks) (i : PropertyEvent × Env) (t : Server) : Looks :=
  match i.1 with
  | pickUp p => ((s.begin i.2).lookedAt p).elim looks fun o =>
    Function.update looks p (looks p ++ [{ property := o, dialog := t.shown p }])
  | respond _ _ _ _ _ => looks

def step (w : Server × Looks) (i : PropertyEvent × Env) : Option (Server × Looks) :=
  (i.1.event w.2).bind fun e => (w.1.step (e, i.2)).map fun t => (t, see w.1 w.2 i t)

/-- A look shows the text of its property, and the call that a response leads to is on the
property of the dialog it answers. -/
def ActsOnShown (w : Server × Looks) (i : PropertyEvent × Env) (u : Server × Looks) : Prop :=
  match i.1 with
  | pickUp p => ∀ o d content, (w.1.begin i.2).lookedAt p = some o →
    .showDialog p d content ∈ u.1.trace →
    ∃ prop, w.1.properties.lookup o = some prop ∧ content = prop.text d
  | respond p k response listitem _ => ∀ look d op, (w.2 p)[k]? = some look →
    look.dialog = some d → (w.1.begin i.2).trade p d response listitem = some op →
    op.property = look.property

/-- The player's last look was at the property of the dialog that is answered. The others that
do no harm are at a property that is gone, or are answered with nothing to do. -/
def upToDate (w : Server × Looks) (i : PropertyEvent × Env) : Bool :=
  match i.1 with
  | pickUp _ => true
  | respond p k response listitem _ => (w.2 p)[k]?.all fun look => (w.2 p).getLast?.all fun last =>
    decide (last.property = look.property) || decide (last.property ∉ w.1.properties) ||
      decide (response ≠ 1) || (look.dialog.bind (Dialog.trade p listitem last.property)).isNone

end PropertyEvent

/-- What is written down for a player is the property of the player's last look. -/
structure LooksFollow (w : Server × Looks) : Prop where
  viewed : ∀ p last, (w.2 p).getLast? = some last → w.1.viewed p = some last.property
  dialogs : ∀ p look d, look ∈ w.2 p → look.dialog = some d → d.showsProperty = true

theorem mem_of_shown {t : Server} {p : ℤ} {d : DialogId} (h : t.shown p = some d) :
    ∃ content, .showDialog p d content ∈ t.trace := by
  obtain ⟨e, hmem, he⟩ := List.exists_of_findSome?_eq_some h
  split at he
  case h_1 q d' content =>
    split at he
    case isTrue hq =>
      obtain rfl := Option.some.inj he
      exact ⟨content, hq ▸ hmem⟩
    case isFalse => cases he
  case h_2 => cases he

section Conversation
open Server PropertyEvent
variable {w u : Server × Looks} {env : Env} {p response listitem : ℤ} {k : ℕ} {inputtext : Text}

theorem propertyEvent_step_eq_some {i : PropertyEvent × Env} (h : PropertyEvent.step w i = some u) :
    ∃ e, i.1.event w.2 = some e ∧ w.1.step (e, i.2) = some u.1 ∧ see w.1 w.2 i u.1 = u.2 := by
  obtain ⟨e, he, hmap⟩ := Option.bind_eq_some_iff.mp h
  obtain ⟨t, ht, rfl⟩ := Option.map_eq_some_iff.mp hmap
  exact ⟨e, he, ht, rfl⟩

/-- A look is written down, and shows its property. -/
theorem pickUp_step (hw : LooksFollow w) (h : PropertyEvent.step w (.pickUp p, env) = some u) :
    ActsOnShown w (.pickUp p, env) u ∧ LooksFollow u := by
  obtain ⟨e, he, hstep, hsee⟩ := propertyEvent_step_eq_some h
  obtain rfl := Option.some.inj he
  have hrun : (Event.run (.pickUpPickup p) (w.1.begin env)).state? = some u.1 := hstep
  simp only [see] at hsee
  cases hlook : (w.1.begin env).lookedAt p with
  | none =>
    have hviewed : u.1.viewed = w.1.viewed :=
      state_of_wp (P := fun t => t.viewed = w.1.viewed) (wp_pickUp_other hlook) hrun
    rw [hlook, Option.elim_none] at hsee
    refine ⟨fun o d content ho => ?_, fun q last hlast => ?_, fun q look d hmem => ?_⟩
    · have ho' : (w.1.begin env).lookedAt p = some o := ho
      rw [hlook] at ho'
      cases ho'
    · rw [hviewed]
      exact hw.viewed q last (hsee ▸ hlast)
    · exact hw.dialogs q look d (hsee ▸ hmem)
  | some o =>
    have hlooked : (w.1.begin env).Looked p o u.1 :=
      state_of_wp (P := fun t => (w.1.begin env).Looked p o t) (wp_pickUp_look rfl hlook) hrun
    rw [hlook, Option.elim_some] at hsee
    refine ⟨fun o' d content ho' hmem => ?_, fun q last hlast => ?_, fun q look d hmem hd => ?_⟩
    · have ho : (w.1.begin env).lookedAt p = some o' := ho'
      obtain rfl : o = o' := Option.some.inj (hlook.symm.trans ho)
      exact (hlooked.shows d content hmem).2
    · rw [hlooked.viewed]
      rw [← hsee] at hlast
      by_cases hq : q = p
      · subst hq
        rw [Function.update_self, List.getLast?_concat, Option.some.injEq] at hlast
        rw [Function.update_self, ← hlast]
      · rw [Function.update_of_ne hq] at hlast ⊢
        exact hw.viewed q last hlast
    · rw [← hsee] at hmem
      by_cases hq : q = p
      · subst hq
        rw [Function.update_self, List.mem_append, List.mem_singleton] at hmem
        rcases hmem with hmem | rfl
        · exact hw.dialogs q look d hmem hd
        · obtain ⟨content, hcontent⟩ := mem_of_shown hd
          exact (hlooked.shows d content hcontent).1
      · rw [Function.update_of_ne hq] at hmem
        exact hw.dialogs q look d hmem hd

/-- A response to a dialog that shows a property does not count as a look. -/
theorem viewed_of_response {d : DialogId} {s t : Server} (hd : d.showsProperty = true)
    (h : s.step (.dialogResponse p d.number response listitem inputtext, env) = some t) :
    t.viewed = s.viewed := by
  have hkinds : ∀ k ∈ Dialog.footprint p d, k.keepsViewed = true := by
    cases d
    case propertyOnSale => simp [Dialog.footprint, Kind.keepsViewed]
    case propertySold => simp [Dialog.footprint, Kind.keepsViewed]
    case propertyInfo => simp [Dialog.footprint, Kind.keepsViewed]
    all_goals cases hd
  refine step_invariant (I := fun u => u.viewed = s.viewed) h (fun k hk a b hab ha => ?_) rfl
  rw [Event.footprint, dialog_number (registered_of_showsProperty hd), Option.elim_some] at hk
  refine (Kind.viewed_eq ?_ hab).trans ha
  rcases List.mem_cons.mp hk with rfl | hk
  · rfl
  · exact hkinds k hk

/-- The call of a response is on the property of the last look, if it is there. -/
theorem trade_eq (hw : LooksFollow w) {last : Look} (hlast : (w.2 p).getLast? = some last)
    (d : DialogId) : (w.1.begin env).trade p d response listitem =
      if response = 1 ∧ last.property ∈ w.1.properties then Dialog.trade p listitem last.property d
      else none := by
  have hviewed : (w.1.begin env).viewed p = some last.property := hw.viewed p last hlast
  have hvalue : (Dialog.receiver p (w.1.begin env)).value? =
      if last.property ∈ w.1.properties then some last.property else none := by
    refine Option.ext fun o => ?_
    rw [Dialog.receiver_eq_some, hviewed, Option.some.injEq]
    split
    case isTrue hmem =>
      rw [Option.some.injEq]
      exact ⟨fun h => h.1, fun h => ⟨h, h ▸ hmem⟩⟩
    case isFalse hmem =>
      exact ⟨fun h => absurd (h.1 ▸ h.2) hmem, fun h => by cases h⟩
  rw [Server.trade, hvalue]
  by_cases hr : response = 1 <;> by_cases hmem : last.property ∈ w.1.properties <;> simp [hr, hmem]

/-- A call is on the property that was shown exactly if the last look was at it. -/
theorem respond_step (hw : LooksFollow w)
    (h : PropertyEvent.step w (.respond p k response listitem inputtext, env) = some u) :
    (ActsOnShown w (.respond p k response listitem inputtext, env) u ↔
        upToDate w (.respond p k response listitem inputtext, env) = true) ∧ LooksFollow u := by
  obtain ⟨e, he, hstep, hsee⟩ := propertyEvent_step_eq_some h
  obtain ⟨d, hlookd, rfl⟩ := Option.map_eq_some_iff.mp he
  obtain ⟨look, hlook, hd⟩ := Option.bind_eq_some_iff.mp hlookd
  have hshows : d.showsProperty = true := hw.dialogs p look d (List.mem_of_getElem? hlook) hd
  have hviewed : u.1.viewed = w.1.viewed := viewed_of_response hshows hstep
  have hsee' : w.2 = u.2 := hsee
  refine ⟨?_, fun q last hlast => ?_, fun q look d hmem => ?_⟩
  · obtain ⟨last, hlast⟩ : ∃ last, (w.2 p).getLast? = some last := by
      refine Option.ne_none_iff_exists'.mp fun hnone => ?_
      rw [List.getLast?_eq_none_iff.mp hnone] at hlook
      cases hlook
    simp only [ActsOnShown, upToDate, hlook, hlast, trade_eq hw hlast, Option.all_some,
      Option.some.injEq, hd, Option.bind_some, Bool.or_eq_true, decide_eq_true_eq]
    constructor
    · intro hacts
      by_contra hnot
      simp only [not_or, ne_eq, not_not, Option.isNone_iff_eq_none] at hnot
      obtain ⟨⟨⟨hne, hmem⟩, hr⟩, hsome⟩ := hnot
      obtain ⟨op, hop⟩ := Option.ne_none_iff_exists'.mp hsome
      have hproperty := hacts look d op rfl hd (by rw [if_pos ⟨hr, hmem⟩, hop])
      exact hne ((Dialog.property_of_trade hop).symm.trans hproperty)
    · rintro hdate look' d' op rfl hd' hop
      obtain rfl : d = d' := Option.some.inj (hd.symm.trans hd')
      split at hop
      case isFalse => cases hop
      case isTrue hand =>
      rw [Dialog.property_of_trade hop]
      rcases hdate with ((hsame | hgone) | hr) | hnone
      · exact hsame
      · exact absurd hand.2 hgone
      · exact absurd hand.1 hr
      · rw [hop] at hnone
        cases hnone
  · rw [hviewed]
    exact hw.viewed q last (hsee' ▸ hlast)
  · exact hw.dialogs q look d (hsee' ▸ hmem)

end Conversation

/-- In a run of any number of players the calls that responses lead to are on the properties that
were shown exactly if no response with a call comes after a look at another property. -/
theorem responses_act_on_shown_iff (s : Server) (events : List (PropertyEvent × Env)) :
    AllSteps PropertyEvent.step PropertyEvent.ActsOnShown (s, fun _ => []) events ↔
      Meets PropertyEvent.step (fun w i => PropertyEvent.upToDate w i = true) (s, fun _ => [])
        events := by
  have hstart : LooksFollow (s, fun _ => []) :=
    ⟨fun _ _ h => (by cases h), fun _ _ _ h => (by cases h)⟩
  refine allSteps_iff_meets (I := LooksFollow) (fun w i u hw hu => ?_) (fun w i u hw hu _ => ?_) hstart
  all_goals
    obtain ⟨e, env⟩ := i
    cases e
  case pickUp p => exact iff_of_true (pickUp_step hw hu).1 rfl
  case respond p k response listitem inputtext => exact (respond_step hw hu).1
  case pickUp p => exact (pickUp_step hw hu).2
  case respond p k response listitem inputtext => exact (respond_step hw hu).2

/-! ## What the callback changes -/

namespace PropertyEvent

/-- A response changes no property but the one of the dialog it answers. -/
def LeavesOthers (w : Server × Looks) (i : PropertyEvent × Env) (u : Server × Looks) : Prop :=
  match i.1 with
  | pickUp _ => True
  | respond p k _ _ _ => ∀ look, (w.2 p)[k]? = some look → w.1.OthersStay look.property u.1

end PropertyEvent

section Others
open Server PropertyEvent
variable {s t : Server} {env : Env} {p response listitem : ℤ} {d : DialogId} {op : TradeOp}
  {inputtext : Text}

/-- A call is for the player who responds, on a property that is there. -/
theorem exists_of_trade (h : s.trade p d response listitem = some op) : op.player = p ∧
    (∃ pr, s.profiles.lookup p = some pr) ∧ ∃ prop, s.properties.lookup op.property = some prop := by
  rw [trade] at h
  split at h
  case isFalse => cases h
  obtain ⟨o, hreceiver, htrade⟩ := Option.bind_eq_some_iff.mp h
  obtain ⟨hviewed, hmem⟩ := Dialog.receiver_eq_some.mp hreceiver
  obtain ⟨pr, hpr, -⟩ := Option.bind_eq_some_iff.mp hviewed
  rw [← Dialog.property_of_trade htrade] at hmem
  refine ⟨?_, ⟨pr, hpr⟩, Map.mem_iff_lookup.mp hmem⟩
  cases d
  case propertyOnSale =>
    obtain rfl := Option.some.inj htrade
    rfl
  case propertySold =>
    simp only [Dialog.trade] at htrade
    split at htrade
    · obtain rfl := Option.some.inj htrade
      rfl
    split at htrade
    · obtain rfl := Option.some.inj htrade
      rfl
    · cases htrade
  all_goals cases htrade

/-- The whole callback changes no property but the one of its call. -/
theorem othersStay_of_trade (h : (s.begin env).trade p d response listitem = some op)
    (hstep : s.step (.dialogResponse p d.number response listitem inputtext, env) = some t) :
    s.OthersStay op.property t := by
  obtain ⟨rfl, ⟨pr, hpr⟩, prop, hprop⟩ := exists_of_trade h
  refine of_step (P := (s.begin env).OthersStay op.property) hstep ?_
  rw [wp_of_eq (run_response_of_trade h)]
  refine wp_reported (fun _ _ hab ha => ?_) ?_
  · obtain ⟨_, _, rfl⟩ := hab
    exact ha
  rw [wp_bind]
  refine wp_mono (TradeOp.wp_run_othersStay hprop hpr) (fun _ u hu => ?_) (fun _ _ hu => hu)
  simp only [sendClientMessage, emit, wp_when, wp_modify]
  split
  · exact hu
  · exact hu

/-- Without a call the callback changes no property. -/
theorem properties_of_no_trade (hd : d.showsProperty = true)
    (h : (s.begin env).trade p d response listitem = none)
    (hstep : s.step (.dialogResponse p d.number response listitem inputtext, env) = some t) :
    t.properties = s.properties :=
  of_step (P := fun u => u.properties = s.properties) hstep
    (wp_mono (wp_response_of_none hd h) (fun _ _ hu => hu.1) (fun _ _ hu => hu.1))

/-- What a response changes follows from the property that its call is on. -/
theorem leavesOthers_step {w u : Server × Looks} {k : ℕ} (hw : LooksFollow w)
    (h : PropertyEvent.step w (.respond p k response listitem inputtext, env) = some u)
    (hacts : ActsOnShown w (.respond p k response listitem inputtext, env) u) :
    LeavesOthers w (.respond p k response listitem inputtext, env) u := by
  obtain ⟨e, he, hstep, -⟩ := propertyEvent_step_eq_some h
  obtain ⟨d, hlookd, rfl⟩ := Option.map_eq_some_iff.mp he
  intro look hlook
  have hd : look.dialog = some d := by rwa [hlook, Option.bind_some] at hlookd
  have hshows : d.showsProperty = true := hw.dialogs p look d (List.mem_of_getElem? hlook) hd
  cases htrade : (w.1.begin env).trade p d response listitem with
  | none =>
    have hsame := properties_of_no_trade hshows htrade hstep
    exact fun o _ => by rw [hsame]
  | some op =>
    have hproperty : op.property = look.property := hacts look d op hlook hd htrade
    rw [← hproperty]
    exact othersStay_of_trade htrade hstep

end Others

/-- In a run in which no response with a call comes after a look at another property, the callback
of a response changes no property but the one whose text was in the dialog. -/
theorem responses_leave_others (s : Server) (events : List (PropertyEvent × Env))
    (h : Meets PropertyEvent.step (fun w i => PropertyEvent.upToDate w i = true) (s, fun _ => [])
      events) :
    AllSteps PropertyEvent.step PropertyEvent.LeavesOthers (s, fun _ => []) events := by
  have hstart : LooksFollow (s, fun _ => []) :=
    ⟨fun _ _ h => (by cases h), fun _ _ _ h => (by cases h)⟩
  refine AllSteps.of_invariant (I := LooksFollow) (fun w i u hw hu hdate => ?_) hstart h
  obtain ⟨e, env⟩ := i
  cases e with
  | pickUp p => exact ⟨trivial, (pickUp_step hw hu).2⟩
  | respond p k response listitem inputtext =>
    have hstep := respond_step hw hu
    exact ⟨leavesOthers_step hw hu (hstep.1.mpr hdate), hstep.2⟩

/-! ## Two markers -/

namespace Demo

/-- The object id of another property. -/
def cottage : OID := ⟨21⟩

/-- A property and its marker. -/
def onStreet (id : OID) (pickupid : ℤ) : Property :=
  { item := { uniqueid := id }, value := 50, profit := 10, pickupid := pickupid }

/-- A player with money, and two properties on sale. -/
def street : Server :=
  { newEstate with
    properties :=
      ((∅ : Map OID Property).insert house (onStreet house 1)).insert cottage (onStreet cottage 2)
    pickups := ((∅ : Map ℤ EffectiveItem).insert 1 (onStreet house 1).markerItem).insert 2
      (onStreet cottage 2).markerItem }

/-- The player looks at the one, and six seconds later at the other. -/
def twoLooks : List (PropertyEvent × Env) :=
  [(.pickUp 0, { pickedUp := 1 }), (.pickUp 0, { pickedUp := 2, time := 6 })]

/-- The response to the first dialog arrives. -/
def lateResponse : PropertyEvent × Env := (.respond 0 0 1 0 [], { time := 7 })

end Demo

example : ((final PropertyEvent.step (Demo.street, fun _ => [])
    (Demo.twoLooks ++ [Demo.lateResponse])).map fun w =>
      (w.1.properties.lookup Demo.cottage).map (·.owner)) = some (some ⟨11⟩) := by decide +kernel

/-- The response to the second dialog leaves the first property on sale. -/
theorem second_response_leaves_house :
    AllSteps PropertyEvent.step PropertyEvent.LeavesOthers (Demo.street, fun _ => [])
      (Demo.twoLooks ++ [(.respond 0 1 1 0 [], { time := 7 })]) :=
  responses_leave_others Demo.street _
    (meets_of_check (b := PropertyEvent.upToDate) (fun _ _ h => h) (by decide +kernel))

/-- A player buys the property of the second dialog with the response to the first one. -/
theorem response_buys_other_property :
    ¬∀ (s : Server) (events : List (PropertyEvent × Env)),
      AllSteps PropertyEvent.step PropertyEvent.ActsOnShown (s, fun _ => []) events := by
  intro hall
  have hmeets := (responses_act_on_shown_iff Demo.street _).mp
    (hall Demo.street (Demo.twoLooks ++ [Demo.lateResponse]))
  exact not_allSteps Demo.twoLooks Demo.lateResponse
    (fun w _ => PropertyEvent.upToDate w Demo.lateResponse) (fun _ _ h => h) (by decide +kernel) hmeets

end FreshCity
