import FreshCity.UpdatedDocuments

/-!
# Properties under their ids

`PropertyMgr` keeps every property under the id of its document. So the document that a draw,
a purchase or a sale updates is that of the property the player has chosen.
-/
namespace FreshCity
open Imperative Prog

/-- The properties are registered under their ids. -/
def Server.PropertiesKeyed (s : Server) : Prop :=
  ∀ o prop, s.properties.lookup o = some prop → prop.item.uniqueid = o

/-- The properties are registered under their ids, and every update goes to one of these
documents. -/
structure Server.Trades (P : Collection → OID → Prop) (s : Server) : Prop where
  only : s.UpdatesOnly P
  keyed : s.PropertiesKeyed

section Keyed
set_option synthInstance.maxSize 3000
open Server
variable {s t : Server} {k : Kind} {K : List Kind} {P : Collection → OID → Prop} {α : Type}
  {o : OID} {p : ℤ} {prop : Property} {pr : Profile}

theorem Server.PropertiesKeyed.adjust {m : Map OID Property} {g : Property → Property}
    (h : ∀ o prop, m.lookup o = some prop → prop.item.uniqueid = o)
    (hg : ∀ prop, m.lookup o = some prop → (g prop).item.uniqueid = prop.item.uniqueid) :
    ∀ j prop, (m.adjust o g).lookup j = some prop → prop.item.uniqueid = j := by
  intro j prop' hprop'
  rw [Map.lookup_adjust] at hprop'
  split at hprop'
  case isFalse => exact h j prop' hprop'
  case isTrue hj =>
    obtain ⟨prop, hprop, rfl⟩ := Option.map_eq_some_iff.mp hprop'
    rw [hg prop hprop, h o prop hprop, hj]

theorem Kind.trades (h : k.change s t) (hk : k ≠ .properties)
    (hP : ∀ c, k = .update c → ∀ id, P c id) (hs : s.Trades P) : t.Trades P := by
  refine ⟨Kind.updatesOnly h hP hs.only, ?_⟩
  rw [PropertiesKeyed, (Kind.frame h).properties hk]
  exact hs.keyed

theorem trades_of_path (h : Path Kind.change K s t) (hK : .properties ∉ K)
    (hP : ∀ c, .update c ∈ K → ∀ id, P c id) (hs : s.Trades P) : t.Trades P :=
  h.invariant (fun _ hk _ _ hab ha => Kind.trades hab (by rintro rfl; exact hK hk)
    (fun c heq => hP c (heq ▸ hk)) ha) hs

/-- A program that leaves the properties alone, and makes no updates but in collections where
all are allowed. -/
theorem keeps_trades_of_stays {x : Game α} (hx : Stays K x) (hK : .properties ∉ K)
    (hP : ∀ c, .update c ∈ K → ∀ id, P c id) : Keeps (Trades P) x :=
  hx.keeps fun _ hk _ _ hab ha => Kind.trades hab (by rintro rfl; exact hK hk)
    (fun c heq => hP c (heq ▸ hk)) ha

theorem keeps_keyed_of_stays {x : Game α} (hx : Stays K x) (hK : .properties ∉ K) :
    Keeps PropertiesKeyed x :=
  hx.keeps fun k hk a b hab ha => by
    rwa [PropertiesKeyed, (Kind.frame hab).properties (by rintro rfl; exact hK hk)]

/-- A program that leaves the properties alone, and whose updates are known. -/
theorem wp_trades_of_only {x : Game α} (hx : Stays K x) (hK : .properties ∉ K)
    (hs : s.PropertiesKeyed)
    (hwp : wp x (fun _ => UpdatesOnly P) (fun _ => UpdatesOnly P) s) :
    wp x (fun _ => Trades P) (fun _ => Trades P) s :=
  wp_mono (wp_and hwp ((keeps_keyed_of_stays hx hK).wp_of_keeps hs))
    (fun _ _ hu => ⟨hu.1, hu.2⟩) (fun _ _ hu => ⟨hu.1, hu.2⟩)

namespace Property
variable {m : Modifier} {refresh : Bool}

theorem keeps_trades_modifyProperty {g : Property → Property} (hg : ∀ prop, (g prop).item = prop.item) :
    Keeps (Trades P) (modifyProperty o g) :=
  keeps_of_wp fun _ hs => ⟨hs.only.of_trace rfl, PropertiesKeyed.adjust hs.keyed fun prop _ => by
    rw [hg prop]⟩

/-- An update through a property goes to the document of its key. -/
theorem keeps_trades_updateItem (hP : P .property o) :
    Keeps (Trades P) (withItem o (SaveableItem.update .property m refresh)) := by
  refine keeps_of_wp fun s hs => ?_
  rw [withItem, wp_focus]
  intro item hitem
  obtain ⟨prop, hprop, rfl⟩ := Option.map_eq_some_iff.mp hitem
  have hkey : prop.item.uniqueid = o := hs.keyed o prop hprop
  have hstay : MethodStays [.output, .database, .update .property]
      (SaveableItem.update .property m refresh) := inferInstance
  have hstored : ∀ q : SaveableItem × Server, q.2.UpdatesOnly P →
      q.1.uniqueid = prop.item.uniqueid →
      Path Kind.change [.output, .database, .update .property] s q.2 →
      Trades P { q.2 with properties := q.2.properties.adjust o fun prop =>
        { prop with item := q.1 } } := by
    intro q honly hid hpath
    have hsame : q.2.properties = s.properties := hpath.view_eq fun k hk _ _ hab =>
      (Kind.frame hab).properties (by rintro rfl; simp at hk)
    refine ⟨honly.of_trace rfl, PropertiesKeyed.adjust (hsame ▸ hs.keyed) fun prop' hprop' => ?_⟩
    rw [hsame, hprop, Option.some.injEq] at hprop'
    rw [hid, hprop']
  have hupdates : wp (SaveableItem.update .property m refresh) (fun _ q => q.2.UpdatesOnly P)
      (fun _ q => q.2.UpdatesOnly P) (prop.item, s) :=
    SaveableItem.wp_update_updates hs.only fun _ => by rwa [hkey]
  have hupdate := wp_and hupdates (wp_and SaveableItem.wp_update_uniqueid (hstay.path (prop.item, s)))
  exact wp_mono hupdate
    (fun _ q hq => hstored q hq.1 hq.2.1 (path_of_methodPath hq.2.2))
    (fun _ q hq => hstored q hq.1 hq.2.1 (path_of_methodPath hq.2.2))

/-- The document of a property is this one. -/
def HasItem (item : SaveableItem) (prop : Property) : Prop := prop.item = item

/-- A property shows another marker and has the document it had. -/
theorem keeps_item_reloadMarker {item : SaveableItem} :
    Keeps (fun q : Property × Server => HasItem item q.1) reloadMarker := by
  have hicon : ∀ icon, Keeps (fun q : Property × Server => HasItem item q.1)
      (assign fun q => { q with mapicon := some icon } : Method Property Unit) :=
    fun _ => keeps_assign fun _ h => h
  have hpickup : ∀ id, Keeps (fun q : Property × Server => HasItem item q.1)
      (assign fun q => { q with pickupid := id } : Method Property Unit) :=
    fun _ => keeps_assign fun _ h => h
  unfold reloadMarker
  infer_instance

theorem keeps_trades_reloadMarker : Keeps (Trades P) (withProperty o reloadMarker) := by
  refine keeps_of_wp fun s hs => ?_
  rw [withProperty, wp_focus]
  intro prop hprop
  have hstay : MethodStays [.streamer, .pickups] reloadMarker := inferInstance
  have hstored : ∀ q : Property × Server, q.1.item = prop.item →
      Path Kind.change [.streamer, .pickups] s q.2 →
      Trades P { q.2 with properties := q.2.properties.adjust o fun _ => q.1 } := by
    intro q hitem hpath
    have htrades : Trades P q.2 := trades_of_path hpath (by simp) (by simp) hs
    have hsame : q.2.properties = s.properties := hpath.view_eq fun k hk _ _ hab =>
      (Kind.frame hab).properties (by rintro rfl; simp at hk)
    refine ⟨htrades.only.of_trace rfl, PropertiesKeyed.adjust htrades.keyed fun prop' hprop' => ?_⟩
    rw [hsame, hprop, Option.some.injEq] at hprop'
    rw [hitem, hprop']
  have hitem : wp reloadMarker (fun _ q => HasItem prop.item q.1) (fun _ q => HasItem prop.item q.1)
      (prop, s) := keeps_item_reloadMarker.wp_of_keeps rfl
  exact wp_mono (wp_and hitem (hstay.path (prop, s)))
    (fun _ q hq => hstored q hq.1 (path_of_methodPath hq.2))
    (fun _ q hq => hstored q hq.1 (path_of_methodPath hq.2))

/-! ## The trade -/

/-- What a trade does beside writing to the property. -/
abbrev moneyKinds : List Kind := [.output, .sampMoney, .profileMoney]

instance (priority := low) keeps_trades_money {x : Game α} [hx : Stays moneyKinds x] :
    Keeps (Trades P) x := keeps_trades_of_stays hx (by simp) (by simp)

theorem keeps_trades_writeOwner {owner : OID} (hP : P .property o) :
    Keeps (Trades P) (writeOwner o owner) := by
  have hupdate : ∀ m, Keeps (Trades P) (withItem o (SaveableItem.update .property m false)) :=
    fun _ => keeps_trades_updateItem hP
  have hstore : Keeps (Trades P) (modifyProperty o fun prop => { prop with owner := owner }) :=
    keeps_trades_modifyProperty fun _ => rfl
  unfold writeOwner
  infer_instance

/-- A draw that pays updates the property. -/
theorem wp_draw_trades (hs : s.Trades P) (hprop : s.properties.lookup o = some prop)
    (hpr : s.profiles.lookup p = some pr)
    (hP : pr.item.uniqueid = prop.owner → earns s.platform prop s.env.time ≠ 0 → P .property o) :
    wp (draw o p) (fun _ => Trades P) (fun _ => Trades P) s := by
  simp only [draw, ref, Profile.ref, wp_bind, wp_gets, hprop, hpr, orUndefined_some, wp_pure, wp_ite]
  split
  case isTrue => exact hs
  case isFalse howner =>
    split
    case isTrue => exact hs
    case isFalse hearns =>
      have hallowed := hP (not_not.mp howner) hearns
      have hupdate : ∀ m, Keeps (Trades P) (withItem o (SaveableItem.update .property m false)) :=
        fun _ => keeps_trades_updateItem hallowed
      have hstore : ∀ now, Keeps (Trades P)
          (modifyProperty o fun prop => { prop with lastdraw := now }) :=
        fun _ => keeps_trades_modifyProperty fun _ => rfl
      have hpays : Keeps (Trades P) (do
          withItem o (SaveableItem.update .property [([.lastdraw], .int s.env.time)] false)
          Profile.giveMoney p (earns s.platform prop s.env.time)
          modifyProperty o fun prop => { prop with lastdraw := s.env.time }
          pure (earns s.platform prop s.env.time)) := inferInstance
      exact (wp_bind _ _).mp (hpays.wp_of_keeps hs)

/-- A sale updates the property of its owner. -/
theorem wp_sell_trades (hs : s.Trades P) (hprop : s.properties.lookup o = some prop)
    (hpr : s.profiles.lookup p = some pr)
    (hP : prop.owner.isSet = true → pr.item.uniqueid = prop.owner → P .property o) :
    wp (sell o p) (fun _ => Trades P) (fun _ => Trades P) s := by
  rw [sell, wp_bind, Profile.ref, wp_bind, wp_gets, hpr, orUndefined_some, wp_pure, wp_bind, ref,
    wp_bind, wp_gets, hprop, orUndefined_some, wp_pure, wp_bind, wp_raiseIf]
  split
  case isTrue => exact hs
  case isFalse hsold =>
    rw [wp_bind, wp_raiseIf]
    split
    case isTrue => exact hs
    case isFalse howner =>
      have hset : prop.owner.isSet = true := by simpa [onSale] using hsold
      have hallowed := hP hset (not_not.mp howner)
      have hwrite : Keeps (Trades P) (writeOwner o OID.unset) := keeps_trades_writeOwner hallowed
      have hmark : Keeps (Trades P) (withProperty o reloadMarker) := keeps_trades_reloadMarker
      have hrest : Keeps (Trades P) (do
          writeOwner o OID.unset
          Profile.giveMoney p prop.value
          withProperty o reloadMarker) := inferInstance
      rw [wp_bind]
      exact wp_mono (wp_draw_trades hs hprop hpr fun _ _ => hallowed)
        (fun _ _ hu => hrest.wp_of_keeps hu) (fun _ _ hu => hu)

/-- A purchase updates a property that was on sale. -/
theorem wp_purchase_trades (hs : s.Trades P) (hprop : s.properties.lookup o = some prop)
    (hP : prop.owner.isSet = false → P .property o) :
    wp (purchase o p) (fun _ => Trades P) (fun _ => Trades P) s := by
  simp only [purchase, Profile.ref, ref, wp_bind, wp_gets, hprop, orUndefined_some, wp_pure,
    wp_orUndefined, wp_raiseIf]
  intro buyer _
  split
  case isTrue => exact hs
  case isFalse honsale =>
    split
    case isTrue => exact hs
    case isFalse =>
      have hallowed := hP (by simpa [onSale] using honsale)
      have hwrite : Keeps (Trades P) (writeOwner o buyer.item.uniqueid) :=
        keeps_trades_writeOwner hallowed
      have hmark : Keeps (Trades P) (withProperty o reloadMarker) := keeps_trades_reloadMarker
      have hrest : Keeps (Trades P) (do
          writeOwner o buyer.item.uniqueid
          Profile.giveMoney p (s.platform.int (prop.value * -1))
          withProperty o reloadMarker) := inferInstance
      exact (wp_bind _ _).mp (hrest.wp_of_keeps hs)

end Property

/-! ## The manager -/

namespace PropertyManager

/-- What loading properties does beside registering them. -/
abbrev propertyKinds : List Kind := [.output, .database, .counters, .streamer, .pickups,
  .insert .property, .reload .property]

theorem keeps_trades_propertyKinds {x : Game α} [hx : Stays propertyKinds x] :
    Keeps (Trades P) x := keeps_trades_of_stays hx (by simp) (by simp)

instance keeps_trades_add : Keeps (Trades P) (add prop) := by
  have hdestruct : Keeps (Trades P) prop.destruct := keeps_trades_propertyKinds
  refine keeps_of_wp fun s hs => ?_
  rw [add, wp_bind, wp_gets, wp_ite]
  split
  case isTrue =>
    rw [wp_bind]
    exact wp_mono (hdestruct.wp_of_keeps hs) (fun _ _ hu => hu) (fun _ _ hu => hu)
  case isFalse =>
    refine ⟨hs.only.of_trace rfl, fun j prop' hprop' => ?_⟩
    change (s.properties.insert prop.item.uniqueid prop).lookup j = some prop' at hprop'
    rw [Map.lookup_insert_ite] at hprop'
    split at hprop'
    case isTrue hj => rw [← Option.some.inj hprop', hj]
    case isFalse => exact hs.keyed j prop' hprop'

instance keeps_trades_clear : Keeps (Trades P) clear := by
  have hdestruct : ∀ props : List Property, Keeps (Trades P) (forEach Property.destruct props) :=
    fun _ => keeps_trades_propertyKinds
  refine keeps_of_wp fun s hs => ?_
  rw [clear, wp_bind, wp_gets, wp_bind, wp_modify]
  exact (hdestruct _).wp_of_keeps ⟨hs.only.of_trace rfl, fun j prop' hprop' => by cases hprop'⟩

instance keeps_trades_loadAll : Keeps (Trades P) loadAllFromDatabase := by
  have hkinds : ∀ {β : Type} {x : Game β} [Stays propertyKinds x], Keeps (Trades P) x :=
    keeps_trades_propertyKinds
  have hreload : Keeps (Trades P) (emit (.reload .property)) :=
    keeps_trades_of_stays (K := [.reload .property]) (stays_emit (.reload .property) _ rfl)
      (by simp) (by simp)
  have hquery : Keeps (Trades P) (issue (.queryAll .property)) :=
    keeps_trades_of_stays (K := propertyKinds) (stays_issue .output _ rfl) (by simp) (by simp)
  unfold loadAllFromDatabase fetchAllFromDatabase
  infer_instance

end PropertyManager
end Keyed
end FreshCity
