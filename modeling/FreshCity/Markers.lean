import FreshCity.Imperative.Tags
import FreshCity.Loading
import FreshCity.PropertyTrade

/-!
# The markers of the properties

A property is shown by one pickup, which says whether it is on sale. Whatever changes the
owner replaces the pickup, and the destructor takes it away. The registry of the pickups
is shared, and the streamer gives the id of a pickup that is gone to another one.
-/
namespace FreshCity
open Imperative Prog Run

/-- The property a pickup is a marker of. -/
def EffectiveItem.property? (item : EffectiveItem) : Option OID :=
  match item.cls with
  | .propertyMarkerOnSale o => some o
  | .propertyMarkerSold o => some o
  | _ => none

/-- The streamer gives a new item an id that is not zero and that no live item has. -/
def Platform.GivesFreshIds (platform : Platform) : Prop :=
  ∀ ids, platform.streamerId ids ∉ ids ∧ platform.streamerId ids ≠ 0

/-! ## The registry of pickups -/

namespace Server

/-- The registered pickups are known by their ids, and these are live. -/
structure Stocked (s : Server) : Prop where
  fresh : s.platform.GivesFreshIds
  live : ∀ id item, s.pickups.lookup id = some item →
    item.id = id ∧ id ≠ 0 ∧ id ∈ s.streamer.pickups

/-- Only what is shown differs, and the pickups are these. -/
structure Restocked (s t : Server) (pickups : Map ℤ EffectiveItem) : Prop where
  shows : Property.Shows s t
  stocked : t.Stocked
  pickups : t.pickups = pickups

/-- A pickup was created that is not registered yet. -/
structure Offers (s t : Server) (item : EffectiveItem) : Prop where
  shows : Property.Shows s t
  stocked : t.Stocked
  pickups : t.pickups = s.pickups
  nonzero : item.id ≠ 0
  live : item.id ∈ t.streamer.pickups
  new : s.pickups.lookup item.id = none

variable {s t : Server} {item : EffectiveItem} {m : Map ℤ EffectiveItem} {ids : List ℤ}

theorem Stocked.icons (h : t.Stocked) :
    ({ t with streamer := { t.streamer with mapicons := ids } } : Server).Stocked :=
  ⟨h.fresh, h.live⟩

theorem Restocked.icons (h : s.Restocked t m) :
    s.Restocked { t with streamer := { t.streamer with mapicons := ids } } m := by
  obtain ⟨⟨_, _, rfl⟩, hstocked, hpickups⟩ := h
  exact ⟨⟨_, _, rfl⟩, hstocked.icons, hpickups⟩

theorem Offers.icons (h : s.Offers t item) :
    s.Offers { t with streamer := { t.streamer with mapicons := ids } } item := by
  obtain ⟨⟨_, _, rfl⟩, hstocked, hpickups, hnonzero, hlive, hnew⟩ := h
  exact ⟨⟨_, _, rfl⟩, hstocked.icons, hpickups, hnonzero, hlive, hnew⟩

theorem Stocked.lookup_zero (h : s.Stocked) : s.pickups.lookup 0 = none := by
  by_contra hne
  obtain ⟨item, hitem⟩ := Option.ne_none_iff_exists'.mp hne
  exact (h.live 0 item hitem).2.1 rfl

end Server

/-- What does not depend on the map icons survives that some are destroyed. -/
theorem wp_destroyIcons {P : Server → Prop} {s : Server} (icons : List ℤ) (hs : P s)
    (hP : ∀ t ids, P t → P { t with streamer := { t.streamer with mapicons := ids } }) :
    wp (forEach destroyDynamicMapIcon icons) (fun _ => P) (fun _ _ => False) s :=
  wp_forEach icons hs fun _ _ t ht => hP t _ ht

namespace PickupManager
open Server
variable {s t : Server} {id : ℤ} {item : EffectiveItem} {disposable : Bool} {cls : PickupClass}

/-- A pickup leaves the registry and is destroyed, if there is one. -/
theorem wp_remove (h : s.Stocked) : wp (remove id)
    (fun _ t => s.Restocked t (s.pickups.erase id)) (fun _ _ => False) s := by
  have hrest : ∀ ids, (∀ j, j ≠ id → j ∈ s.streamer.pickups → j ∈ ids) → s.Restocked { s with
      pickups := s.pickups.erase id
      streamer := { s.streamer with pickups := ids } } (s.pickups.erase id) := by
    intro ids hids
    refine ⟨⟨_, _, rfl⟩, ⟨h.fresh, fun j item hitem => ?_⟩, rfl⟩
    rw [Map.lookup_erase_ite] at hitem
    split at hitem
    case isTrue => cases hitem
    case isFalse hj =>
      obtain ⟨hid, hnonzero, hlive⟩ := h.live j item hitem
      exact ⟨hid, hnonzero, hids j hj hlive⟩
  rw [remove, wp_bind, wp_gets, wp_bind, wp_modify]
  cases hitem : s.pickups.lookup id with
  | none => exact hrest s.streamer.pickups fun _ _ h => h
  | some item =>
    have hid : item.id = id := (h.live id item hitem).1
    refine hrest (s.streamer.pickups.erase item.id) fun j hj hlive => ?_
    exact (List.mem_erase_of_ne (hid ▸ hj)).mpr hlive

/-- A pickup is created, with an id that no registered one has. -/
theorem wp_create (h : s.Stocked) : wp (create disposable cls)
    (fun item t => item.disposable = disposable ∧ item.cls = cls ∧ s.Offers t item)
    (fun _ _ => False) s := by
  obtain ⟨hfresh, hnonzero⟩ := h.fresh s.streamer.pickups
  refine ⟨rfl, rfl, ⟨_, _, rfl⟩, ⟨h.fresh, fun j item hitem => ?_⟩, rfl, hnonzero,
    List.mem_cons_self .., ?_⟩
  · obtain ⟨hid, hj, hlive⟩ := h.live j item hitem
    exact ⟨hid, hj, List.mem_cons_of_mem _ hlive⟩
  · by_contra hne
    obtain ⟨item, hitem⟩ := Option.ne_none_iff_exists'.mp hne
    exact hfresh (h.live _ item hitem).2.2

/-- A new pickup is taken. -/
theorem wp_add (h : s.Offers t item) : wp (add item)
    (fun _ u => s.Restocked u (s.pickups.insert item.id item)) (fun _ _ => False) t := by
  have hnew : item.id ∉ t.pickups := by
    rw [← AList.lookup_eq_none, h.pickups]
    exact h.new
  rw [add, wp_bind, wp_gets, wp_ite, id_eq, if_neg hnew]
  obtain ⟨⟨_, _, rfl⟩, hstocked, hpickups, hnonzero, hlive, -⟩ := h
  refine ⟨⟨_, _, rfl⟩, ⟨hstocked.fresh, fun j item' hitem' => ?_⟩, ?_⟩
  · rw [Map.lookup_insert_ite] at hitem'
    split at hitem'
    case isTrue hj =>
      obtain rfl := Option.some.inj hitem'
      exact ⟨hj.symm, hj ▸ hnonzero, hj ▸ hlive⟩
    case isFalse => exact hstocked.live j item' hitem'
  · exact congrArg (fun m : Map ℤ EffectiveItem => m.insert item.id item) hpickups

end PickupManager

/-! ## Properties and their markers -/

namespace Property

/-- An item is the marker of a property; that of an excepted one may be out of date. -/
def Marks (except : Option OID) (o : OID) (prop : Property) (item : EffectiveItem) : Prop :=
  prop.item.uniqueid = o ∧ (except ≠ some o → item.cls = prop.marker)

/-- The pickup of a marker. -/
def markerItem (prop : Property) : EffectiveItem :=
  { id := prop.pickupid, disposable := false, cls := prop.marker }

theorem property?_of_marker {prop : Property} {item : EffectiveItem} (h : item.cls = prop.marker) :
    item.property? = some prop.item.uniqueid := by
  rw [EffectiveItem.property?, h, marker]
  by_cases howner : prop.owner.isSet = true <;> simp [howner]

/-- Properties and pickups agree, up to the marker of an excepted property. -/
abbrev HaveMarkers (except : Option OID) : Map ℤ EffectiveItem → Map OID Property → Prop :=
  Tagged EffectiveItem.property? Property.pickupid (Marks except)

end Property

namespace Server

/-- The registered properties have their markers. -/
structure Marked (except : Option OID) (s : Server) : Prop where
  stocked : s.Stocked
  tagged : Property.HaveMarkers except s.pickups s.properties

/-- A property that is constructed and not registered has a marker of its own. -/
structure Pending (s : Server) (prop : Property) : Prop where
  stocked : s.Stocked
  tagged : ∃ pickups : Map ℤ EffectiveItem, pickups.lookup prop.pickupid = none ∧
    s.pickups = pickups.insert prop.pickupid prop.markerItem ∧
    Property.HaveMarkers none pickups s.properties

variable {s t : Server} {except : Option OID} {m : Map ℤ EffectiveItem}

theorem Marked.of_same (h : s.Marked except) (hplatform : t.platform = s.platform)
    (hstreamer : t.streamer.pickups = s.streamer.pickups) (hpickups : t.pickups = s.pickups)
    (hproperties : t.properties = s.properties) : t.Marked except := by
  refine ⟨⟨hplatform ▸ h.stocked.fresh, fun id item hitem => ?_⟩, ?_⟩
  · rw [hpickups] at hitem
    exact hstreamer ▸ h.stocked.live id item hitem
  · rw [hpickups, hproperties]
    exact h.tagged

theorem Restocked.marked (h : s.Restocked t m) (hm : Property.HaveMarkers except m s.properties) :
    t.Marked except := by
  obtain ⟨⟨_, _, rfl⟩, hstocked, rfl⟩ := h
  exact ⟨hstocked, hm⟩

theorem Marked.icons {ids : List ℤ} (h : s.Marked except) :
    ({ s with streamer := { s.streamer with mapicons := ids } } : Server).Marked except :=
  h.of_same rfl rfl rfl rfl

end Server

/-- The kinds of change that touch neither the properties nor what is shown. -/
abbrev aroundMarkers : List Kind :=
  [.output, .database, .counters, .insert .property, .update .property, .sampMoney, .profileMoney]

section Around
open Server
variable {s t : Server} {except : Option OID} {α τ : Type}

theorem Kind.marked {k : Kind} (hk : k ∈ aroundMarkers) (h : k.change s t)
    (hs : s.Marked except) : t.Marked except := by
  simp only [List.mem_cons, List.not_mem_nil, or_false] at hk
  rcases hk with rfl | rfl | rfl | rfl | rfl | rfl | rfl
  case inr.inr.inl =>
    obtain ⟨_, _, _, _, rfl⟩ := h
    exact hs.of_same rfl rfl rfl rfl
  case inr.inr.inr.inr.inr.inr =>
    obtain ⟨_, _, rfl⟩ := h
    exact hs.of_same rfl rfl rfl rfl
  case inr.inl =>
    obtain ⟨_, rfl⟩ := h
    exact hs.of_same rfl rfl rfl rfl
  case inr.inr.inr.inr.inr.inl =>
    obtain ⟨_, rfl⟩ := h
    exact hs.of_same rfl rfl rfl rfl
  all_goals
    obtain ⟨_, _, rfl⟩ := h
    exact hs.of_same rfl rfl rfl rfl

instance (priority := low) keeps_marked {x : Game α} [hx : Stays aroundMarkers x] :
    Keeps (Marked except) x := hx.keeps fun _ hk _ _ hab ha => Kind.marked hk hab ha

/-- A method that touches neither the properties nor what is shown. -/
theorem wp_method_marked {x : Method τ α} (hx : MethodStays aroundMarkers x) {q : τ × Server}
    (hs : q.2.Marked except) :
    wp x (fun _ r => r.2.Marked except) (fun _ r => r.2.Marked except) q := by
  have hmarked : ∀ r : τ × Server, Path Kind.change aroundMarkers q.2 r.2 → r.2.Marked except :=
    fun r hr => hr.invariant (fun _ hk _ _ hab ha => Kind.marked hk hab ha) hs
  exact wp_mono (hx.path q) (fun _ r hr => hmarked r (path_of_methodPath hr))
    (fun _ r hr => hmarked r (path_of_methodPath hr))

end Around

namespace Property
open Server
variable {s t : Server} {o : OID} {p : ℤ} {prop : Property} {doc : Document}

/-- `_ReloadMarker` takes the old marker away and puts a new one up. -/
theorem wp_reloadMarker_stocked (h : s.Stocked) : wp reloadMarker
    (fun _ q => ∃ id icon, q.1 = prop.marked id icon ∧
      (s.pickups.erase prop.pickupid).lookup id = none ∧
      s.Restocked q.2 ((s.pickups.erase prop.pickupid).insert id (prop.marked id icon).markerItem))
    (fun _ _ => False) (prop, s) := by
  have hremoved : wp (when (prop.pickupid ≠ 0) (shared (PickupManager.remove prop.pickupid)))
      (fun _ q => q.1 = prop ∧ s.Restocked q.2 (s.pickups.erase prop.pickupid))
      (fun _ _ => False) (prop, s) := by
    rw [wp_when, wp_shared]
    split
    case isTrue =>
      exact wp_mono (PickupManager.wp_remove h) (fun _ _ ht => ⟨rfl, ht⟩) (fun _ _ h => h)
    case isFalse hzero =>
      have herase : s.pickups.erase prop.pickupid = s.pickups := by
        rw [not_not.mp hzero]
        exact Map.erase_of_notMem (AList.lookup_eq_none.mp h.lookup_zero)
      exact ⟨rfl, ⟨_, _, rfl⟩, h, herase.symm⟩
  rw [reloadMarker, wp_bind, wp_self, wp_bind]
  refine wp_mono hremoved (fun _ q hq => ?_) (fun _ _ h => h)
  obtain ⟨q, u⟩ := q
  obtain ⟨rfl, hu⟩ := hq
  have hshows : ∀ {v w : Server}, Shows s v → Shows v w → Shows s w := by
    rintro _ _ ⟨_, _, rfl⟩ ⟨_, _, rfl⟩
    exact ⟨_, _, rfl⟩
  rw [wp_bind, wp_shared]
  refine wp_mono (PickupManager.wp_create hu.stocked) (fun item v hv => ?_) (fun _ _ h => h)
  obtain ⟨hdisposable, hcls, hv⟩ := hv
  simp only [createDynamicMapIcon, wp_bind, wp_shared, wp_gets, wp_modify, wp_pure, wp_assign]
  refine wp_mono (wp_destroyIcons (P := fun t => u.Offers t item) _ hv.icons fun _ _ ht => ht.icons)
    (fun _ w hw => ?_) (fun _ _ h => h)
  refine wp_mono (PickupManager.wp_add hw) (fun _ x hx => ?_) (fun _ _ h => h)
  refine ⟨item.id, _, rfl, hu.pickups ▸ hw.new, hshows hu.shows hx.shows, hx.stocked, ?_⟩
  rw [hx.pickups, hu.pickups]
  obtain ⟨itemid, disposable, cls⟩ := item
  obtain rfl : disposable = false := hdisposable
  obtain rfl : cls = q.marker := hcls
  rfl

end Property

/-! ## Construction -/

namespace Property
open Server
variable {s t : Server} {prop : Property} {doc : Document}

/-- The last step of a constructor: the property gets its first marker. -/
theorem wp_firstMarker (hs : s.Marked none) (hzero : prop.pickupid = 0) :
    wp reloadMarker (fun _ q => q.2.Pending q.1) (fun _ q => q.2.Marked none) (prop, s) := by
  refine wp_mono (wp_reloadMarker_stocked hs.stocked) (fun _ q hq => ?_) (fun _ _ h => h.elim)
  obtain ⟨q, t⟩ := q
  obtain ⟨id, icon, rfl, hnew, hrestocked⟩ := hq
  have herase : s.pickups.erase prop.pickupid = s.pickups := by
    rw [hzero]
    exact Map.erase_of_notMem (AList.lookup_eq_none.mp hs.stocked.lookup_zero)
  rw [herase] at hnew hrestocked
  obtain ⟨⟨_, _, rfl⟩, hstocked, hpickups⟩ := hrestocked
  exact ⟨hstocked, s.pickups, hnew, hpickups, hs.tagged⟩

/-- The end of both constructors. -/
theorem wp_loadAndMark (hs : s.Marked none) (hzero : prop.pickupid = 0) :
    wp (do
        loadData
        reloadMarker) (fun _ q => q.2.Pending q.1) (fun _ q => q.2.Marked none) (prop, s) := by
  have hloaded : wp loadData (fun _ q => q.2.Marked none) (fun _ q => q.2.Marked none) (prop, s) :=
    wp_method_marked inferInstance hs
  rw [wp_bind]
  refine wp_mono (wp_and wp_loadData hloaded) (fun _ q hq => ?_) (fun _ _ h => h.2)
  obtain ⟨⟨-, hsame, -⟩, hmarked⟩ := hq
  exact wp_firstMarker hmarked (hsame.pickupid.trans hzero)

theorem wp_ofData_marked (hs : s.Marked none) :
    wp (ofData doc) (fun prop t => t.Pending prop) (fun _ => Marked none) s := by
  rw [ofData, wp_bind]
  refine wp_mono (keeps_marked.wp_of_keeps hs) (fun item t ht => ?_) (fun _ _ h => h)
  rw [wp_bind, wp_withLocal]
  refine wp_mono (wp_method_marked inferInstance ht) (fun _ q hq => ?_) (fun _ _ h => h)
  rw [wp_map, wp_withLocal]
  exact wp_loadAndMark hq rfl

theorem wp_ofNew_marked {name : Text} {pos : Coordinate3D} {profit value : ℤ}
    (hs : s.Marked none) :
    wp (ofNew name pos profit value) (fun prop t => t.Pending prop) (fun _ => Marked none) s := by
  rw [ofNew, wp_bind]
  refine wp_mono (keeps_marked.wp_of_keeps hs) (fun item t ht => ?_) (fun _ _ h => h)
  rw [wp_bind, wp_gets, wp_bind, wp_gets, wp_map, wp_withLocal, wp_bind, wp_shared]
  refine wp_mono (keeps_marked.wp_of_keeps ht) (fun id u hu => ?_) (fun _ _ h => h)
  rw [wp_bind, wp_part]
  refine wp_mono (wp_method_marked inferInstance hu) (fun _ q hq => ?_) (fun _ _ h => h)
  exact wp_loadAndMark hq rfl

/-- The destructor takes the marker away. -/
theorem wp_destruct (h : s.Stocked) : wp prop.destruct
    (fun _ t => s.Restocked t (s.pickups.erase prop.pickupid)) (fun _ _ => False) s := by
  rw [destruct, wp_bind]
  refine wp_mono (PickupManager.wp_remove h) (fun _ t ht => ?_) (fun _ _ h => h)
  exact wp_destroyIcons (P := fun u => s.Restocked u _) _ ht fun _ _ hu => hu.icons

end Property

/-! ## `PropertyManager` -/

namespace PropertyManager
open Server Property
variable {s t : Server} {prop : Property} {o : OID}

/-- A property that is not taken goes with its marker. -/
theorem wp_add_marked (h : s.Pending prop) :
    wp (add prop) (fun _ => Marked none) (fun _ => Marked none) s := by
  obtain ⟨hstocked, pickups, hnew, hpickups, htagged⟩ := h
  rw [add, wp_bind, wp_gets, wp_ite, id_eq]
  split
  case isTrue =>
    rw [wp_bind]
    refine wp_mono (wp_destruct hstocked) (fun _ t ht => ?_) (fun _ _ h => h.elim)
    have herase : s.pickups.erase prop.pickupid = pickups := by
      rw [hpickups]
      exact Map.erase_insert_of_notMem (AList.lookup_eq_none.mp hnew)
    rw [herase] at ht
    exact ht.marked htagged
  case isFalse hfresh =>
    refine ⟨⟨hstocked.fresh, hstocked.live⟩, ?_⟩
    have hadded := htagged.add (a := prop.markerItem) hfresh hnew (property?_of_marker rfl)
      ⟨rfl, fun _ => rfl⟩
    rw [← hpickups] at hadded
    exact hadded

theorem wp_remove_marked (hs : s.Marked none) :
    wp (remove o) (fun _ => Marked none) (fun _ => Marked none) s := by
  rw [remove, wp_bind, wp_gets, wp_bind, wp_modify]
  cases hprop : s.properties.lookup o with
  | none =>
    have hsame : s.properties.erase o = s.properties :=
      Map.erase_of_notMem (AList.lookup_eq_none.mp hprop)
    rw [hsame]
    exact hs
  | some prop =>
    have hstocked : ({ s with properties := s.properties.erase o } : Server).Stocked :=
      ⟨hs.stocked.fresh, hs.stocked.live⟩
    rw [Option.toList_some, forEach, wp_bind]
    refine wp_mono (wp_destruct hstocked) (fun _ t ht => ?_) (fun _ _ h => h.elim)
    exact ht.marked (hs.tagged.remove hprop)

/-- The markers that are left while the properties are destroyed are those of the others. -/
structure Clearing (s : Server) (gone : List Property) (t : Server) : Prop where
  stocked : t.Stocked
  empty : t.properties = ∅
  left : ∀ id o, (t.pickups.lookup id).bind EffectiveItem.property? = some o →
    ∃ prop, s.properties.lookup o = some prop ∧ prop.pickupid = id ∧ prop ∉ gone

theorem wp_clear_marked (hs : s.Marked none) :
    wp clear (fun _ => Marked none) (fun _ => Marked none) s := by
  rw [clear, wp_bind, wp_gets, wp_bind, wp_modify]
  have hstart : Clearing s [] { s with properties := ∅ } := by
    refine ⟨⟨hs.stocked.fresh, hs.stocked.live⟩, rfl, fun id o ho => ?_⟩
    obtain ⟨prop, hprop, hplace⟩ := (hs.tagged.tags id o).mp ho
    exact ⟨prop, hprop, hplace, List.not_mem_nil⟩
  refine wp_mono (wp_forEach_visited (I := Clearing s) (J := fun _ _ => False) hstart
    fun pre prop post _ t ht => ?_) (fun _ t ht => ?_) (fun _ _ h => h.elim)
  · refine wp_mono (wp_destruct ht.stocked) (fun _ u hu => ?_) (fun _ _ h => h)
    obtain ⟨⟨_, _, rfl⟩, hstocked, hpickups⟩ := hu
    refine ⟨hstocked, ht.empty, fun id o ho => ?_⟩
    rw [hpickups, Map.lookup_erase_ite] at ho
    split at ho
    case isTrue => cases ho
    case isFalse hid =>
    obtain ⟨q, hq, hplace, hleft⟩ := ht.left id o ho
    refine ⟨q, hq, hplace, fun hmem => ?_⟩
    rcases List.mem_append.mp hmem with hmem | hmem
    · exact hleft hmem
    · rw [List.mem_singleton.mp hmem] at hplace
      exact hid hplace.symm
  · refine ⟨ht.stocked, ?_⟩
    rw [ht.empty]
    refine Tagged.of_none fun id => ?_
    by_contra hne
    obtain ⟨o, ho⟩ := Option.ne_none_iff_exists'.mp hne
    obtain ⟨prop, hprop, -, hleft⟩ := ht.left id o ho
    exact hleft (Map.mem_values_of_lookup hprop)

/-- A reload ends with the markers of the properties it got to, also if it throws. -/
theorem wp_loadAllFromDatabase_marked (hs : s.Marked none) :
    wp loadAllFromDatabase (fun _ => Marked none) (fun _ => Marked none) s := by
  have hissued : ∀ e {t : Server}, t.Marked none → (t.issued e).Marked none := fun e _ ht =>
    ht.of_same rfl rfl rfl rfl
  rw [loadAllFromDatabase, wp_bind, emit, wp_modify, wp_bind]
  refine wp_mono (wp_clear_marked (hs.of_same rfl rfl rfl rfl)) (fun _ t ht => ?_) (fun _ _ h => h)
  rw [fetchAllFromDatabase, wp_bind]
  refine wp_mono (keeps_marked.wp_of_keeps ht) (fun _ t ht => ?_) (fun _ _ h => h)
  rw [wp_bind, wp_issue]
  refine ⟨fun _ _ => hissued _ ht, fun _ => ?_⟩
  rw [wp_bind, wp_gets]
  refine wp_forEach _ (hissued _ ht) fun doc _ t ht => ?_
  rw [wp_bind]
  refine wp_mono (keeps_marked.wp_of_keeps ht) (fun _ t ht => ?_) (fun _ _ h => h)
  rw [wp_bind]
  refine wp_mono (wp_ofData_marked ht) (fun prop t ht => ?_) (fun _ _ h => h)
  rw [wp_bind]
  exact wp_mono (wp_add_marked ht) (fun _ _ h => h) (fun _ _ h => h)

end PropertyManager

/-! ## The trade -/

theorem Profile.wp_giveMoney_any {s : Server} {p money : ℤ} {Q : Unit → Server → Prop}
    {E : Exn → Server → Prop} (h : ∀ pr trace, Q () (s.given p pr money trace)) :
    wp (Profile.giveMoney p money) Q E s := by
  cases hpr : s.profiles.lookup p with
  | none => simp [Profile.giveMoney, Profile.modifyGame, Profile.ref, resetPlayerMoney, emit, hpr]
  | some pr => exact Profile.wp_giveMoney hpr fun trace => h pr trace

namespace Property
open Server
variable {s t : Server} {o : OID} {p : ℤ} {except : Option OID}

/-- A write to the document does not touch the property. -/
instance {m : Modifier} : Keeps (Marked except) (withItem o (SaveableItem.update .property m false)) := by
  refine keeps_of_wp fun s hs => ?_
  cases hprop : s.properties.lookup o with
  | none =>
    rw [withItem, wp_focus]
    simp [hprop]
  | some prop =>
    refine wp_mono (wp_updateItem hprop) (fun _ t ht => ?_) (fun _ t ht => ?_)
    · exact ht.2 ▸ hs.of_same rfl rfl rfl rfl
    · obtain ⟨-, db, trace, -, rfl⟩ := ht
      exact hs.of_same rfl rfl rfl rfl

/-- A write to the time of the last draw does not touch what the marker shows. -/
instance {now : ℤ} :
    Keeps (Marked except) (modifyProperty o fun prop => { prop with lastdraw := now }) := by
  refine keeps_of_wp fun s hs => ?_
  rw [modifyProperty, wp_modify]
  exact ⟨⟨hs.stocked.fresh, hs.stocked.live⟩, hs.tagged.adjust (fun _ _ => rfl)
    (fun _ _ _ h => h) (fun _ _ _ _ h => h)⟩

instance : Keeps (Marked except) (ref o) := within_bind

instance : Keeps (Marked except) (Profile.ref p) := within_bind

set_option synthInstance.maxSize 1000 in
instance : Keeps (Marked except) (draw o p) := by
  unfold draw
  infer_instance

/-- A new owner, whom the marker does not show yet. -/
theorem wp_writeOwner_marked {owner : OID} (hs : s.Marked none) :
    wp (writeOwner o owner) (fun _ => Marked (some o)) (fun _ => Marked none) s := by
  rw [writeOwner, wp_bind]
  refine wp_mono (Within.wp_of_keeps inferInstance hs) (fun _ t ht => ?_) (fun _ _ h => h)
  rw [modifyProperty, wp_modify]
  refine ⟨⟨ht.stocked.fresh, ht.stocked.live⟩, ht.tagged.adjust (fun _ _ => rfl)
    (fun prop item _ h => ⟨h.1, fun hne => absurd rfl hne⟩)
    (fun k prop item _ h => ⟨h.1, fun _ => h.2 (by simp)⟩)⟩

/-- The marker is brought up to date. -/
theorem wp_withReloadMarker (hs : s.Marked (some o)) :
    wp (withProperty o reloadMarker) (fun _ => Marked none) (fun _ => Marked none) s := by
  rw [withProperty, wp_focus]
  intro prop hprop
  refine wp_mono (wp_reloadMarker_stocked hs.stocked) (fun _ q hq => ?_) (fun _ _ h => h.elim)
  obtain ⟨q, t⟩ := q
  obtain ⟨id, icon, rfl, hnew, ⟨_, _, rfl⟩, hstocked, hpickups⟩ := hq
  obtain ⟨item, -, -, hid, -⟩ := hs.tagged.exists_item hprop
  refine ⟨⟨hstocked.fresh, hstocked.live⟩, ?_⟩
  have hmoved : HaveMarkers none
      ((s.pickups.erase prop.pickupid).insert id (prop.marked id icon).markerItem)
      (s.properties.adjust o fun _ => prop.marked id icon) := by
    refine hs.tagged.move (prop.marked id icon) hprop hnew ?_ ⟨hid, fun _ => rfl⟩
      fun k _ _ hk h => ⟨h.1, fun _ => h.2 fun heq => hk (Option.some.inj heq).symm⟩
    exact (@property?_of_marker (prop.marked id icon) _ rfl).trans (congrArg some hid)
  rw [hpickups]
  exact hmoved

/-- The steps a purchase and a sale have in common. -/
theorem wp_pass_marked {owner : OID} {money : ℤ} (hs : s.Marked none) :
    wp (do
        writeOwner o owner
        Profile.giveMoney p money
        withProperty o reloadMarker) (fun _ => Marked none) (fun _ => Marked none) s := by
  rw [wp_bind]
  refine wp_mono (wp_writeOwner_marked hs) (fun _ t ht => ?_) (fun _ _ h => h)
  rw [wp_bind]
  refine Profile.wp_giveMoney_any fun pr trace => ?_
  exact wp_withReloadMarker (ht.of_same rfl rfl rfl rfl)

theorem wp_purchase_marked (hs : s.Marked none) :
    wp (purchase o p) (fun _ => Marked none) (fun _ => Marked none) s := by
  simp only [purchase, Profile.ref, ref, wp_bind, wp_gets, wp_orUndefined, wp_raiseIf]
  intro buyer _ prop _
  split
  · exact hs
  split
  · exact hs
  simpa only [wp_bind] using @wp_pass_marked s o p buyer.item.uniqueid _ hs

theorem wp_sell_marked (hs : s.Marked none) :
    wp (sell o p) (fun _ => Marked none) (fun _ => Marked none) s := by
  simp only [sell, Profile.ref, ref, wp_bind, wp_gets, wp_orUndefined, wp_raiseIf]
  intro seller _ prop _
  split
  · exact hs
  split
  · exact hs
  refine wp_mono (Within.wp_of_keeps inferInstance hs) (fun _ t ht => ?_) (fun _ _ h => h)
  simpa only [wp_bind] using @wp_pass_marked t o p OID.unset _ ht

end Property

/-! ## Runs -/

namespace Server

/-- Every property has one marker, in the place it knows, with its id and of the class that
tells whether it has an owner, and there is no marker of anything else. -/
structure OneMarkerEach (s : Server) : Prop where
  marker : ∀ o prop, s.properties.lookup o = some prop → prop.item.uniqueid = o ∧
    ∃ item, s.pickups.lookup prop.pickupid = some item ∧ item.cls =
      if prop.owner.isSet then .propertyMarkerSold o else .propertyMarkerOnSale o
  only : ∀ id item o, s.pickups.lookup id = some item →
    item.cls = .propertyMarkerSold o ∨ item.cls = .propertyMarkerOnSale o →
    ∃ prop, s.properties.lookup o = some prop ∧ prop.pickupid = id

variable {s : Server}

theorem Marked.oneMarkerEach (h : s.Marked none) : s.OneMarkerEach := by
  refine ⟨fun o prop hprop => ?_, fun id item o hitem hcls => ?_⟩
  · obtain ⟨item, hitem, -, hid, hmarker⟩ := h.tagged.exists_item hprop
    refine ⟨hid, item, hitem, ?_⟩
    rw [hmarker (by simp), Property.marker, hid]
  · refine (h.tagged.tags id o).mp ?_
    rw [hitem, Option.bind_some, EffectiveItem.property?]
    rcases hcls with hcls | hcls <;> rw [hcls]

end Server

/-- What happens to properties, and to the registry that their markers share. -/
inductive EstateOp where
  | create (name : Text) (pos : Coordinate3D) (profit value : ℤ)
  | reload
  | trade (op : TradeOp)
  | remove (o : OID)
  | place (disposable : Bool) (cls : PickupClass)
  | take (id : ℤ)
  | elsewhere (profiles : Map ℤ Profile) (docs : Collection → List Document)

namespace EstateOp

def run : EstateOp → Game Unit
  | create name pos profit value => do
    let prop ← Property.ofNew name pos profit value
    let _ ← PropertyManager.add prop
    pure ()
  | reload => PropertyManager.loadAllFromDatabase
  | trade op => op.run
  | remove o => PropertyManager.remove o
  | place disposable cls => do
    let item ← PickupManager.create disposable cls
    let _ ← PickupManager.add item
    pure ()
  | take id => PickupManager.remove id
  | elsewhere profiles docs => modify fun s =>
    { s with profiles := profiles, database := { s.database with docs := docs } }

/-- Only properties put up markers and take them away. -/
def admits (s : Server) : EstateOp → Bool
  | place disposable cls =>
    ({ id := 0, disposable := disposable, cls := cls } : EffectiveItem).property?.isNone
  | take id => ((s.pickups.lookup id).bind EffectiveItem.property?).isNone
  | _ => true

/-- One operation, which may throw. -/
def step (s : Server) (i : EstateOp × Env) : Option Server :=
  if i.1.admits s then (i.1.run (s.begin i.2)).state? else none

end EstateOp

section Runs
open Server
variable {s t : Server} {op : EstateOp} {env : Env}

/-- Every operation keeps the markers, however it ends. -/
theorem wp_estate_marked (hs : s.Marked none) (hadmits : op.admits s = true) :
    wp op.run (fun _ => Marked none) (fun _ => Marked none) s := by
  cases op with
  | create name pos profit value =>
    rw [EstateOp.run, wp_bind]
    refine wp_mono (Property.wp_ofNew_marked hs) (fun prop t ht => ?_) (fun _ _ h => h)
    rw [wp_bind]
    exact wp_mono (PropertyManager.wp_add_marked ht) (fun _ _ h => h) (fun _ _ h => h)
  | reload => exact PropertyManager.wp_loadAllFromDatabase_marked hs
  | trade op =>
    cases op with
    | purchase o p => exact Property.wp_purchase_marked hs
    | draw o p =>
      rw [EstateOp.run, TradeOp.run, wp_discard]
      exact Within.wp_of_keeps inferInstance hs
    | sell o p => exact Property.wp_sell_marked hs
  | remove o => exact PropertyManager.wp_remove_marked hs
  | place disposable cls =>
    rw [EstateOp.run, wp_bind]
    refine wp_mono (PickupManager.wp_create hs.stocked) (fun item t ht => ?_) (fun _ _ h => h.elim)
    obtain ⟨-, hcls, hoffers⟩ := ht
    rw [wp_bind]
    refine wp_mono (PickupManager.wp_add hoffers) (fun _ u hu => ?_) (fun _ _ h => h.elim)
    refine hu.marked (hs.tagged.insert_untagged hoffers.new ?_)
    rw [EffectiveItem.property?, hcls]
    simpa [EstateOp.admits, EffectiveItem.property?] using hadmits
  | take id =>
    refine wp_mono (PickupManager.wp_remove hs.stocked) (fun _ t ht => ?_) (fun _ _ h => h.elim)
    exact ht.marked (hs.tagged.erase_untagged (by simpa [EstateOp.admits] using hadmits))
  | elsewhere profiles docs =>
    rw [EstateOp.run, wp_modify]
    exact hs.of_same rfl rfl rfl rfl

theorem estate_step (hs : s.Marked none) (h : EstateOp.step s (op, env) = some t) :
    t.Marked none := by
  rw [EstateOp.step] at h
  split at h
  case isFalse => cases h
  case isTrue hadmits =>
  have hbegin : (s.begin env).Marked none := hs.of_same rfl rfl rfl rfl
  exact state_of_wp (P := fun t => t.Marked none) (wp_estate_marked hbegin hadmits) h

end Runs

/-- In every state a run reaches, the properties and their markers agree. -/
theorem properties_have_one_marker (s : Server) (ops : List (EstateOp × Env))
    (hfresh : s.platform.GivesFreshIds) (hproperties : s.properties = ∅) (hpickups : s.pickups = ∅) :
    AllSteps EstateOp.step (fun _ _ t => t.OneMarkerEach) s ops := by
  have hstart : s.Marked none := by
    refine ⟨⟨hfresh, fun id item hitem => ?_⟩, ?_⟩
    · rw [hpickups] at hitem
      cases hitem
    · rw [hproperties, hpickups]
      exact Tagged.of_none fun _ => rfl
  refine AllSteps.of_step (I := fun s => s.Marked none) (fun s i t hs ht => ?_) hstart ops
  have hmarked := estate_step hs ht
  exact ⟨hmarked.oneMarkerEach, hmarked⟩

/-! ## A property that changes hands -/

namespace Demo

/-- The streamer counts on from the largest id that is live. -/
def streamer : Platform := { platform with streamerId := fun ids => ids.foldr max 0 + 1 }

/-- A registered player, and no properties. -/
def newEstate : Server :=
  { Server.initial streamer config fun _ => [] with
    profiles := (∅ : Map ℤ Profile).insert 0 (buyer ⟨11⟩) }

/-- The property is created, bought and sold beside a weapon that is picked up, and
is reloaded and removed in the end. -/
def estateRun : List (EstateOp × Env) :=
  [(.create (ascii "house") ⟨0, 0, 0⟩ 10 50, { genoid := fun _ => ⟨house, by decide⟩ }),
    (.place true (.weapon 16 3), env), (.trade (.purchase house 0), env), (.take 2, env),
    (.trade (.sell house 0), env), (.reload, env), (.remove house, env)]

end Demo

theorem Demo.streamer_givesFreshIds : Demo.streamer.GivesFreshIds := by
  have hle : ∀ (ids : List ℤ), (∀ id ∈ ids, id ≤ ids.foldr max 0) ∧ 0 ≤ ids.foldr max 0 := by
    intro ids
    induction ids with
    | nil => simp
    | cons id ids ih =>
      rw [List.foldr_cons]
      refine ⟨fun j hj => ?_, ih.2.trans (le_max_right _ _)⟩
      rcases List.mem_cons.mp hj with rfl | hj
      · exact le_max_left _ _
      · exact (ih.1 j hj).trans (le_max_right _ _)
  intro ids
  obtain ⟨hall, hnonneg⟩ := hle ids
  have hid : Demo.streamer.streamerId ids = ids.foldr max 0 + 1 := rfl
  rw [hid]
  refine ⟨fun hmem => ?_, by omega⟩
  have := hall _ hmem
  omega

/-- A property that changes hands has its one marker throughout. -/
theorem house_has_one_marker :
    AllSteps EstateOp.step (fun _ _ t => t.OneMarkerEach) Demo.newEstate Demo.estateRun :=
  properties_have_one_marker Demo.newEstate Demo.estateRun Demo.streamer_givesFreshIds rfl rfl

end FreshCity
