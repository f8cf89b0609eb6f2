import FreshCity.Imperative.Pool
import FreshCity.Loading
import FreshCity.ZoneRegistry

/-!
# Who owns the streamed items

Pickups, areas, map icons, objects and the rectangles of gang zones are created in
constructors and destroyed in destructors. Every live one belongs to one object that a
manager keeps, so nothing is left behind and nothing is destroyed twice.
-/
namespace FreshCity
open Imperative Prog

/-- The items that exist outside the gamemode. -/
inductive ItemKind where
  | pickup | area | mapicon | object | zone
  deriving DecidableEq

/-- The ids in hand, of each kind. -/
abbrev InHand : Type := ItemKind → List ℤ

/-- More ids of one kind are in hand. -/
def InHand.take (held : InHand) (k : ItemKind) (ids : List ℤ) : InHand :=
  Function.update held k (ids ++ held k)

/-- The object an engineer built. -/
def Profile.object (pr : Profile) : Option ℤ := pr.role.bind (·.obj)

namespace Server

/-- The ids that SA-MP and the streamer have given out. -/
def live (s : Server) : ItemKind → List ℤ
  | .pickup => s.streamer.pickups
  | .area => s.streamer.areas
  | .mapicon => s.streamer.mapicons
  | .object => s.streamer.objects
  | .zone => s.samp.zones

/-- The map icons of the properties. -/
def icons (s : Server) : List ℤ := s.properties.gather (·.mapicon)

/-- The ids the managers' objects hold, with these map icons. -/
def ownedWith (icons : List ℤ) (s : Server) : ItemKind → List ℤ
  | .pickup => s.pickups.gather fun item => some item.id
  | .area => s.areas.gather fun area => some area.id
  | .mapicon => icons
  | .object => s.profiles.gather Profile.object
  | .zone => s.zones.gather fun zone => some zone.zone

/-- The ids the managers' objects hold. -/
def owned (s : Server) : ItemKind → List ℤ := s.ownedWith s.icons

/-- Every live id is in hand or held by an object, with these map icons. -/
structure AccountsWith (icons : List ℤ) (held : InHand) (s : Server) : Prop where
  fresh : s.platform.IdsAreNew
  each : ∀ k, Held (s.live k) (held k ++ s.ownedWith icons k)

/-- Every live id is in hand or held by an object of a manager. -/
def Accounts (held : InHand) (s : Server) : Prop := s.AccountsWith s.icons held

end Server

/-! ## One item changes hands -/

/-- Between two states only the items of one kind differ. -/
structure Server.OnlyItems (k : ItemKind) (icons icons' : List ℤ) (s t : Server) : Prop where
  platform : t.platform = s.platform
  live : ∀ j, j ≠ k → t.live j = s.live j
  owned : ∀ j, j ≠ k → t.ownedWith icons' j = s.ownedWith icons j

namespace InHand
variable {held : InHand} {k j : ItemKind} {id : ℤ} {ids : List ℤ}

theorem take_self : held.take k ids k = ids ++ held k := Function.update_self ..

theorem take_of_ne (hj : j ≠ k) : held.take k ids j = held j := Function.update_of_ne hj _ _

theorem take_nil : held.take k [] = held := Function.update_eq_self k held

theorem take_append {ids' : List ℤ} :
    held.take k (ids ++ ids') = (held.take k ids').take k ids := by
  simp [take]

end InHand

namespace Server.AccountsWith
open InHand
variable {s t : Server} {held : InHand} {icons icons' : List ℤ} {k : ItemKind} {id : ℤ}
  {ids : List ℤ}

theorem of_onlyItems {held' : InHand} (h : s.AccountsWith icons held)
    (ht : OnlyItems k icons icons' s t) (hk : Held (t.live k) (held' k ++ t.ownedWith icons' k))
    (hheld : ∀ j, j ≠ k → held' j = held j) : t.AccountsWith icons' held' := by
  refine ⟨ht.platform ▸ h.fresh, fun j => ?_⟩
  by_cases hj : j = k
  · exact hj ▸ hk
  · rw [ht.live j hj, ht.owned j hj, hheld j hj]
    exact h.each j

/-- It does not matter in which order ids came into the hand. -/
theorem reorder {held' : InHand} (h : s.AccountsWith icons held)
    (hperm : ∀ k, (held k).Perm (held' k)) : s.AccountsWith icons held' :=
  ⟨h.fresh, fun k => (h.each k).pass ((hperm k).append_right _)⟩

/-- A new id comes into the hand. -/
theorem create (h : s.AccountsWith icons held) (ht : OnlyItems k icons icons s t)
    (hnew : id ∉ s.live k) (hlive : t.live k = id :: s.live k)
    (howned : t.ownedWith icons k = s.ownedWith icons k) :
    t.AccountsWith icons (held.take k [id]) := by
  refine h.of_onlyItems ht ?_ fun j hj => take_of_ne hj
  rw [take_self, hlive, howned]
  exact (h.each k).create hnew

/-- The id in hand is given back. -/
theorem destroy (h : s.AccountsWith icons (held.take k [id])) (ht : OnlyItems k icons icons s t)
    (hlive : t.live k = (s.live k).erase id)
    (howned : t.ownedWith icons k = s.ownedWith icons k) : t.AccountsWith icons held := by
  refine h.of_onlyItems ht ?_ fun j hj => (take_of_ne hj).symm
  have hk := h.each k
  rw [take_self] at hk
  rw [hlive, howned]
  exact hk.destroy

/-- Ids go from the hand to objects, and others from objects into the hand. -/
theorem exchange {ids' : List ℤ} (h : s.AccountsWith icons (held.take k ids))
    (ht : OnlyItems k icons icons' s t) (hlive : t.live k = s.live k)
    (howned : (ids ++ s.ownedWith icons k).Perm (ids' ++ t.ownedWith icons' k)) :
    t.AccountsWith icons' (held.take k ids') := by
  refine h.of_onlyItems ht ?_ fun j hj => by rw [take_of_ne hj, take_of_ne hj]
  have hk := h.each k
  rw [take_self, List.append_assoc] at hk
  rw [take_self, List.append_assoc, hlive]
  refine hk.pass (List.perm_append_comm_assoc .. |>.trans ?_)
  exact (howned.append_left _).trans (List.perm_append_comm_assoc ..)

/-- Ids go from the hand to objects. -/
theorem store (h : s.AccountsWith icons (held.take k ids)) (ht : OnlyItems k icons icons' s t)
    (hlive : t.live k = s.live k)
    (howned : (t.ownedWith icons' k).Perm (ids ++ s.ownedWith icons k)) :
    t.AccountsWith icons' held := by
  have hstored : t.AccountsWith icons' (held.take k []) := h.exchange ht hlive howned.symm
  rwa [take_nil] at hstored

/-- Ids go from objects into the hand. -/
theorem release (h : s.AccountsWith icons held) (ht : OnlyItems k icons icons' s t)
    (hlive : t.live k = s.live k)
    (howned : (s.ownedWith icons k).Perm (ids ++ t.ownedWith icons' k)) :
    t.AccountsWith icons' (held.take k ids) := by
  have hnothing : s.AccountsWith icons (held.take k []) := by rwa [take_nil]
  exact hnothing.exchange ht hlive howned

end Server.AccountsWith

/-- The properties were not touched, and with them the map icons they hold. -/
theorem Server.AccountsWith.accounts {s t : Server} {held : InHand}
    (h : t.AccountsWith s.icons held) (hsame : t.properties = s.properties) : t.Accounts held := by
  rw [Accounts, icons, hsame]
  exact h

/-! ## What leaves the items alone -/

section Changes
open Server
variable {s t : Server} {held : InHand} {α τ : Type}

/-- The kinds of change that leave the items and their owners alone. -/
def Kind.keepsItems : Kind → Bool
  | streamer => false
  | sampZones => false
  | pickups => false
  | areas => false
  | properties => false
  | zones => false
  | profileRole => false
  | insertProfile _ => false
  | eraseProfile _ => false
  | _ => true

theorem Kind.objects {k : Kind} (h : k.change s t) (hk : k.keepsItems = true) :
    t.profiles.gather Profile.object = s.profiles.gather Profile.object := by
  by_cases hw : k.writesProfiles = false
  · rw [(frame h).profiles hw]
  · cases k <;> simp_all only [Kind.keepsItems, Kind.writesProfiles, not_true_eq_false,
      Bool.false_eq_true]
    all_goals
      obtain ⟨_, _, rfl⟩ := h
      exact Map.gather_adjust_same fun _ => rfl

theorem Kind.rectangles {k : Kind} (h : k.change s t) (hk : k.keepsItems = true) :
    (t.zones.gather fun zone => some zone.zone) = s.zones.gather fun zone => some zone.zone := by
  by_cases hdata : k = .zoneData
  · subst hdata
    obtain ⟨z, g, hg, rfl⟩ := h
    exact Map.gather_adjust_same fun zone => by rw [(hg zone).zone]
  · rw [(frame h).zones (by rintro rfl; cases hk) hdata]

theorem Kind.accounts {k : Kind} (h : k.change s t) (hk : k.keepsItems = true)
    (hs : s.Accounts held) : t.Accounts held := by
  have hframe := frame h
  have hproperties := hframe.properties (by rintro rfl; cases hk)
  have hpickups := hframe.pickups (by rintro rfl; cases hk)
  have hareas := hframe.areas (by rintro rfl; cases hk)
  have hstreamer := hframe.streamer (by rintro rfl; cases hk)
  have hzones := (hframe.sampZones (by rintro rfl; cases hk)).1
  refine ⟨hframe.platform ▸ hs.fresh, fun j => ?_⟩
  have heach := hs.each j
  cases j <;> simp only [live, ownedWith, Server.icons, hproperties, hpickups, hareas, hstreamer,
    hzones, objects h hk, rectangles h hk] at heach ⊢ <;> exact heach

/-- A program whose kinds leave the items alone. -/
theorem keeps_accounts_of_stays {K : List Kind} {x : Game α} (hx : Stays K x)
    (hK : ∀ k ∈ K, k.keepsItems = true) : Keeps (Accounts held) x :=
  hx.keeps fun k hk _ _ hab ha => Kind.accounts hab (hK k hk) ha

/-- The kinds of change around the creation and destruction of items. -/
abbrev aroundItems : List Kind :=
  [.output, .database, .counters, .samp, .sampMoney, .destroyTimer, .createTimer .zone,
   .createTimer .profile, .createTimer .nothing, .zoneData, .profileItem, .profileLoaded,
   .profileSignIn, .profileTeam, .profileKills, .profileVars, .profileGame, .profileMoney,
   .teamRoster, .insert .gangzone, .insert .property, .insert .waypoint, .insert .tptrigger,
   .update .gangzone, .update .property, .update .profile, .remove .gangzone, .insert .profile,
   .setVar .propertyLastviewtime, .setVar .propertyLastviewed, .insert .team]

theorem keeps_accounts_around {x : Game α} (hx : Stays aroundItems x) : Keeps (Accounts held) x :=
  keeps_accounts_of_stays hx (by simp [Kind.keepsItems])

instance (priority := low) keeps_accounts {x : Game α} [hx : Stays aroundItems x] :
    Keeps (Accounts held) x := keeps_accounts_around hx

instance keeps_accounts_reload {c : Collection} : Keeps (Accounts held) (emit (.reload c)) :=
  keeps_accounts_of_stays (K := [.reload c]) (stays_emit (.reload c) _ rfl)
    (by simp [Kind.keepsItems])

/-- A loop over the documents of a collection. -/
instance keeps_accounts_fetchAll {c : Collection} {body : Document → Game Unit}
    [∀ doc, Keeps (Accounts held) (body doc)] :
    Keeps (Accounts held) (fetchAllFromDatabase c body) := by
  have hissue : Keeps (Accounts held) (issue (.queryAll c)) :=
    keeps_accounts_of_stays (K := [.output, .database]) (stays_issue .output _ rfl)
      (by simp [Kind.keepsItems])
  unfold fetchAllFromDatabase
  infer_instance

/-- A method that does not touch the items. -/
theorem wp_method_accounts {x : Method τ α} (hx : MethodStays aroundItems x) {q : τ × Server}
    (hs : q.2.Accounts held) :
    wp x (fun _ r => r.2.Accounts held) (fun _ r => r.2.Accounts held) q := by
  have haccounts : ∀ r : τ × Server, Path Kind.change aroundItems q.2 r.2 → r.2.Accounts held :=
    fun r hr => hr.invariant (fun k hk _ _ hab ha => Kind.accounts hab
      (by revert k; simp [Kind.keepsItems]) ha) hs
  exact wp_mono (hx.path q) (fun _ r hr => haccounts r (path_of_methodPath hr))
    (fun _ r hr => haccounts r (path_of_methodPath hr))

end Changes

/-! ## Pickups and areas -/

/-- A program that keeps the account whatever the map icons are, and leaves the properties
alone. -/
theorem keeps_accounts_of_wp {held : InHand} {x : Game Unit}
    (h : ∀ s icons, s.AccountsWith icons held → wp x (fun _ t => t.AccountsWith icons held ∧
      t.properties = s.properties) (fun _ _ => False) s) : Keeps (Server.Accounts held) x :=
  keeps_of_wp fun s hs => wp_mono (h s s.icons hs) (fun _ _ ht => ht.1.accounts ht.2)
    (fun _ _ hf => hf.elim)

namespace PickupManager
open Server
variable {s : Server} {held : InHand} {icons : List ℤ} {id : ℤ} {item : EffectiveItem}

theorem onlyItems {pickups : Map ℤ EffectiveItem} {ids : List ℤ} :
    OnlyItems .pickup icons icons s
      { s with pickups := pickups, streamer := { s.streamer with pickups := ids } } := by
  constructor <;> first
    | rfl
    | (intro j hj; cases j <;> first | rfl | exact absurd rfl hj)

/-- A pickup is in hand once it is constructed. -/
theorem wp_create_owned {disposable : Bool} {cls : PickupClass} (h : s.AccountsWith icons held) :
    wp (create disposable cls) (fun item t => t.AccountsWith icons (held.take .pickup [item.id]) ∧
      t.properties = s.properties) (fun _ _ => False) s :=
  ⟨h.create onlyItems (h.fresh.streamer _) rfl rfl, rfl⟩

theorem wp_destruct_owned (h : s.AccountsWith icons (held.take .pickup [item.id])) :
    wp (destruct item) (fun _ t => t.AccountsWith icons held ∧ t.properties = s.properties)
      (fun _ _ => False) s := ⟨h.destroy onlyItems rfl rfl, rfl⟩

/-- A pickup goes from the hand into the registry, or is destroyed. -/
theorem wp_add_owned (h : s.AccountsWith icons (held.take .pickup [item.id])) :
    wp (add item) (fun _ t => t.AccountsWith icons held ∧ t.properties = s.properties)
      (fun _ _ => False) s := by
  rw [add, wp_bind, wp_gets, wp_ite, id_eq]
  split
  case isTrue => exact wp_destruct_owned h
  case isFalse hnew => exact ⟨h.store onlyItems rfl (.of_eq (Map.gather_insert hnew)), rfl⟩

/-- A registered pickup is destroyed when it leaves the registry. -/
theorem wp_remove_owned (h : s.AccountsWith icons held) :
    wp (remove id) (fun _ t => t.AccountsWith icons held ∧ t.properties = s.properties)
      (fun _ _ => False) s := by
  rw [remove, wp_bind, wp_gets, wp_bind, wp_modify]
  cases hitem : s.pickups.lookup id with
  | none =>
    have hsame : s.pickups.erase id = s.pickups :=
      Map.erase_of_notMem (AList.lookup_eq_none.mp hitem)
    rw [hsame]
    exact ⟨h, rfl⟩
  | some item =>
    exact wp_destruct_owned (h.release (t := { s with pickups := s.pickups.erase id })
      onlyItems rfl (Map.gather_erase hitem))

instance : Keeps (Accounts held) (remove id) := keeps_accounts_of_wp fun _ _ h => wp_remove_owned h

/-- A pickup that is handed to the registry right away. -/
theorem wp_create_add {disposable : Bool} {cls : PickupClass} (h : s.AccountsWith icons held) :
    wp (create disposable cls) (fun item t => wp (add item) (fun _ u => u.AccountsWith icons held ∧
      u.properties = s.properties) (fun _ _ => False) t) (fun _ _ => False) s := by
  refine wp_mono (wp_create_owned h) (fun item t ht => ?_) (fun _ _ hf => hf)
  exact wp_mono (wp_add_owned ht.1) (fun _ _ hu => ⟨hu.1, hu.2.trans ht.2⟩) (fun _ _ hf => hf)

/-- A pickup that is handed to the registry right away keeps the account. -/
instance keeps_create_add {disposable : Bool} {cls : PickupClass} :
    Keeps (Accounts held) (do
      let item ← create disposable cls
      let _ ← add item
      pure ()) := keeps_accounts_of_wp fun s icons h => by
  rw [wp_bind]
  exact wp_mono (wp_create_add h) (fun item t ht => by rwa [wp_bind]) (fun _ _ hf => hf)

end PickupManager

namespace DynamicAreaManager
open Server
variable {s : Server} {held : InHand} {icons : List ℤ} {id z : ℤ} {area : GangZoneArea}

theorem onlyItems {areas : Map ℤ GangZoneArea} {ids : List ℤ} :
    OnlyItems .area icons icons s
      { s with areas := areas, streamer := { s.streamer with areas := ids } } := by
  constructor <;> first
    | rfl
    | (intro j hj; cases j <;> first | rfl | exact absurd rfl hj)

theorem wp_create_owned (h : s.AccountsWith icons held) :
    wp (create z) (fun area t => t.AccountsWith icons (held.take .area [area.id]) ∧
      t.properties = s.properties) (fun _ _ => False) s :=
  ⟨h.create onlyItems (h.fresh.streamer _) rfl rfl, rfl⟩

theorem wp_destruct_owned (h : s.AccountsWith icons (held.take .area [area.id])) :
    wp (destruct area) (fun _ t => t.AccountsWith icons held ∧ t.properties = s.properties)
      (fun _ _ => False) s := ⟨h.destroy onlyItems rfl rfl, rfl⟩

theorem wp_add_owned (h : s.AccountsWith icons (held.take .area [area.id])) :
    wp (add area) (fun _ t => t.AccountsWith icons held ∧ t.properties = s.properties)
      (fun _ _ => False) s := by
  rw [add, wp_bind, wp_gets, wp_ite, id_eq]
  split
  case isTrue => exact wp_destruct_owned h
  case isFalse hnew => exact ⟨h.store onlyItems rfl (.of_eq (Map.gather_insert hnew)), rfl⟩

theorem wp_remove_owned (h : s.AccountsWith icons held) :
    wp (remove id) (fun _ t => t.AccountsWith icons held ∧ t.properties = s.properties)
      (fun _ _ => False) s := by
  rw [remove, wp_bind, wp_gets, wp_bind, wp_modify]
  cases harea : s.areas.lookup id with
  | none =>
    have hsame : s.areas.erase id = s.areas :=
      Map.erase_of_notMem (AList.lookup_eq_none.mp harea)
    rw [hsame]
    exact ⟨h, rfl⟩
  | some area =>
    exact wp_destruct_owned (h.release (t := { s with areas := s.areas.erase id })
      onlyItems rfl (Map.gather_erase harea))

instance : Keeps (Accounts held) (remove id) := keeps_accounts_of_wp fun _ _ h => wp_remove_owned h

end DynamicAreaManager

/-! ## Gang zones -/

section Zones
open Server
variable {s : Server} {held : InHand} {icons : List ℤ} {z id color : ℤ}

theorem onlyItems_rectangles {ids : List ℤ} {colors : ℤ → Option ℤ} :
    OnlyItems .zone icons icons s
      { s with samp := { s.samp with zones := ids, zoneColor := colors } } := by
  constructor <;> first
    | rfl
    | (intro j hj; cases j <;> first | rfl | exact absurd rfl hj)

theorem onlyItems_zones {zones : Map ℤ GangZoneItem} :
    OnlyItems .zone icons icons s { s with zones := zones } := by
  constructor <;> first
    | rfl
    | (intro j hj; cases j <;> first | rfl | exact absurd rfl hj)

/-- Rectangles go from the hand to zones. -/
theorem store_zones {ids : List ℤ} {zones : Map ℤ GangZoneItem}
    (h : s.Accounts (held.take .zone ids))
    (hzones : (zones.gather fun zone => some zone.zone).Perm
      (ids ++ s.zones.gather fun zone => some zone.zone)) :
    Accounts held { s with zones := zones } :=
  (AccountsWith.store (t := { s with zones := zones }) h onlyItems_zones rfl hzones).accounts rfl

/-- Rectangles go from zones into the hand. -/
theorem release_zones {ids : List ℤ} {zones : Map ℤ GangZoneItem} (h : s.Accounts held)
    (hzones : (s.zones.gather fun zone => some zone.zone).Perm
      (ids ++ zones.gather fun zone => some zone.zone)) :
    Accounts (held.take .zone ids) { s with zones := zones } :=
  (AccountsWith.release (t := { s with zones := zones }) h onlyItems_zones rfl hzones).accounts rfl

instance : Keeps (Accounts held) (gangZoneShowForAll id color) :=
  keeps_of_wp fun _ hs => ⟨hs.fresh, hs.each⟩

instance : Keeps (Accounts held) (gangZoneFlashForAll id color) :=
  keeps_of_wp fun _ hs => ⟨hs.fresh, hs.each⟩

theorem wp_gangZoneCreate_owned (h : s.Accounts held) :
    wp gangZoneCreate (fun id t => t.Accounts (held.take .zone [id])) (fun _ _ => False) s :=
  (AccountsWith.create h onlyItems_rectangles (h.fresh.zones _) rfl rfl).accounts rfl

theorem wp_gangZoneDestroy_owned (h : s.Accounts (held.take .zone [id])) :
    wp (gangZoneDestroy id) (fun _ => Accounts held) (fun _ _ => False) s :=
  (AccountsWith.destroy h onlyItems_rectangles rfl rfl).accounts rfl

end Zones

namespace GangZoneItem
set_option synthInstance.maxSize 1000
open Server
variable {s : Server} {held : InHand} {z : ℤ} {zone : GangZoneItem}

/-- A zone under construction, whose rectangle is in hand. -/
def Owning (held : InHand) (z : ℤ) (q : GangZoneItem × Server) : Prop :=
  q.1.zone = z ∧ q.2.Accounts (held.take .zone [z])

instance keeps_owning_shared {α : Type} {x : Game α} [hx : Keeps (Accounts (held.take .zone [z])) x] :
    Keeps (Owning held z) (shared x : Method GangZoneItem α) := by
  refine keeps_of_wp fun q hq => ?_
  rw [wp_shared]
  exact wp_mono (hx.wp_of_keeps hq.2) (fun _ _ ht => ⟨hq.1, ht⟩) (fun _ _ ht => ⟨hq.1, ht⟩)

theorem keeps_owning_assign {f : GangZoneItem → GangZoneItem} (hf : ∀ zone, (f zone).zone = zone.zone) :
    Keeps (Owning held z) (assign f : Method GangZoneItem Unit) :=
  keeps_of_wp fun q hq => ⟨(hf q.1).trans hq.1, hq.2⟩

instance keeps_owning_loadOwnerData : Keeps (Owning held z) loadOwnerData := by
  have hname : ∀ name, Keeps (Owning held z)
      (assign fun zone => { zone with name := name } : Method GangZoneItem Unit) :=
    fun _ => keeps_owning_assign fun _ => rfl
  have howner : ∀ owner, Keeps (Owning held z)
      (assign fun zone => { zone with owner := owner } : Method GangZoneItem Unit) :=
    fun _ => keeps_owning_assign fun _ => rfl
  have hcolor : ∀ color, Keeps (Owning held z)
      (assign fun zone => { zone with color := color } : Method GangZoneItem Unit) :=
    fun _ => keeps_owning_assign fun _ => rfl
  have hspawn : ∀ spawn, Keeps (Owning held z)
      (assign fun zone => { zone with spawnpoint := spawn } : Method GangZoneItem Unit) :=
    fun _ => keeps_owning_assign fun _ => rfl
  unfold loadOwnerData
  infer_instance

/-- The area and the trigger go to their managers. -/
instance keeps_owning_placeArea : Keeps (Owning held z) placeArea := by
  refine keeps_of_wp fun q hq => ?_
  obtain ⟨hz, hs⟩ := hq
  simp only [placeArea, wp_bind, wp_self, wp_shared, wp_assign, wp_pure]
  refine wp_mono (DynamicAreaManager.wp_create_owned hs) (fun area t ht => ?_) (fun _ _ hf => hf.elim)
  refine wp_mono (DynamicAreaManager.wp_add_owned ht.1) (fun _ u hu => ?_) (fun _ _ hf => hf.elim)
  refine wp_mono (PickupManager.wp_create_add hu.1) (fun item v hv => ?_) (fun _ _ hf => hf.elim)
  refine wp_mono hv (fun _ w hw => ⟨hz, hw.1.accounts ?_⟩) (fun _ _ hf => hf.elim)
  rw [hw.2, hu.2, ht.2]

instance keeps_owning_create {doc : Document} {refetch : Bool} : Keeps (Owning held z)
    (part (·.item) (fun it zone => { zone with item := it })
      (SaveableItem.create .gangzone doc refetch)) := by
  refine keeps_of_wp fun q hq => ?_
  rw [wp_part]
  exact wp_mono (wp_method_accounts inferInstance hq.2) (fun _ _ ht => ⟨hq.1, ht⟩)
    (fun _ _ ht => ⟨hq.1, ht⟩)

/-- A constructed zone holds its rectangle; a throw destroys it. -/
theorem wp_construct_owned {item : SaveableItem} {rest : Method GangZoneItem Unit}
    (hrest : ∀ z, Keeps (Owning held z) rest) (h : s.Accounts held) :
    wp (construct item rest) (fun zone t => t.Accounts (held.take .zone [zone.zone]))
      (fun _ => Accounts held) s := by
  simp only [construct, wp_bind, wp_gets]
  refine wp_mono (keeps_accounts.wp_of_keeps h) (fun addr t ht => ?_) (fun _ _ he => he)
  rw [wp_bind]
  refine wp_mono (wp_gangZoneCreate_owned ht) (fun z u hu => ?_) (fun _ _ hf => hf.elim)
  rw [wp_handle, wp_map, wp_withLocal]
  refine wp_mono ((hrest z).wp_of_keeps ⟨rfl, hu⟩) (fun _ q hq => ?_) (fun _ q hq => ?_)
  · rw [hq.1]
    exact hq.2
  · rw [wp_bind]
    exact wp_mono (wp_gangZoneDestroy_owned hq.2) (fun _ _ hv => hv) (fun _ _ hf => hf.elim)

theorem wp_build_owned {item : SaveableItem} (h : s.Accounts held) :
    wp (build item) (fun zone t => t.Accounts (held.take .zone [zone.zone]))
      (fun _ => Accounts held) s := by
  rw [build, wp_bind]
  refine wp_mono (keeps_accounts.wp_of_keeps h) (fun _ t ht => ?_) (fun _ _ he => he)
  exact wp_construct_owned (fun _ => inferInstance) ht

theorem wp_ofData_owned {doc : Document} (h : s.Accounts held) :
    wp (ofData doc) (fun zone t => t.Accounts (held.take .zone [zone.zone]))
      (fun _ => Accounts held) s := by
  rw [ofData, wp_bind]
  refine wp_mono (keeps_accounts.wp_of_keeps h) (fun item t ht => ?_) (fun _ _ he => he)
  rw [wp_bind, wp_withLocal]
  refine wp_mono (wp_method_accounts inferInstance ht) (fun _ q hq => ?_) (fun _ _ he => he)
  exact wp_build_owned hq

theorem wp_ofNew_owned {name : Text} {owner spawnpoint : OID} {min max : CoordinatePlane}
    {trigger : Coordinate3D} (h : s.Accounts held) :
    wp (ofNew name owner min max spawnpoint trigger)
      (fun zone t => t.Accounts (held.take .zone [zone.zone])) (fun _ => Accounts held) s := by
  rw [ofNew, wp_bind]
  refine wp_mono (keeps_accounts.wp_of_keeps h) (fun item t ht => ?_) (fun _ _ he => he)
  exact wp_construct_owned (fun _ => inferInstance) ht

theorem wp_destruct_owned (h : s.Accounts (held.take .zone [zone.zone])) :
    wp zone.destruct (fun _ => Accounts held) (fun _ _ => False) s := by
  rw [destruct, wp_bind]
  refine wp_mono (DynamicAreaManager.wp_remove_owned h) (fun _ t ht => ?_) (fun _ _ hf => hf)
  rw [wp_bind]
  refine wp_mono (PickupManager.wp_remove_owned ht.1) (fun _ u hu => ?_) (fun _ _ hf => hf)
  exact wp_gangZoneDestroy_owned (hu.1.accounts (hu.2.trans ht.2))

end GangZoneItem

namespace GangZoneManager
open Server
variable {s : Server} {held : InHand} {z : ℤ} {zone : GangZoneItem}

theorem wp_add_owned (h : s.Accounts (held.take .zone [zone.zone])) :
    wp (add zone) (fun _ => Accounts held) (fun _ _ => False) s := by
  rw [add, wp_bind, wp_gets, wp_ite, id_eq]
  split
  case isTrue =>
    rw [wp_bind]
    exact GangZoneItem.wp_destruct_owned h
  case isFalse hnew => exact store_zones h (.of_eq (Map.gather_insert hnew))

instance : Keeps (Accounts held) (remove z) := by
  refine keeps_of_wp fun s h => ?_
  rw [remove, wp_bind, wp_gets, wp_bind, wp_modify]
  cases hzone : s.zones.lookup z with
  | none =>
    have hsame : s.zones.erase z = s.zones := Map.erase_of_notMem (AList.lookup_eq_none.mp hzone)
    rw [hsame]
    exact h
  | some zone =>
    have hreleased := release_zones h (Map.gather_erase hzone)
    rw [Option.toList_some, forEach, wp_bind]
    exact wp_mono (GangZoneItem.wp_destruct_owned hreleased) (fun _ _ ht => ht)
      (fun _ _ hf => hf.elim)

/-- The zones of a list are destroyed one after the other. -/
theorem wp_destructAll {members : List GangZoneItem}
    (h : s.Accounts (held.take .zone (members.map (·.zone)))) :
    wp (forEach GangZoneItem.destruct members) (fun _ => Accounts held) (fun _ _ => False) s := by
  induction members generalizing s with
  | nil => rwa [List.map_nil, InHand.take_nil] at h
  | cons zone members ih =>
    rw [List.map_cons, ← List.singleton_append, InHand.take_append] at h
    rw [forEach, wp_bind]
    exact wp_mono (GangZoneItem.wp_destruct_owned h) (fun _ _ ht => ih ht) (fun _ _ hf => hf)

instance : Keeps (Accounts held) clear := by
  refine keeps_of_wp fun s h => ?_
  rw [clear, wp_bind, wp_gets, wp_bind, wp_modify]
  have hreleased : Server.Accounts (held.take .zone (s.zones.values.map (·.zone)))
      { s with zones := ∅ } := release_zones h
    (by rw [Map.gather_some, Map.gather_empty, List.append_nil])
  exact wp_mono (wp_destructAll hreleased) (fun _ _ ht => ht) (fun _ _ hf => hf.elim)

instance : Keeps (Accounts held) loadAllFromDatabase := by
  have hload : ∀ doc, Keeps (Accounts held) (do
      let zone ← GangZoneItem.ofData doc
      let _ ← add zone
      pure ()) := fun doc => keeps_of_wp fun s h => by
    rw [wp_bind]
    refine wp_mono (GangZoneItem.wp_ofData_owned h) (fun zone t ht => ?_) (fun _ _ he => he)
    rw [wp_bind]
    exact wp_mono (wp_add_owned ht) (fun _ _ hu => hu) (fun _ _ hf => hf.elim)
  unfold loadAllFromDatabase
  infer_instance

end GangZoneManager

/-! ## Properties and their map icons -/

section MapIcons
open Server
variable {s : Server} {held : InHand} {icons : List ℤ} {id : ℤ}

theorem onlyItems_mapicons {ids : List ℤ} :
    OnlyItems .mapicon icons icons s { s with streamer := { s.streamer with mapicons := ids } } := by
  constructor <;> first
    | rfl
    | (intro j hj; cases j <;> first | rfl | exact absurd rfl hj)

/-- Only the map icons that are accounted for depend on the properties. -/
theorem onlyItems_properties {icons' : List ℤ} {properties : Map OID Property} :
    OnlyItems .mapicon icons icons' s { s with properties := properties } := by
  constructor <;> first
    | rfl
    | (intro j hj; cases j <;> first | rfl | exact absurd rfl hj)

theorem wp_createDynamicMapIcon_owned (h : s.AccountsWith icons held) :
    wp createDynamicMapIcon (fun icon t => t.AccountsWith icons (held.take .mapicon [icon]) ∧
      t.properties = s.properties) (fun _ _ => False) s :=
  ⟨h.create onlyItems_mapicons (h.fresh.streamer _) rfl rfl, rfl⟩

/-- The map icon of a property goes, if there is one. -/
theorem wp_destroyIcon_owned {icon : Option ℤ}
    (h : s.AccountsWith icons (held.take .mapicon icon.toList)) :
    wp (forEach destroyDynamicMapIcon icon.toList)
      (fun _ t => t.AccountsWith icons held ∧ t.properties = s.properties) (fun _ _ => False) s := by
  cases icon with
  | none =>
    rw [Option.toList_none, InHand.take_nil] at h
    exact ⟨h, rfl⟩
  | some icon => exact ⟨h.destroy onlyItems_mapicons rfl rfl, rfl⟩

end MapIcons

namespace Property
set_option synthInstance.maxSize 1000
open Server
variable {s : Server} {held : InHand} {icons : List ℤ} {o : OID} {p : ℤ} {prop : Property}

/-- The map icon of a property is in hand while a method of the property runs. -/
def Owning (icons : List ℤ) (held : InHand) (q : Property × Server) : Prop :=
  q.2.AccountsWith icons (held.take .mapicon q.1.mapicon.toList)

/-- The new map icon is created before the old one goes. -/
theorem wp_reloadMarker_owned (h : Owning icons held (prop, s)) :
    wp reloadMarker (fun _ q => Owning icons held q ∧ q.2.properties = s.properties)
      (fun _ _ => False) (prop, s) := by
  have hremoved : wp (when (prop.pickupid ≠ 0) (shared (PickupManager.remove prop.pickupid)))
      (fun _ q => q.1 = prop ∧ Owning icons held (prop, q.2) ∧ q.2.properties = s.properties)
      (fun _ _ => False) (prop, s) := by
    rw [wp_when, wp_shared]
    split
    case isTrue =>
      exact wp_mono (PickupManager.wp_remove_owned h) (fun _ _ ht => ⟨rfl, ht⟩) (fun _ _ hf => hf)
    case isFalse => exact ⟨rfl, h, rfl⟩
  rw [reloadMarker, wp_bind, wp_self, wp_bind]
  refine wp_mono hremoved (fun _ q hq => ?_) (fun _ _ hf => hf)
  obtain ⟨q, t⟩ := q
  obtain ⟨rfl, ht, htp⟩ := hq
  rw [wp_bind, wp_shared]
  refine wp_mono (PickupManager.wp_create_owned ht) (fun item u hu => ?_) (fun _ _ hf => hf)
  rw [wp_bind, wp_shared]
  refine wp_mono (wp_createDynamicMapIcon_owned hu.1) (fun icon v hv => ?_) (fun _ _ hf => hf)
  rw [wp_bind, wp_assign, wp_bind, wp_shared]
  have hswap : v.AccountsWith icons
      (((held.take .mapicon [icon]).take .pickup [item.id]).take .mapicon q.mapicon.toList) := by
    refine hv.1.reorder fun k => ?_
    cases k
    case mapicon => exact List.perm_append_comm_assoc ..
    all_goals rfl
  refine wp_mono (wp_destroyIcon_owned hswap) (fun _ w hw => ?_) (fun _ _ hf => hf)
  rw [wp_bind, wp_assign, wp_bind, wp_shared]
  refine wp_mono (PickupManager.wp_add_owned hw.1) (fun _ x hx => ⟨hx.1, ?_⟩) (fun _ _ hf => hf)
  rw [hx.2, hw.2, hv.2, hu.2, htp]

/-- A registered property hands its map icon to a method and takes one back. -/
theorem wp_withProperty_owned {x : Method Property Unit} (h : s.Accounts held)
    (hx : ∀ prop icons, s.properties.lookup o = some prop → Owning icons held (prop, s) →
      wp x (fun _ q => Owning icons held q ∧ q.2.properties = s.properties) (fun _ _ => False)
        (prop, s)) :
    wp (withProperty o x) (fun _ => Accounts held) (fun _ _ => False) s := by
  rw [withProperty, wp_focus]
  intro prop hprop
  have hout : Owning (Map.gather (·.mapicon) (s.properties.erase o)) held (prop, s) :=
    h.release onlyItems_properties rfl (Map.gather_erase hprop)
  refine wp_mono (hx prop _ hprop hout) (fun _ q hq => ?_) (fun _ _ hf => hf)
  obtain ⟨q, t⟩ := q
  obtain ⟨hq, hsame⟩ := hq
  have hin : (Map.gather (·.mapicon) (t.properties.adjust o fun _ => q)).Perm
      (q.mapicon.toList ++ Map.gather (·.mapicon) (s.properties.erase o)) := by
    rw [hsame]
    exact Map.gather_adjust hprop
  exact hq.store onlyItems_properties rfl hin

/-- The marker of a registered property is put up again. -/
instance keeps_reloadMarker_owned : Keeps (Accounts held) (withProperty o reloadMarker) :=
  keeps_of_wp fun _ h => wp_mono (wp_withProperty_owned h fun _ _ _ => wp_reloadMarker_owned)
    (fun _ _ ht => ht) (fun _ _ hf => hf.elim)

/-- A write to a property that leaves its map icon alone. -/
theorem accounts_adjust {g : Property → Property} (hg : ∀ q, (g q).mapicon = q.mapicon)
    (h : s.Accounts held) : Accounts held { s with properties := s.properties.adjust o g } := by
  have hicons : Server.icons { s with properties := s.properties.adjust o g } = s.icons :=
    Map.gather_adjust_same hg
  rw [Accounts, hicons]
  exact ⟨h.fresh, h.each⟩

theorem keeps_modifyProperty_owned {g : Property → Property}
    (hg : ∀ q, (g q).mapicon = q.mapicon) : Keeps (Accounts held) (modifyProperty o g) :=
  keeps_of_wp fun _ h => accounts_adjust hg h

instance keeps_withItem_owned {α : Type} {x : Method SaveableItem α}
    [hx : MethodStays aroundItems x] : Keeps (Accounts held) (withItem o x) :=
  keeps_of_wp fun s h => by
    rw [withItem, wp_focus]
    intro item hitem
    exact wp_mono (wp_method_accounts hx (q := (item, s)) h)
      (fun _ _ ht => accounts_adjust (fun _ => rfl) ht)
      (fun _ _ ht => accounts_adjust (fun _ => rfl) ht)

instance {owner : OID} : Keeps (Accounts held) (writeOwner o owner) := by
  have howner : Keeps (Accounts held) (modifyProperty o fun prop => { prop with owner := owner }) :=
    keeps_modifyProperty_owned fun _ => rfl
  unfold writeOwner
  infer_instance

instance : Keeps (Accounts held) (draw o p) := by
  have hlastdraw (now : ℤ) : Keeps (Accounts held)
      (modifyProperty o fun prop => { prop with lastdraw := now }) :=
    keeps_modifyProperty_owned fun _ => rfl
  unfold draw
  infer_instance

instance : Keeps (Accounts held) (purchase o p) := by
  unfold purchase
  infer_instance

instance : Keeps (Accounts held) (sell o p) := by
  unfold sell
  infer_instance

/-- The end of both constructors: the first marker. -/
theorem wp_loadAndMark_owned (hicon : prop.mapicon = none) (h : s.Accounts held) :
    wp (do
        loadData
        reloadMarker) (fun _ q => q.2.Accounts (held.take .mapicon q.1.mapicon.toList))
      (fun _ q => q.2.Accounts held) (prop, s) := by
  rw [wp_bind]
  refine wp_mono (wp_and wp_loadData (wp_method_accounts inferInstance h)) (fun _ q hq => ?_)
    (fun _ _ he => he.2)
  obtain ⟨⟨-, hsame, hstate⟩, hq⟩ := hq
  have hout : Owning q.2.icons held q := by
    rwa [Owning, hsame.mapicon, hicon, Option.toList_none, InHand.take_nil]
  exact wp_mono (wp_reloadMarker_owned hout) (fun _ _ hr => hr.1.accounts hr.2)
    (fun _ _ hf => hf.elim)

theorem wp_ofData_owned {doc : Document} (h : s.Accounts held) :
    wp (ofData doc) (fun prop t => t.Accounts (held.take .mapicon prop.mapicon.toList))
      (fun _ => Accounts held) s := by
  rw [ofData, wp_bind]
  refine wp_mono (keeps_accounts.wp_of_keeps h) (fun item t ht => ?_) (fun _ _ he => he)
  rw [wp_bind, wp_withLocal]
  refine wp_mono (wp_method_accounts inferInstance ht) (fun _ q hq => ?_) (fun _ _ he => he)
  rw [wp_map, wp_withLocal]
  exact wp_loadAndMark_owned rfl hq

theorem wp_ofNew_owned {name : Text} {pos : Coordinate3D} {profit value : ℤ}
    (h : s.Accounts held) :
    wp (ofNew name pos profit value)
      (fun prop t => t.Accounts (held.take .mapicon prop.mapicon.toList))
      (fun _ => Accounts held) s := by
  rw [ofNew, wp_bind]
  refine wp_mono (keeps_accounts.wp_of_keeps h) (fun item t ht => ?_) (fun _ _ he => he)
  rw [wp_bind, wp_gets, wp_bind, wp_gets, wp_map, wp_withLocal, wp_bind, wp_shared]
  refine wp_mono (keeps_accounts.wp_of_keeps ht) (fun id u hu => ?_) (fun _ _ he => he)
  rw [wp_bind, wp_part]
  refine wp_mono (wp_method_accounts inferInstance hu) (fun _ q hq => ?_) (fun _ _ he => he)
  exact wp_loadAndMark_owned rfl hq

theorem wp_destruct_owned (h : s.AccountsWith icons (held.take .mapicon prop.mapicon.toList)) :
    wp prop.destruct (fun _ t => t.AccountsWith icons held ∧ t.properties = s.properties)
      (fun _ _ => False) s := by
  rw [destruct, wp_bind]
  refine wp_mono (PickupManager.wp_remove_owned h) (fun _ t ht => ?_) (fun _ _ hf => hf)
  exact wp_mono (wp_destroyIcon_owned ht.1) (fun _ _ hu => ⟨hu.1, hu.2.trans ht.2⟩)
    (fun _ _ hf => hf)

end Property

namespace PropertyManager
open Server
variable {s : Server} {held : InHand} {icons : List ℤ} {o : OID} {prop : Property}

theorem wp_add_owned (h : s.Accounts (held.take .mapicon prop.mapicon.toList)) :
    wp (add prop) (fun _ => Accounts held) (fun _ _ => False) s := by
  rw [add, wp_bind, wp_gets, wp_ite, id_eq]
  split
  case isTrue =>
    rw [wp_bind]
    exact wp_mono (Property.wp_destruct_owned h) (fun _ _ ht => ht.1.accounts ht.2)
      (fun _ _ hf => hf)
  case isFalse hnew =>
    have hin : Map.gather (·.mapicon) (s.properties.insert prop.item.uniqueid prop) =
        prop.mapicon.toList ++ s.icons := Map.gather_insert hnew
    exact h.store onlyItems_properties rfl (.of_eq hin)

/-- The properties of a list are destroyed one after the other. -/
theorem wp_destructAll_owned {members : List Property}
    (h : s.AccountsWith icons (held.take .mapicon (members.filterMap (·.mapicon)))) :
    wp (forEach Property.destruct members)
      (fun _ t => t.AccountsWith icons held ∧ t.properties = s.properties) (fun _ _ => False) s := by
  induction members generalizing s with
  | nil => exact ⟨by rwa [List.filterMap_nil, InHand.take_nil] at h, rfl⟩
  | cons prop members ih =>
    rw [Map.filterMap_cons_eq, InHand.take_append] at h
    rw [forEach, wp_bind]
    refine wp_mono (Property.wp_destruct_owned h) (fun _ t ht => ?_) (fun _ _ hf => hf)
    exact wp_mono (ih ht.1) (fun _ _ hu => ⟨hu.1, hu.2.trans ht.2⟩) (fun _ _ hf => hf)

/-- The properties that are taken out of the registry are destroyed. -/
theorem wp_release_owned {members : List Property} {properties : Map OID Property}
    (h : s.Accounts held) (hperm : s.icons.Perm (members.filterMap (·.mapicon) ++
      properties.gather (·.mapicon))) :
    wp (forEach Property.destruct members) (fun _ => Accounts held) (fun _ _ => False)
      { s with properties := properties } := by
  refine wp_mono (wp_destructAll_owned (h.release onlyItems_properties rfl hperm))
    (fun _ t ht => ?_) (fun _ _ hf => hf)
  exact AccountsWith.accounts (s := { s with properties := properties }) ht.1 ht.2

instance : Keeps (Accounts held) (remove o) := by
  refine keeps_of_wp fun s h => ?_
  rw [remove, wp_bind, wp_gets, wp_bind, wp_modify]
  refine wp_mono (wp_release_owned h ?_) (fun _ _ ht => ht) (fun _ _ hf => hf.elim)
  cases hprop : s.properties.lookup o with
  | none =>
    have hsame : s.properties.erase o = s.properties :=
      Map.erase_of_notMem (AList.lookup_eq_none.mp hprop)
    rw [hsame]
    exact .refl _
  | some prop =>
    rw [Option.toList_some, Map.filterMap_cons_eq, List.filterMap_nil, List.append_nil]
    exact Map.gather_erase hprop

instance : Keeps (Accounts held) clear := by
  refine keeps_of_wp fun s h => ?_
  rw [clear, wp_bind, wp_gets, wp_bind, wp_modify]
  refine wp_mono (wp_release_owned h ?_) (fun _ _ ht => ht) (fun _ _ hf => hf.elim)
  rw [Map.gather_empty, List.append_nil]
  exact .refl _

instance : Keeps (Accounts held) loadAllFromDatabase := by
  have hload : ∀ doc, Keeps (Accounts held) (do
      let prop ← Property.ofData doc
      let _ ← add prop
      pure ()) := fun doc => keeps_of_wp fun s h => by
    rw [wp_bind]
    refine wp_mono (Property.wp_ofData_owned h) (fun prop t ht => ?_) (fun _ _ he => he)
    rw [wp_bind]
    exact wp_mono (wp_add_owned ht) (fun _ _ hu => hu) (fun _ _ hf => hf.elim)
  unfold loadAllFromDatabase
  infer_instance

end PropertyManager

/-! ## Profiles and the objects of engineers -/

section Objects
open Server
variable {s : Server} {held : InHand} {p id : ℤ} {pr : Profile}

theorem onlyItems_objects {icons : List ℤ} {profiles : Map ℤ Profile} {ids : List ℤ} :
    OnlyItems .object icons icons s
      { s with profiles := profiles, streamer := { s.streamer with objects := ids } } := by
  constructor <;> first
    | rfl
    | (intro j hj; cases j <;> first | rfl | exact absurd rfl hj)

/-- Objects go from profiles into the hand. -/
theorem release_profiles {ids : List ℤ} {profiles : Map ℤ Profile} (h : s.Accounts held)
    (hperm : (s.profiles.gather Profile.object).Perm (ids ++ profiles.gather Profile.object)) :
    Accounts (held.take .object ids) { s with profiles := profiles } :=
  (AccountsWith.release (t := { s with profiles := profiles }) h
    onlyItems_objects rfl hperm).accounts rfl

/-- Objects go from the hand to profiles. -/
theorem store_profiles {ids : List ℤ} {profiles : Map ℤ Profile}
    (h : s.Accounts (held.take .object ids))
    (hperm : (profiles.gather Profile.object).Perm (ids ++ s.profiles.gather Profile.object)) :
    Accounts held { s with profiles := profiles } :=
  (AccountsWith.store (t := { s with profiles := profiles }) h
    onlyItems_objects rfl hperm).accounts rfl

theorem wp_createDynamicObject_owned (h : s.Accounts held) :
    wp createDynamicObject (fun id t => t.Accounts (held.take .object [id]) ∧
      t.profiles = s.profiles) (fun _ _ => False) s :=
  ⟨(AccountsWith.create h onlyItems_objects (h.fresh.streamer _) rfl rfl).accounts rfl, rfl⟩

/-- The object of a role goes, if there is one. -/
theorem wp_destroyObject_owned {obj : Option ℤ}
    (h : s.Accounts (held.take .object obj.toList)) :
    wp (forEach destroyDynamicObject obj.toList) (fun _ => Accounts held) (fun _ _ => False) s := by
  cases obj with
  | none => rwa [Option.toList_none, InHand.take_nil] at h
  | some obj => exact (AccountsWith.destroy h onlyItems_objects rfl rfl).accounts rfl

/-- A profile changes: the object it held comes into the hand, and one goes from the hand to it. -/
theorem exchange_profile {f : Profile → Profile} (hpr : s.profiles.lookup p = some pr)
    (h : s.Accounts (held.take .object (f pr).object.toList)) :
    Accounts (held.take .object pr.object.toList) { s with profiles := s.profiles.adjust p f } := by
  have hperm : ((f pr).object.toList ++ s.profiles.gather Profile.object).Perm
      (pr.object.toList ++ (s.profiles.adjust p f).gather Profile.object) :=
    ((Map.gather_erase hpr).append_left _).trans ((List.perm_append_comm_assoc ..).trans
      ((Map.gather_adjust hpr).symm.append_left _))
  exact (AccountsWith.exchange (t := { s with profiles := s.profiles.adjust p f }) h
    onlyItems_objects rfl hperm).accounts rfl

/-- A write to a profile that leaves its object alone. -/
theorem accounts_adjustProfile {f : Profile → Profile} (hf : ∀ q, (f q).object = q.object)
    (h : s.Accounts held) : Accounts held { s with profiles := s.profiles.adjust p f } :=
  by
  have hnothing : s.Accounts (held.take .object []) := by rwa [InHand.take_nil]
  exact store_profiles hnothing (.of_eq (Map.gather_adjust_same hf))

end Objects

namespace Profile
open Server
variable {s : Server} {held : InHand} {p : ℤ} {pr : Profile} {role : Role}

/-- A new role holds no object, and that of the old one goes. -/
theorem keeps_setRole_owned (hrole : role.obj = none) : Keeps (Accounts held) (setRole p role) :=
  keeps_of_wp fun s h => by
    simp only [setRole, ref, modifyRole, wp_bind, wp_gets, wp_orUndefined, wp_modify]
    intro pr hpr
    have hold := exchange_profile (f := fun q => { q with role := some role }) hpr
      (by simpa [object, hrole, InHand.take_nil] using h)
    exact wp_mono (wp_destroyObject_owned hold) (fun _ _ ht => ht) (fun _ _ hf => hf.elim)

theorem wp_loadMemberData_role :
    wp loadMemberData (fun _ q => q.1.role = pr.role) (fun _ _ => True) (pr, s) := by
  simp only [loadMemberData, rethrowAs, check, wp_handle, wp_bind, wp_self, wp_shared, wp_gets,
    wp_orRaise, wp_assign, wp_ite, wp_raise, ite_self, implies_true, and_true]

/-- A constructed profile has no role yet. -/
theorem wp_construct_owned {logname : Text} (h : s.Accounts held) :
    wp (construct logname) (fun pr t => pr.role = none ∧ t.Accounts held) (fun _ => Accounts held)
      s := by
  refine wp_mono (wp_and (Q := fun pr _ => pr.role = none) (E := fun _ _ => True) ?_
    (keeps_accounts.wp_of_keeps h)) (fun _ _ ht => ht) (fun _ _ he => he.2)
  simp only [construct, allocate, wp_bind, wp_gets]
  refine wp_mono (wp_true _) (fun item t _ => ?_) (fun _ _ _ => trivial)
  split
  · rfl
  · simpa using wp_loadMemberData_role

theorem wp_destruct_owned (h : s.Accounts (held.take .object pr.object.toList)) :
    wp pr.destruct (fun _ => Accounts held) (fun _ _ => False) s := by
  have htimer : wp (when (pr.auth.autosavetimer ≠ 0) (destroyTimer pr.auth.autosavetimer))
      (fun _ => Accounts (held.take .object pr.object.toList)) (fun _ _ => False) s := by
    rw [wp_when]
    split
    case isTrue => exact ⟨h.fresh, h.each⟩
    case isFalse => exact h
  rw [destruct, wp_bind]
  exact wp_mono htimer (fun _ _ ht => wp_destroyObject_owned ht) (fun _ _ hf => hf)

end Profile

section ProfileMgr
open Server
variable {held : InHand} {p : ℤ}

instance : Keeps (Accounts held) (profileMgrAdd p) := by
  refine keeps_of_wp fun s h => ?_
  rw [profileMgrAdd, wp_bind, wp_gets, wp_bind]
  refine wp_mono (Profile.wp_construct_owned h) (fun pr t ht => ?_) (fun _ _ he => he)
  obtain ⟨hrole, ht⟩ := ht
  have hnothing : pr.object.toList = [] := by rw [Profile.object, hrole]; rfl
  rw [wp_bind, wp_gets, wp_ite, id_eq]
  split
  case isTrue =>
    rw [wp_bind]
    refine wp_mono (Profile.wp_destruct_owned ?_) (fun _ _ hu => hu)
      (fun _ _ hf => hf.elim)
    rwa [hnothing, InHand.take_nil]
  case isFalse hnew =>
    have hempty : Accounts (held.take .object []) t := by rwa [InHand.take_nil]
    refine store_profiles hempty (.of_eq ?_)
    rw [Map.gather_insert hnew, hnothing]

instance : Keeps (Accounts held) (profileMgrRemove p) := by
  refine keeps_of_wp fun s h => ?_
  rw [profileMgrRemove, wp_bind, wp_gets, wp_bind, wp_modify]
  cases hpr : s.profiles.lookup p with
  | none =>
    have hsame : s.profiles.erase p = s.profiles :=
      Map.erase_of_notMem (AList.lookup_eq_none.mp hpr)
    rw [hsame]
    exact h
  | some pr =>
    rw [Option.toList_some, forEach, wp_bind]
    exact wp_mono (Profile.wp_destruct_owned (release_profiles h (Map.gather_erase hpr)))
      (fun _ _ ht => ht) (fun _ _ hf => hf.elim)

end ProfileMgr

namespace Role
open Server
variable {s : Server} {held : InHand} {p target : ℤ} {pr : Profile} {r : Role}

instance : Keeps (Accounts held) (recordUse p) := by
  have hrole : ∀ now, Keeps (Accounts held)
      (Profile.modifyRole p fun q => q.role.map fun r => { r with skilllastuse := now }) :=
    fun now => keeps_of_wp fun s h => accounts_adjustProfile (fun q => by
      rw [Profile.object, Option.bind_map]
      rfl) h
  unfold recordUse
  infer_instance

/-- The object of a role is exchanged for what is in hand. -/
theorem wp_resetObject_owned {obj : Option ℤ}
    (hrole : ∀ pr, s.profiles.lookup p = some pr → pr.role = none → obj = none)
    (h : s.Accounts (held.take .object obj.toList)) :
    wp (resetObject p obj) (fun _ => Accounts held) (fun _ _ => False) s := by
  simp only [resetObject, Profile.ref, Profile.modifyRole, wp_bind, wp_gets, wp_orUndefined,
    wp_modify]
  intro pr hpr
  have hnew : (pr.role.map fun r => { r with obj := obj }).bind (·.obj) = obj := by
    cases hr : pr.role with
    | none => exact (hrole pr hpr hr).symm
    | some r => rfl
  have hold := exchange_profile
    (f := fun q => { q with role := q.role.map fun r => { r with obj := obj } }) hpr
    (by rwa [Profile.object, hnew])
  exact wp_mono (wp_destroyObject_owned hold) (fun _ _ ht => ht) (fun _ _ hf => hf)

/-- The object of an engineer goes when the engineer dies. -/
instance : Keeps (Accounts held) (r.onDeath p) := by
  have hreset : Keeps (Accounts held) (resetObject p none) := keeps_of_wp fun s h =>
    wp_mono (wp_resetObject_owned (fun _ _ _ => rfl) (by rwa [Option.toList_none, InHand.take_nil]))
      (fun _ _ ht => ht) (fun _ _ hf => hf.elim)
  unfold onDeath
  infer_instance

/-- The object an engineer builds replaces the one built before. -/
theorem wp_skill_owned (hrole : ∀ pr, s.profiles.lookup p = some pr → pr.role.isSome)
    (h : s.Accounts held) :
    wp (r.skill p target) (fun _ => Accounts held) (fun _ => Accounts held) s := by
  rw [skill]
  split
  case h_4 =>
    simp only [generateDirectionalPoint, wp_bind, wp_gets, wp_raiseIf, wp_orRaise]
    split
    · exact h
    refine ⟨fun _ _ => ?_, fun _ => h⟩
    refine wp_mono (wp_createDynamicObject_owned h) (fun obj t ht => ?_) (fun _ _ hf => hf.elim)
    refine wp_mono (wp_resetObject_owned (fun pr hpr hnone => ?_) ht.1) (fun _ _ hu => hu)
      (fun _ _ hf => hf.elim)
    have hsome := hrole pr (ht.2 ▸ hpr)
    rw [hnone] at hsome
    cases hsome
  all_goals exact keeps_accounts.wp_of_keeps h

end Role

/-! ## The callbacks -/

section Callbacks
set_option synthInstance.maxSize 3000
open Server
variable {held : InHand} {p : ℤ}

/-- The key that uses a skill. -/
instance : Keeps (Accounts held) (useSkill p) := by
  refine keeps_of_wp fun s h => ?_
  simp only [useSkill, Profile.getRole, Profile.ref, skillTarget, profileMgr, getItem,
    Role.performSpecialSkill, wp_bind, wp_gets, wp_orUndefined, wp_orRaise, wp_raiseIf, wp_ite,
    wp_pure]
  refine fun pr hpr => ⟨fun role hrole => ?_, fun _ => h⟩
  have hsome : ∀ q, s.profiles.lookup p = some q → q.role.isSome := by
    rintro q hq
    obtain rfl := Option.some.inj (hpr.symm.trans hq)
    exact Option.isSome_of_eq_some hrole
  have hskill : ∀ target, wp (role.skill p target) (fun _ t => wp (Role.recordUse p)
      (fun _ t => wp (sendClientMessage p .skillPerformed) (fun _ => Accounts held)
        (fun _ => Accounts held) t) (fun _ => Accounts held) t) (fun _ => Accounts held) s :=
    fun target => wp_mono (Role.wp_skill_owned hsome h)
      (fun _ t ht => wp_mono (Within.wp_of_keeps inferInstance ht)
        (fun _ u hu => keeps_accounts.wp_of_keeps hu) (fun _ _ he => he)) (fun _ _ he => he)
  split
  · exact h
  split
  · split
    · exact h
    · exact ⟨fun _ _ => hskill _, fun _ => h⟩
  · exact hskill p

instance {w : ℤ × ℤ} : Keeps (Accounts held) (dropWeapon w) := by
  unfold dropWeapon
  infer_instance

/-- The pickup of a streak is in hand, and no registry gets it. -/
theorem wp_streakReward_owned {s : Server} {kills : ℤ} (h : s.Accounts held) :
    wp (streakReward kills) (fun reward t => t.Accounts (held.take .pickup
      (reward.map (·.id)).toList)) (fun _ => Accounts held) s := by
  have hpickup : ∀ cls, wp (some <$> PickupManager.create true cls) (fun reward t =>
      t.Accounts (held.take .pickup (reward.map (·.id)).toList)) (fun _ => Accounts held) s :=
    fun cls => by
      rw [wp_map]
      exact wp_mono (PickupManager.wp_create_owned h) (fun _ _ ht => ht.1.accounts ht.2)
        (fun _ _ hf => hf.elim)
  simp only [streakReward, configFloat, configInt, wp_ite, wp_bind, wp_gets, wp_orRaise, wp_pure]
  split
  · rwa [Option.map_none, Option.toList_none, InHand.take_nil]
  split
  · exact ⟨fun _ _ => hpickup _, fun _ => h⟩
  split
  · exact hpickup _
  split
  · exact ⟨fun _ _ => ⟨fun _ _ => hpickup _, fun _ => h⟩, fun _ => h⟩
  · exact hpickup _

/-- The pickup of a streak is destroyed when the reward is over. -/
theorem wp_destroyReward_owned {s : Server} {reward : Option EffectiveItem}
    (h : s.Accounts (held.take .pickup (reward.map (·.id)).toList)) :
    wp (forEach PickupManager.destruct reward.toList) (fun _ => Accounts held)
      (fun _ => Accounts held) s := by
  cases reward with
  | none => rwa [Option.map_none, Option.toList_none, InHand.take_nil] at h
  | some item =>
    rw [Option.toList_some, forEach, wp_bind]
    exact wp_mono (PickupManager.wp_destruct_owned h) (fun _ _ ht => ht.1.accounts ht.2)
      (fun _ _ hf => hf.elim)

instance {killerid : ℤ} : Keeps (Accounts held) (rewardKiller p killerid) := by
  have hreport : ∀ kills, Keeps (Accounts held) (do
      let reward ← streakReward kills
      ensure (reportKill p killerid kills) (forEach PickupManager.destruct reward.toList)) := by
    refine fun kills => keeps_of_wp fun s h => ?_
    rw [wp_bind]
    refine wp_mono (wp_streakReward_owned h) (fun reward t ht => ?_) (fun _ _ he => he)
    rw [wp_ensure]
    exact wp_mono (keeps_accounts.wp_of_keeps ht) (fun _ _ hu => wp_destroyReward_owned hu)
      (fun _ _ hu => wp_destroyReward_owned hu)
  unfold rewardKiller
  infer_instance

instance {killerid : ℤ} : Keeps (Accounts held) (playerDeath p killerid) := by
  unfold playerDeath
  infer_instance

instance {z : ℤ} : Keeps (Accounts held) (GangZoneItem.redraw z) := by
  unfold GangZoneItem.redraw
  infer_instance

instance {z : ℤ} {causedbytimeout : Bool} :
    Keeps (Accounts held) (GangZoneItem.endWar z causedbytimeout) := by
  unfold GangZoneItem.endWar
  infer_instance

instance {z : ℤ} {zone : GangZoneItem} {attacker : OID} :
    Keeps (Accounts held) (GangZoneItem.beginWar z zone attacker) := by
  have htimer : ∀ c k, c.target = .zone →
      Keeps (Accounts held) (GangZoneItem.createWarTimer c k) := fun c k hc =>
    keeps_accounts_around (GangZoneItem.stays_createWarTimer hc)
  have hend : ∀ a k, Keeps (Accounts held) (GangZoneItem.createWarTimer (.endTurfWar a) k) :=
    fun a k => htimer _ _ rfl
  have htimeout : ∀ a k,
      Keeps (Accounts held) (GangZoneItem.createWarTimer (.turfWarWaitTimeout a) k) :=
    fun a k => htimer _ _ rfl
  unfold GangZoneItem.beginWar
  infer_instance

instance {z : ℤ} : Keeps (Accounts held) (PickupClass.triggerTurfWar z p) := by
  unfold PickupClass.triggerTurfWar GangZoneItem.startWar
  infer_instance

instance {itemid : ℤ} : Keeps (Accounts held) (PickupManager.exec p itemid) := by
  have heffect : ∀ cls : PickupClass, Keeps (Accounts held) (cls.effect p) := by
    intro cls
    cases cls <;> unfold PickupClass.effect <;> infer_instance
  unfold PickupManager.exec
  infer_instance

instance {waypoint : OID} {pos : Coordinate3D} :
    Keeps (Accounts held) (createTeleportTrigger waypoint pos) := by
  unfold createTeleportTrigger
  infer_instance

instance : Keeps (Accounts held) loadAllTeleportTriggerFromDatabase := by
  unfold loadAllTeleportTriggerFromDatabase
  infer_instance

instance : Keeps (Accounts held) loadGameMode := by
  have hteams : Keeps (Accounts held) TeamManager.loadAllFromDatabase :=
    keeps_accounts_of_stays (K := [.output, .database, .teamIds, .insertTeam, .clearTeams,
      .reload .team]) inferInstance (by simp [Kind.keepsItems])
  have hweather : Keeps (Accounts held) (createTimer .changeWeather 300000 true) :=
    keeps_accounts_around (stays_createTimer .nothing rfl)
  have htime : Keeps (Accounts held) (createTimer .changeTime 60000 true) :=
    keeps_accounts_around (stays_createTimer .nothing rfl)
  unfold loadGameMode
  infer_instance

instance : Keeps (Accounts held) (connectPlayer p) := by
  have hteam : Keeps (Accounts held) (setPlayerTeam p noTeam) :=
    keeps_accounts_of_stays (K := [.output, .sampTeam p]) inferInstance (by simp [Kind.keepsItems])
  unfold connectPlayer startSession
  infer_instance

instance {reason : ℤ} : Keeps (Accounts held) (disconnectPlayer p reason) := by
  have hleave : Keeps (Accounts held) (leaveTeam p) :=
    keeps_accounts_of_stays (K := [.output, .sampTeam p, .profileTeam, .teamRoster]) inferInstance
      (by simp [Kind.keepsItems])
  unfold disconnectPlayer endSession
  infer_instance

/-- A new zone goes from the hand into the registry. -/
instance {data : GangZoneCreationInfo} : Keeps (Accounts held) (Dialog.finishCreation p data) := by
  have hcreate : ∀ (o sp : OID), Keeps (Accounts held) (do
      let zone ← GangZoneItem.ofNew data.name o (Dialog.lowerCorner data) (Dialog.upperCorner data)
        sp data.trigger
      let _ ← GangZoneManager.add zone
      Profile.delVar p fun v => { v with gzCreate := none }
      sendClientMessage p .zoneCreated) := fun o sp => keeps_of_wp fun s h => by
    rw [wp_bind]
    refine wp_mono (GangZoneItem.wp_ofNew_owned h) (fun zone t ht => ?_) (fun _ _ he => he)
    rw [wp_bind]
    exact wp_mono (GangZoneManager.wp_add_owned ht)
      (fun _ _ hu => keeps_accounts.wp_of_keeps hu) (fun _ _ hf => hf.elim)
  unfold Dialog.finishCreation
  infer_instance

/-- A new property goes from the hand into the registry. -/
theorem keeps_ofNew_add {name : Text} {pos : Coordinate3D} {profit value : ℤ} :
    Keeps (Accounts held) (do
      let prop ← Property.ofNew name pos profit value
      let _ ← PropertyManager.add prop
      pure ()) := keeps_of_wp fun s h => by
  rw [wp_bind]
  refine wp_mono (Property.wp_ofNew_owned h) (fun prop t ht => ?_) (fun _ _ he => he)
  rw [wp_bind]
  exact wp_mono (PropertyManager.wp_add_owned ht) (fun _ _ hu => hu) (fun _ _ hf => hf.elim)

/-- A role that is chosen starts without an object. -/
theorem roleOf_obj {listitem : ℤ} {role : Role} (h : Dialog.roleOf listitem = some role) :
    role.obj = none := by
  unfold Dialog.roleOf at h
  split at h <;> cases h <;> rfl

/-- Every handler of a dialog keeps the account. -/
theorem keeps_accounts_callback (listitem : ℤ) (inputtext : Text) (d : DialogId) :
    Keeps (Accounts held) (Dialog.callback p listitem inputtext d) := by
  have hteams : Keeps (Accounts held) TeamManager.loadAllFromDatabase :=
    keeps_accounts_of_stays (K := [.output, .database, .teamIds, .insertTeam, .clearTeams,
      .reload .team]) inferInstance (by simp [Kind.keepsItems])
  have hconfig : Keeps (Accounts held) reloadConfig :=
    keeps_accounts_of_stays (K := [.output, .config, .readConfig]) inferInstance
      (by simp [Kind.keepsItems])
  have hnew := @keeps_ofNew_add held
  by_cases hd : ∀ k ∈ Dialog.footprint p d, k.keepsItems = true
  · exact keeps_accounts_of_stays (Dialog.stays_callback p listitem inputtext d) hd
  cases d
  case propertyCreateProfit =>
    change Keeps _ (Dialog.propertyCreateProfit p inputtext)
    unfold Dialog.propertyCreateProfit Dialog.modifyPropertyCreation
    infer_instance
  case propertySold =>
    change Keeps _ (Dialog.propertySold p listitem)
    unfold Dialog.propertySold
    refine within_bind (j := fun o => within_bind (j := fun _ => ?_))
    split <;> infer_instance
  case propertyOnSale =>
    change Keeps _ (Dialog.propertyOnSale p)
    unfold Dialog.propertyOnSale
    infer_instance
  case serverMain =>
    change Keeps _ (Dialog.serverMain listitem)
    unfold Dialog.serverMain
    split <;> infer_instance
  case teleportCreateTrigger =>
    change Keeps _ (Dialog.teleportCreateTrigger p inputtext)
    unfold Dialog.teleportCreateTrigger
    infer_instance
  case gangZoneCreateProcess =>
    change Keeps _ (Dialog.gangZoneCreateProcess p listitem)
    unfold Dialog.gangZoneCreateProcess Dialog.modifyCreation
    refine within_bind (j := fun o => within_bind (j := fun _ => ?_))
    split <;> infer_instance
  case gangZoneRemove =>
    change Keeps _ (Dialog.gangZoneRemove p inputtext)
    unfold Dialog.gangZoneRemove scanZone
    infer_instance
  case roleSelect =>
    change Keeps _ (Dialog.roleSelect p listitem)
    have hset : Keeps (Accounts held) (forEach (Profile.setRole p) (Dialog.roleOf listitem).toList) := by
      cases hrole : Dialog.roleOf listitem with
      | none => exact within_pure _
      | some role =>
        have hset := @Profile.keeps_setRole_owned held p _ (roleOf_obj hrole)
        rw [Option.toList_some, forEach, forEach]
        infer_instance
    unfold Dialog.roleSelect
    infer_instance
  all_goals exact absurd (by simp [Dialog.footprint, Kind.keepsItems]) hd

/-- The lines of an imported file become properties. -/
theorem keeps_accounts_importProperty {cmdline : Text} :
    Keeps (Accounts held) (Command.importProperty cmdline) := by
  have himport : ∀ platform line pos, Keeps (Accounts held) (Command.importAt platform line pos) := by
    have hnew := @keeps_ofNew_add held
    intro platform line pos
    unfold Command.importAt
    infer_instance
  have hline : ∀ line, Keeps (Accounts held) (Command.importLine line) := by
    intro line
    unfold Command.importLine
    infer_instance
  unfold Command.importProperty
  infer_instance

/-- The callback of every timer keeps the account. -/
theorem keeps_accounts_timerCallback (c : TimerCallback) : Keeps (Accounts held) c.run := by
  by_cases hc : ∀ k ∈ c.footprint, k.keepsItems = true
  · exact keeps_accounts_of_stays c.stays_run hc
  cases c
  case endTurfWar => unfold TimerCallback.run; infer_instance
  case turfWarWaitTimeout => unfold TimerCallback.run; infer_instance
  all_goals exact absurd (by simp [TimerCallback.footprint, Kind.keepsItems]) hc

/-- Every event keeps the account. -/
theorem keeps_accounts_event (e : Event) : Keeps (Accounts held) e.run := by
  have hout : ∀ a b, Kind.output.change a b → a.Accounts held → b.Accounts held :=
    fun _ _ h ha => Kind.accounts h rfl ha
  by_cases he : ∀ k ∈ e.footprint, k.keepsItems = true
  · exact keeps_accounts_of_stays e.stays_run he
  cases e
  case gameModeInit =>
    exact keeps_of_wp fun s h => wp_gameModeInit hout h fun u hu =>
      Within.wp_of_keeps inferInstance hu
  case playerConnect p =>
    change Keeps _ (discard (onPlayerConnect p))
    unfold discard onPlayerConnect
    infer_instance
  case playerDisconnect p reason =>
    change Keeps _ (discard (onPlayerDisconnect p reason))
    unfold discard onPlayerDisconnect
    infer_instance
  case playerCommandText p cmdtext =>
    refine keeps_of_wp fun s h => wp_commandText hout h fun pr cmd line c _ _ _ _ => ?_
    by_cases hc : ∀ k ∈ Command.footprint c, k.keepsItems = true
    · exact (keeps_accounts_of_stays (Command.stays_run p line c) hc).wp_of_keeps h
    cases c
    case importProperty => exact keeps_accounts_importProperty.wp_of_keeps h
    all_goals exact absurd (by simp [Command.footprint, Kind.keepsItems]) hc
  case playerKeyStateChange p newkeys oldkeys =>
    change Keeps _ (discard (onPlayerKeyStateChange p newkeys oldkeys))
    unfold discard onPlayerKeyStateChange reported
    infer_instance
  case dialogResponse p dialogid response listitem inputtext =>
    exact keeps_of_wp fun s h => wp_dialogResponse hout h fun _ d _ _ _ =>
      (keeps_accounts_callback listitem inputtext d).wp_of_keeps h
  case playerDeath p killerid reason =>
    change Keeps _ (discard (onPlayerDeath p killerid reason))
    unfold discard onPlayerDeath reported
    infer_instance
  case playerSpawn p =>
    change Keeps _ (discard (onPlayerSpawn p))
    unfold discard onPlayerSpawn reported
    infer_instance
  case pickUpPickup p =>
    change Keeps _ (discard (onPlayerPickUpPickup p))
    unfold discard onPlayerPickUpPickup reported
    infer_instance
  case timer handle =>
    refine keeps_of_wp fun s h => wp_fireTimer.mpr ⟨fun _ => h, fun tm _ => ?_⟩
    have hrearmed : (s.rearmed tm).Accounts held := by
      obtain ⟨timers, heq⟩ := s.rearmed_eq tm
      exact heq ▸ ⟨h.fresh, h.each⟩
    exact (keeps_accounts_timerCallback tm.callback).wp_of_keeps hrearmed
  all_goals exact absurd (by simp [Event.footprint, Kind.keepsItems]) he

end Callbacks

/-! ## Runs -/

namespace Server
variable {s t : Server} {e : Event} {env : Env}

/-- Every live item is held by one object of a manager. -/
def ItemsOwned (s : Server) : Prop := ∀ k, (s.live k).Nodup ∧ (s.live k).Perm (s.owned k)

theorem Accounts.itemsOwned (h : s.Accounts fun _ => []) : s.ItemsOwned :=
  fun k => ⟨(h.each k).nodup, (h.each k).perm⟩

/-- No item is live before the gamemode starts. -/
theorem accounts_initial {platform : Platform} {config : Config}
    {docs : Collection → List Document} (hfresh : platform.IdsAreNew) :
    (initial platform config docs).Accounts fun _ => [] :=
  ⟨hfresh, fun k => by cases k <;> exact ⟨List.nodup_nil, .refl _⟩⟩

theorem step_accounts (hs : s.Accounts fun _ => []) (h : s.step (e, env) = some t) :
    t.Accounts fun _ => [] :=
  of_step h ((keeps_accounts_event e).wp_of_keeps ⟨hs.fresh, hs.each⟩)

end Server

/-- In a run of events, every live pickup, area, map icon, object and rectangle belongs to exactly
one object that a manager keeps, and each of these objects holds a live one. -/
theorem items_owned (platform : Platform) (config : Config) (docs : Collection → List Document)
    (is : List (Event × Env)) (hfresh : platform.IdsAreNew) :
    Run.AllSteps Server.step (fun _ _ t => t.ItemsOwned)
      (Server.initial platform config docs) is :=
  .of_step (I := fun s => s.Accounts fun _ => []) (fun _ _ _ hs ht =>
    have hacc := Server.step_accounts hs ht
    ⟨hacc.itemsOwned, hacc⟩) (Server.accounts_initial hfresh) is

namespace Demo

/-- An engineer builds an object, and later another one. -/
def engineer : List (Event × Env) :=
  quietly [.gameModeInit, .playerConnect 0, .dialogResponse 0 29 1 3 []] ++
    [(.playerKeyStateChange 0 131072 0, { env with time := 1000 }),
      (.playerKeyStateChange 0 131072 0, { env with time := 2000 })]

end Demo

/-- The second object took the place of the first one. -/
theorem items_owned_engineer :
    Run.AllSteps Server.step (fun _ _ t => t.ItemsOwned)
      (Server.initial Demo.newIds Demo.config Demo.docs) Demo.engineer ∧
    ((Run.final Server.step (Server.initial Demo.newIds Demo.config Demo.docs) Demo.engineer).map
      fun t => t.streamer.objects.length) = some 1 :=
  ⟨items_owned Demo.newIds Demo.config Demo.docs Demo.engineer Demo.newIds_new, by decide +kernel⟩

end FreshCity
