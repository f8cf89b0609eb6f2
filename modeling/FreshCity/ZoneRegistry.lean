import FreshCity.Imperative.Run
import FreshCity.Imperative.Tags
import FreshCity.ZoneColours

/-!
# Zones, their areas and their triggers

A zone's constructors hand an area and a trigger to two other managers, and its
destructor takes them back. The constructor that is given a document places them before
it reads the owner's data: if that throws, the zone is gone and they stay.
-/
namespace FreshCity
open Imperative Prog Run

/-! ## Places -/

/-- The zone a pickup is the trigger of. -/
def EffectiveItem.zone? (item : EffectiveItem) : Option ℤ :=
  match item.cls with
  | .turfWarTrigger z => some z
  | _ => none

theorem EffectiveItem.zone?_eq_some {item : EffectiveItem} {z : ℤ} :
    item.zone? = some z ↔ item.cls = .turfWarTrigger z := by
  rw [EffectiveItem.zone?]
  cases item.cls <;> simp

/-- The zone an area is of. -/
def GangZoneArea.zone? (area : GangZoneArea) : Option ℤ := some area.zoneid

/-- An id that SA-MP or the streamer gives out is none of a live item. -/
structure Platform.IdsAreNew (platform : Platform) : Prop where
  streamer : ∀ ids, platform.streamerId ids ∉ ids
  zones : ∀ ids, platform.gangZoneId ids ∉ ids

namespace Server

/-- The registered areas and pickups are known by their ids, and these are live. -/
structure PlacesLive (s : Server) : Prop where
  fresh : s.platform.IdsAreNew
  areas : Live GangZoneArea.id s.areas s.streamer.areas
  pickups : Live EffectiveItem.id s.pickups s.streamer.pickups

/-- Only the places and what the streamer shows differ. -/
structure Rearranged (s t : Server) (areas : Map ℤ GangZoneArea) (pickups : Map ℤ EffectiveItem) :
    Prop where
  rest : ∃ streamer, t = { s with streamer := streamer, areas := areas, pickups := pickups }
  live : t.PlacesLive

variable {s t u : Server} {areas areas' : Map ℤ GangZoneArea}
  {pickups pickups' : Map ℤ EffectiveItem}

theorem Rearranged.areas_eq (h : s.Rearranged t areas pickups) : t.areas = areas := by
  obtain ⟨⟨_, rfl⟩, -⟩ := h
  rfl

theorem Rearranged.pickups_eq (h : s.Rearranged t areas pickups) : t.pickups = pickups := by
  obtain ⟨⟨_, rfl⟩, -⟩ := h
  rfl

theorem Rearranged.trans (h : s.Rearranged t areas pickups) (h' : t.Rearranged u areas' pickups') :
    s.Rearranged u areas' pickups' := by
  obtain ⟨⟨_, rfl⟩, -⟩ := h
  obtain ⟨⟨_, rfl⟩, hlive⟩ := h'
  exact ⟨⟨_, rfl⟩, hlive⟩

end Server

namespace DynamicAreaManager
open Server
variable {s : Server} {id zoneid : ℤ} {area : GangZoneArea}

/-- An area is created, with an id that no registered one has. -/
theorem wp_create (h : s.PlacesLive) : wp (create zoneid)
    (fun area t => area.zoneid = zoneid ∧ t.areas.lookup area.id = none ∧
      area.id ∈ t.streamer.areas ∧ s.Rearranged t s.areas s.pickups)
    (fun _ _ => False) s :=
  ⟨rfl, h.areas.lookup_eq_none (h.fresh.streamer _), List.mem_cons_self .., ⟨_, rfl⟩, h.fresh,
    h.areas.cons _, h.pickups⟩

/-- A new area is taken. -/
theorem wp_add (h : s.PlacesLive) (hnew : s.areas.lookup area.id = none)
    (hlive : area.id ∈ s.streamer.areas) : wp (add area)
      (fun _ t => s.Rearranged t (s.areas.insert area.id area) s.pickups) (fun _ _ => False) s := by
  rw [add, wp_bind, wp_gets, wp_ite, id_eq, if_neg (AList.lookup_eq_none.mp hnew)]
  exact ⟨⟨_, rfl⟩, h.fresh, h.areas.insert hlive, h.pickups⟩

/-- An area leaves the registry and is destroyed, if there is one. -/
theorem wp_remove (h : s.PlacesLive) : wp (remove id)
    (fun _ t => s.Rearranged t (s.areas.erase id) s.pickups) (fun _ _ => False) s := by
  rw [remove, wp_bind, wp_gets, wp_bind, wp_modify]
  cases harea : s.areas.lookup id with
  | none =>
    refine ⟨⟨_, rfl⟩, h.fresh, ?_, h.pickups⟩
    rw [Map.erase_of_notMem (AList.lookup_eq_none.mp harea)]
    exact h.areas
  | some area =>
    obtain rfl : area.id = id := (h.areas id area harea).1
    exact ⟨⟨_, rfl⟩, h.fresh, h.areas.erase _, h.pickups⟩

end DynamicAreaManager

namespace PickupManager
open Server
variable {s : Server} {id : ℤ} {item : EffectiveItem} {disposable : Bool} {cls : PickupClass}

/-- A pickup is created, with an id that no registered one has. -/
theorem wp_create_place (h : s.PlacesLive) : wp (create disposable cls)
    (fun item t => item.cls = cls ∧ t.pickups.lookup item.id = none ∧
      item.id ∈ t.streamer.pickups ∧ s.Rearranged t s.areas s.pickups)
    (fun _ _ => False) s :=
  ⟨rfl, h.pickups.lookup_eq_none (h.fresh.streamer _), List.mem_cons_self .., ⟨_, rfl⟩, h.fresh,
    h.areas, h.pickups.cons _⟩

/-- A new pickup is taken. -/
theorem wp_add_place (h : s.PlacesLive) (hnew : s.pickups.lookup item.id = none)
    (hlive : item.id ∈ s.streamer.pickups) : wp (add item)
      (fun _ t => s.Rearranged t s.areas (s.pickups.insert item.id item)) (fun _ _ => False) s := by
  rw [add, wp_bind, wp_gets, wp_ite, id_eq, if_neg (AList.lookup_eq_none.mp hnew)]
  exact ⟨⟨_, rfl⟩, h.fresh, h.areas, h.pickups.insert hlive⟩

/-- A pickup leaves the registry and is destroyed, if there is one. -/
theorem wp_remove_place (h : s.PlacesLive) : wp (remove id)
    (fun _ t => s.Rearranged t s.areas (s.pickups.erase id)) (fun _ _ => False) s := by
  rw [remove, wp_bind, wp_gets, wp_bind, wp_modify]
  cases hitem : s.pickups.lookup id with
  | none =>
    refine ⟨⟨_, rfl⟩, h.fresh, h.areas, ?_⟩
    rw [Map.erase_of_notMem (AList.lookup_eq_none.mp hitem)]
    exact h.pickups
  | some item =>
    obtain rfl : item.id = id := (h.pickups id item hitem).1
    exact ⟨⟨_, rfl⟩, h.fresh, h.areas, h.pickups.erase _⟩

end PickupManager

/-! ## Zones and their places -/

namespace Server

/-- Every zone has its area and its trigger, and there are no areas and triggers but those. -/
structure ZonesPlaced (s : Server) : Prop where
  areas : ∀ id area, s.areas.lookup id = some area →
    ∃ zone, s.zones.lookup area.zoneid = some zone ∧ zone.areaid = id
  triggers : ∀ id item z, s.pickups.lookup id = some item → item.cls = .turfWarTrigger z →
    ∃ zone, s.zones.lookup z = some zone ∧ zone.triggerid = id
  area : ∀ z zone, s.zones.lookup z = some zone →
    ∃ area, s.areas.lookup zone.areaid = some area ∧ area.zoneid = z
  trigger : ∀ z zone, s.zones.lookup z = some zone →
    ∃ item, s.pickups.lookup zone.triggerid = some item ∧ item.cls = .turfWarTrigger z

/-- Areas and zones agree. -/
abbrev AreasAgree : Map ℤ GangZoneArea → Map ℤ GangZoneItem → Prop :=
  Tagged GangZoneArea.zone? GangZoneItem.areaid fun _ _ _ => True

/-- Triggers and zones agree. -/
abbrev TriggersAgree : Map ℤ EffectiveItem → Map ℤ GangZoneItem → Prop :=
  Tagged EffectiveItem.zone? GangZoneItem.triggerid fun _ _ _ => True

/-- The registered zones are placed, and their ids are live. -/
structure Placed (s : Server) : Prop where
  live : s.PlacesLive
  zones : Live GangZoneItem.zone s.zones s.samp.zones
  areas : AreasAgree s.areas s.zones
  triggers : TriggersAgree s.pickups s.zones

/-- The registries and the ids are the same. -/
structure SamePlaces (s t : Server) : Prop where
  platform : t.platform = s.platform
  streamer : t.streamer = s.streamer
  rectangles : t.samp.zones = s.samp.zones
  areas : t.areas = s.areas
  pickups : t.pickups = s.pickups
  zones : t.zones = s.zones

variable {s t u : Server}

theorem SamePlaces.refl : s.SamePlaces s := ⟨rfl, rfl, rfl, rfl, rfl, rfl⟩

theorem SamePlaces.trans (h : s.SamePlaces t) (h' : t.SamePlaces u) : s.SamePlaces u :=
  ⟨h'.platform.trans h.platform, h'.streamer.trans h.streamer, h'.rectangles.trans h.rectangles,
    h'.areas.trans h.areas, h'.pickups.trans h.pickups, h'.zones.trans h.zones⟩

theorem SamePlaces.live (h : s.SamePlaces t) (hs : s.PlacesLive) : t.PlacesLive where
  fresh := h.platform ▸ hs.fresh
  areas := by
    rw [h.areas, h.streamer]
    exact hs.areas
  pickups := by
    rw [h.pickups, h.streamer]
    exact hs.pickups

theorem SamePlaces.placed (h : s.SamePlaces t) (hs : s.Placed) : t.Placed where
  live := h.live hs.live
  zones := by
    rw [h.zones, h.rectangles]
    exact hs.zones
  areas := by
    rw [h.areas, h.zones]
    exact hs.areas
  triggers := by
    rw [h.pickups, h.zones]
    exact hs.triggers

theorem Placed.zonesPlaced (h : s.Placed) : s.ZonesPlaced where
  areas id area harea := (h.areas.tags id area.zoneid).mp (by rw [harea]; rfl)
  triggers id item z hitem hcls := (h.triggers.tags id z).mp (by
    rw [hitem]
    exact EffectiveItem.zone?_eq_some.mpr hcls)
  area z zone hzone := by
    obtain ⟨area, harea, htag, -⟩ := h.areas.exists_item hzone
    exact ⟨area, harea, Option.some.inj htag⟩
  trigger z zone hzone := by
    obtain ⟨item, hitem, htag, -⟩ := h.triggers.exists_item hzone
    exact ⟨item, hitem, EffectiveItem.zone?_eq_some.mp htag⟩

end Server

/-- The kinds of change that touch neither zones nor places. -/
abbrev aroundPlaces : List Kind := [.output, .database, .counters, .insert .gangzone]

section Around
open Server
variable {s t : Server} {α τ : Type}

theorem Kind.samePlaces {k : Kind} (hk : k ∈ aroundPlaces) (h : k.change s t) : s.SamePlaces t := by
  have hframe := Kind.frame h
  simp only [List.mem_cons, List.not_mem_nil, or_false] at hk
  refine ⟨hframe.platform, hframe.streamer ?_, (hframe.sampZones ?_).1, hframe.areas ?_,
    hframe.pickups ?_, hframe.zones ?_ ?_⟩
  all_goals
    rintro rfl
    simp at hk

theorem wp_around {x : Game α} (hx : Stays aroundPlaces x) :
    wp x (fun _ t => s.SamePlaces t) (fun _ t => s.SamePlaces t) s :=
  hx.invariant (I := fun t => s.SamePlaces t)
    (fun _ hk _ _ hab ha => ha.trans (Kind.samePlaces hk hab)) .refl

theorem wp_method_around {x : Method τ α} (hx : MethodStays aroundPlaces x) {q : τ × Server} :
    wp x (fun _ r => q.2.SamePlaces r.2) (fun _ r => q.2.SamePlaces r.2) q := by
  have hsame : ∀ r : τ × Server, Path Kind.change aroundPlaces q.2 r.2 → q.2.SamePlaces r.2 :=
    fun r hr => hr.invariant (I := fun t => q.2.SamePlaces t)
      (fun _ hk _ _ hab ha => ha.trans (Kind.samePlaces hk hab)) .refl
  exact wp_mono (hx.path q) (fun _ r hr => hsame r (path_of_methodPath hr))
    (fun _ r hr => hsame r (path_of_methodPath hr))

end Around

/-! ## Construction -/

namespace GangZoneItem

/-- Whether `_InitArea` finds its numbers in a document. -/
def areaReadable (doc : Document) : Bool :=
  ([.minx, .miny, .maxx, .maxy].all fun k => ((doc.field? k).bind Bson.asNumber).isSome) &&
    ((doc.field? .trigger).bind asObj).any fun marker =>
      [.x, .y, .z].all fun k => ((Doc.field? marker k).bind Bson.asNumber).isSome

/-- Whether `_LoadOwnerData` finds what it reads in a document, and the owner is registered. -/
def ownerReadable (teams : Map OID Team) (doc : Document) : Bool :=
  ((doc.field? .name).bind Bson.asString).isSome &&
    (((doc.field? .owner).bind Bson.asOid).any fun owner =>
      (teams.lookup ⟨owner⟩).isSome) &&
    ((doc.field? .spawn).bind Bson.asOid).isSome

/-- Whether a zone gets as far as its places, when it is built from a document. -/
def readable (doc : Document) : Bool := (documentId doc).isSome && areaReadable doc

end GangZoneItem

namespace Server

/-- A zone that is constructed and not registered has an area and a trigger of its own. -/
structure Awaits (s : Server) (zone : GangZoneItem) : Prop where
  live : s.PlacesLive
  zones : Live GangZoneItem.zone s.zones s.samp.zones
  rectangle : zone.zone ∈ s.samp.zones
  unused : zone.zone ∉ s.zones
  areas : ∃ (areas : Map ℤ GangZoneArea) (area : GangZoneArea),
    areas.lookup zone.areaid = none ∧ area.zoneid = zone.zone ∧
      s.areas = areas.insert zone.areaid area ∧ AreasAgree areas s.zones
  triggers : ∃ (pickups : Map ℤ EffectiveItem) (item : EffectiveItem),
    pickups.lookup zone.triggerid = none ∧ item.cls = .turfWarTrigger zone.zone ∧
      s.pickups = pickups.insert zone.triggerid item ∧ TriggersAgree pickups s.zones

/-- What loading a zone leaves alone. -/
structure SameLoad (s t : Server) : Prop where
  teams : t.teams = s.teams
  config : t.config = s.config
  database : t.database = s.database

variable {s t : Server} {zone zone' : GangZoneItem}

/-- The area of a zone that is lost is an area of none. -/
theorem Awaits.not_zonesPlaced (h : s.Awaits zone) (hareas : t.areas = s.areas)
    (hzones : t.zones = s.zones) : ¬t.ZonesPlaced := by
  intro hplaced
  obtain ⟨areas, area, -, hzoneid, hall, -⟩ := h.areas
  have hlookup : t.areas.lookup zone.areaid = some area := by
    rw [hareas, hall, Map.lookup_insert_ite, if_pos rfl]
  obtain ⟨zone', hzone', -⟩ := hplaced.areas _ _ hlookup
  rw [hzoneid, hzones] at hzone'
  exact h.unused (Map.mem_iff_lookup.mpr ⟨zone', hzone'⟩)

/-- What the owner's data change does not matter. -/
theorem Awaits.owned (h : s.Awaits zone) (hzone : zone'.zone = zone.zone ∧
    zone'.areaid = zone.areaid ∧ zone'.triggerid = zone.triggerid)
    (ht : ∃ trace color, t = { s with
      trace := trace
      samp := { s.samp with zoneColor := color } }) : t.Awaits zone' := by
  obtain ⟨hid, harea, htrigger⟩ := hzone
  obtain ⟨trace, color, rfl⟩ := ht
  obtain ⟨hlive, hzones, hrect, hunused, hareas, htriggers⟩ := h
  rw [← hid] at hrect hunused hareas htriggers
  rw [← harea] at hareas
  rw [← htrigger] at htriggers
  exact ⟨⟨hlive.fresh, hlive.areas, hlive.pickups⟩, hzones, hrect, hunused, hareas, htriggers⟩

/-- A rectangle that no registered zone has is destroyed. -/
theorem Placed.destroyed {id : ℤ} {color : ℤ → Option ℤ} (h : s.Placed) (hunused : id ∉ s.zones) :
    ({ s with samp := { s.samp with
      zones := s.samp.zones.erase id
      zoneColor := color } } : Server).Placed := by
  have hzones := h.zones.erase id
  rw [Map.erase_of_notMem hunused] at hzones
  exact ⟨⟨h.live.fresh, h.live.areas, h.live.pickups⟩, hzones, h.areas, h.triggers⟩

/-- A zone that is taken is registered with its places. -/
theorem Awaits.register (h : s.Awaits zone) :
    ({ s with zones := s.zones.insert zone.zone zone } : Server).Placed := by
  obtain ⟨areas, area, hfree, hzoneid, hall, hagree⟩ := h.areas
  obtain ⟨pickups, item, hfree', hcls, hall', hagree'⟩ := h.triggers
  refine ⟨⟨h.live.fresh, h.live.areas, h.live.pickups⟩, h.zones.insert h.rectangle, ?_, ?_⟩
  · have hadded := hagree.add (a := area) h.unused hfree (congrArg some hzoneid) trivial
    rwa [← hall] at hadded
  · have hadded := hagree'.add (a := item) h.unused hfree' (EffectiveItem.zone?_eq_some.mpr hcls)
      trivial
    rwa [← hall'] at hadded

end Server

namespace GangZoneItem
open Server
variable {s t : Server} {zone : GangZoneItem} {doc : Document} {item : SaveableItem}

theorem wp_readArea : wp (readArea doc) (fun _ t => t = s ∧ areaReadable doc = true)
    (fun _ t => t = s ∧ areaReadable doc = false) s := by
  simp only [readArea, check, wp_bind, wp_orRaise, wp_pure]
  refine ⟨fun minx hminx => ⟨fun miny hminy => ⟨fun maxx hmaxx => ⟨fun maxy hmaxy =>
    ⟨fun marker hmarker => ⟨fun x hx => ⟨fun y hy => ⟨fun z hz => ?_, fun hnone => ?_⟩,
    fun hnone => ?_⟩, fun hnone => ?_⟩, fun hnone => ?_⟩, fun hnone => ?_⟩, fun hnone => ?_⟩,
    fun hnone => ?_⟩, fun hnone => ?_⟩
  all_goals simp [areaReadable, *]

theorem wp_loadOwnerData : wp loadOwnerData
    (fun _ q => ownerReadable s.teams.members zone.item.rawdata = true ∧
      (q.1.zone = zone.zone ∧ q.1.areaid = zone.areaid ∧ q.1.triggerid = zone.triggerid) ∧
      ∃ trace color, q.2 = { s with trace := trace, samp := { s.samp with zoneColor := color } })
    (fun _ q => ownerReadable s.teams.members zone.item.rawdata = false ∧ q.2 = s) (zone, s) := by
  simp only [loadOwnerData, rethrowAs, check, teamMgr, gangZoneShowForAll, emit, wp_handle, wp_bind,
    wp_self, wp_shared, wp_assign, wp_gets, wp_modify, wp_orRaise, wp_ite, wp_raise, ite_self]
  refine ⟨fun name hname => ⟨fun owner howner => ⟨fun team hteam => ⟨fun spawn hspawn => ?_,
    fun hnone => ?_⟩, fun hnone => ?_⟩, fun hnone => ?_⟩, fun hnone => ?_⟩
  · exact ⟨by simp [ownerReadable, *], ⟨trivial, trivial, trivial⟩, _, _, rfl⟩
  all_goals simp [ownerReadable, *]

/-- `_InitArea` gives the zone its area and its trigger. -/
theorem wp_placeArea (h : s.Placed) (hrect : zone.zone ∈ s.samp.zones)
    (hunused : zone.zone ∉ s.zones) : wp placeArea
      (fun _ q => q.2.Awaits q.1 ∧ s.SameLoad q.2 ∧ q.1.zone = zone.zone ∧ q.1.item = zone.item)
      (fun _ _ => False) (zone, s) := by
  rw [placeArea, wp_bind, wp_self, wp_bind, wp_shared]
  refine wp_mono (DynamicAreaManager.wp_create h.live) (fun area t ht => ?_) (fun _ _ h => h)
  obtain ⟨hzoneid, hnew, hlive, ht⟩ := ht
  rw [wp_bind, wp_assign, wp_bind, wp_shared]
  refine wp_mono (DynamicAreaManager.wp_add ht.live hnew hlive) (fun _ u hu => ?_) (fun _ _ h => h)
  rw [wp_bind, wp_shared]
  refine wp_mono (PickupManager.wp_create_place hu.live) (fun item v hv => ?_) (fun _ _ h => h)
  obtain ⟨hcls, hnew', hlive', hv⟩ := hv
  rw [wp_bind, wp_assign, wp_bind, wp_shared]
  refine wp_mono (PickupManager.wp_add_place hv.live hnew' hlive') (fun _ w hw => ?_)
    (fun _ _ h => h)
  have hareas : w.areas = s.areas.insert area.id area := by
    rw [hw.areas_eq, hv.areas_eq, hu.areas_eq, ht.areas_eq]
  have hpickups : w.pickups = s.pickups.insert item.id item := by
    rw [hw.pickups_eq, hv.pickups_eq, hu.pickups_eq, ht.pickups_eq]
  rw [ht.areas_eq] at hnew
  rw [hv.pickups_eq, hu.pickups_eq, ht.pickups_eq] at hnew'
  obtain ⟨⟨streamer, rfl⟩, hlive⟩ := ((ht.trans hu).trans hv).trans hw
  refine ⟨⟨hlive, h.zones, hrect, hunused, ?_, ?_⟩, ⟨rfl, rfl, rfl⟩, rfl, rfl⟩
  · exact ⟨s.areas, area, hnew, hzoneid, hareas, h.areas⟩
  · exact ⟨s.pickups, item, hnew', hcls, hpickups, h.triggers⟩

/-- The server once SA-MP has a rectangle more, which no registered zone has. -/
theorem wp_construct {rest : Method GangZoneItem Unit} {Q : GangZoneItem → Server → Prop}
    {E : Exn → Server → Prop} (h : s.Placed)
    (hrest : ∀ zone t, t.Placed → s.SameLoad t → zone.zone ∈ t.samp.zones → zone.zone ∉ t.zones →
      zone.item = item → wp rest (fun _ q => Q q.1 q.2)
        (fun e q => wp (gangZoneDestroy zone.zone) (fun _ t => E e t) (fun _ _ => False) q.2)
        (zone, t)) :
    wp (construct item rest) Q E s := by
  have hfree : s.platform.gangZoneId s.samp.zones ∉ s.zones :=
    AList.lookup_eq_none.mp (h.zones.lookup_eq_none (h.live.fresh.zones _))
  simp only [construct, allocate, gangZoneCreate, wp_bind, wp_gets, wp_modify, wp_pure, wp_handle,
    wp_map, wp_withLocal]
  refine wp_mono (hrest _ _ ?_ ⟨rfl, rfl, rfl⟩ (List.mem_cons_self ..) hfree rfl)
    (fun _ q hq => hq) (fun e q hq => ?_)
  · exact ⟨⟨h.live.fresh, h.live.areas, h.live.pickups⟩, h.zones.cons _, h.areas, h.triggers⟩
  · exact wp_mono hq (fun _ _ h => h) (fun _ _ h => h.elim)

/-- A zone that is built from a document is lost with its places if the owner's data are not
readable. -/
theorem wp_build (h : s.Placed) : wp (build item)
    (fun zone t => areaReadable item.rawdata = true ∧
      ownerReadable s.teams.members item.rawdata = true ∧ t.Awaits zone ∧ s.SameLoad t)
    (fun _ t => areaReadable item.rawdata = false ∧ t.Placed ∨ areaReadable item.rawdata = true ∧
      ownerReadable s.teams.members item.rawdata = false ∧ ¬t.ZonesPlaced) s := by
  rw [build, wp_bind]
  refine wp_mono wp_readArea (fun _ t ht => ?_) (fun _ t ht => .inl ⟨ht.2, ht.1 ▸ h⟩)
  obtain ⟨rfl, harea⟩ := ht
  refine wp_construct h fun zone u hu hsame hrect hunused hitem => ?_
  rw [wp_bind]
  refine wp_mono (wp_placeArea hu hrect hunused) (fun _ q hq => ?_) (fun _ _ h => h.elim)
  obtain ⟨zone', v⟩ := q
  obtain ⟨hawaits, hsame', hid, hitem'⟩ := hq
  have hraw : zone'.item.rawdata = item.rawdata := by rw [hitem', hitem]
  have hteams : v.teams = t.teams := hsame'.teams.trans hsame.teams
  refine wp_mono wp_loadOwnerData (fun _ q hq => ?_) (fun _ q hq => ?_)
  · obtain ⟨howner, hplace, hpaint⟩ := hq
    rw [hraw, hteams] at howner
    refine ⟨harea, howner, hawaits.owned hplace hpaint, ?_⟩
    obtain ⟨trace, color, hpaint⟩ := hpaint
    rw [hpaint]
    exact ⟨hteams, hsame'.config.trans hsame.config, hsame'.database.trans hsame.database⟩
  · obtain ⟨howner, hlost⟩ := hq
    rw [hraw, hteams] at howner
    rw [gangZoneDestroy, wp_modify, hlost]
    exact .inr ⟨harea, howner, hawaits.not_zonesPlaced rfl rfl⟩

/-- A zone that is given its document. -/
theorem wp_ofData (h : s.Placed) (hconfig : s.config.collection .gangzone = true) :
    wp (ofData doc)
      (fun zone t => readable doc = true ∧ ownerReadable s.teams.members doc = true ∧
        t.Awaits zone ∧ s.SameLoad t)
      (fun _ t => readable doc = false ∧ t.Placed ∨ readable doc = true ∧
        ownerReadable s.teams.members doc = false ∧ ¬t.ZonesPlaced) s := by
  rw [ofData, SaveableItem.unsaved, configCollection]
  simp only [SaveableItem.initData, wp_bind, wp_gets, wp_raiseIf, hconfig, Bool.not_true,
    Bool.false_eq_true, if_false, wp_pure, wp_withLocal, wp_self, wp_assign, wp_orRaise]
  have hempty : ({} : SaveableItem).isEmpty = true := rfl
  rw [hempty, Bool.not_true, if_neg Bool.false_ne_true]
  refine ⟨fun id hid => ?_, fun hnone => .inl ⟨by simp [readable, hnone], h⟩⟩
  have hreadable : readable doc = areaReadable doc := by simp [readable, hid]
  rw [hreadable]
  exact wp_build h

/-- A new zone is placed once its owner's data are read. -/
theorem wp_ofNew {name : Text} {owner : OID} {min max : CoordinatePlane} {spawnpoint : OID}
    {trigger : Coordinate3D} (h : s.Placed) :
    wp (ofNew name owner min max spawnpoint trigger) (fun zone t => t.Awaits zone)
      (fun _ => Placed) s := by
  have hlost : ∀ {u : Server} {id : ℤ}, u.Placed → id ∉ u.zones →
      wp (gangZoneDestroy id) (fun _ => Placed) (fun _ _ => False) u := by
    intro u id hu hid
    rw [gangZoneDestroy, wp_modify]
    exact hu.destroyed hid
  rw [ofNew, wp_bind]
  refine wp_mono (wp_around inferInstance) (fun item t ht => ?_) (fun _ t ht => ht.placed h)
  rw [wp_bind, wp_gets]
  refine wp_construct (ht.placed h) fun zone t hplaced _ hrect hunused _ => ?_
  -- nothing touches the registries before the owner's data are read
  have hkeeps : ∀ {u : Server}, t.SamePlaces u →
      u.Placed ∧ zone.zone ∈ u.samp.zones ∧ zone.zone ∉ u.zones := fun hu =>
    ⟨hu.placed hplaced, hu.rectangles ▸ hrect, hu.zones ▸ hunused⟩
  rw [wp_bind, wp_shared]
  refine wp_mono (wp_around inferInstance) (fun id u hu => ?_) (fun _ u hu => ?_)
  · rw [wp_bind, wp_part]
    refine wp_mono (wp_method_around inferInstance) (fun _ q hq => ?_) (fun _ q hq => ?_)
    · have hq := hu.trans hq
      obtain ⟨hplaced, hrect, hunused⟩ := hkeeps hq
      rw [wp_bind]
      refine wp_mono wp_loadOwnerData (fun _ r hr => ?_) (fun _ r hr => ?_)
      · obtain ⟨zone', v⟩ := r
        obtain ⟨-, ⟨hid, -, -⟩, trace, color, rfl⟩ := hr
        have hshown : q.2.SamePlaces { q.2 with
            trace := trace
            samp := { q.2.samp with zoneColor := color } } := ⟨rfl, rfl, rfl, rfl, rfl, rfl⟩
        refine wp_mono (wp_placeArea (hshown.placed hplaced) ?_ ?_) (fun _ r hr => hr.1)
          (fun _ _ h => h.elim)
        · rw [hid]
          exact hrect
        · rw [hid]
          exact hunused
      · rw [hr.2]
        exact hlost hplaced hunused
    · obtain ⟨hplaced, -, hunused⟩ := hkeeps (hu.trans hq)
      exact hlost hplaced hunused
  · obtain ⟨hplaced, -, hunused⟩ := hkeeps hu
    exact hlost hplaced hunused

/-- The destructor takes the area and the trigger back. -/
theorem wp_destruct (h : s.PlacesLive) : wp zone.destruct
    (fun _ t => t.PlacesLive ∧ t.zones = s.zones ∧ t.areas = s.areas.erase zone.areaid ∧
      t.pickups = s.pickups.erase zone.triggerid ∧
      t.samp.zones = s.samp.zones.erase zone.zone ∧ s.SameLoad t)
    (fun _ _ => False) s := by
  rw [destruct, wp_bind]
  refine wp_mono (DynamicAreaManager.wp_remove h) (fun _ t ht => ?_) (fun _ _ h => h)
  rw [wp_bind]
  refine wp_mono (PickupManager.wp_remove_place ht.live) (fun _ u hu => ?_) (fun _ _ h => h)
  have hareas : u.areas = s.areas.erase zone.areaid := by rw [hu.areas_eq, ht.areas_eq]
  have hpickups : u.pickups = s.pickups.erase zone.triggerid := by rw [hu.pickups_eq, ht.pickups_eq]
  obtain ⟨⟨streamer, rfl⟩, hlive⟩ := ht.trans hu
  exact ⟨⟨hlive.fresh, hlive.areas, hlive.pickups⟩, rfl, hareas, hpickups, rfl, rfl, rfl, rfl⟩

end GangZoneItem

/-! ## `GangZoneManager` -/

namespace GangZoneManager
open Server
variable {s t : Server} {zone : GangZoneItem} {z : ℤ} {doc : Document}

/-- A constructed zone is registered. -/
theorem wp_add (h : s.Awaits zone) :
    wp (add zone) (fun _ t => t.Placed ∧ s.SameLoad t) (fun _ _ => False) s := by
  rw [add, wp_bind, wp_gets, wp_ite, id_eq, if_neg h.unused]
  exact ⟨h.register, rfl, rfl, rfl⟩

/-- A zone goes with its area and its trigger. -/
theorem wp_remove (h : s.Placed) : wp (remove z) (fun _ => Placed) (fun _ _ => False) s := by
  rw [remove, wp_bind, wp_gets, wp_bind, wp_modify]
  cases hzone : s.zones.lookup z with
  | none =>
    rw [Map.erase_of_notMem (AList.lookup_eq_none.mp hzone)]
    exact h
  | some zone =>
    have hid : zone.zone = z := (h.zones z zone hzone).1
    have hlive : ({ s with zones := s.zones.erase z } : Server).PlacesLive :=
      ⟨h.live.fresh, h.live.areas, h.live.pickups⟩
    rw [Option.toList_some, forEach, wp_bind]
    refine wp_mono (GangZoneItem.wp_destruct hlive) (fun _ t ht => ?_) (fun _ _ h => h)
    obtain ⟨hlive, hzones, hareas, hpickups, hrects, -⟩ := ht
    refine ⟨hlive, ?_, ?_, ?_⟩
    · rw [hzones, hrects, hid]
      exact h.zones.erase z
    · rw [hareas, hzones]
      exact h.areas.remove hzone
    · rw [hpickups, hzones]
      exact h.triggers.remove hzone

/-- The server while the zones are destroyed. -/
structure Clearing (s : Server) (gone : List GangZoneItem) (t : Server) : Prop where
  live : t.PlacesLive
  zones : t.zones = ∅
  areas : t.areas = gone.foldl (fun m zone => m.erase zone.areaid) s.areas
  pickups : t.pickups = gone.foldl (fun m zone => m.erase zone.triggerid) s.pickups
  rest : s.SameLoad t

/-- When all zones are gone, so are all areas and triggers. -/
theorem wp_clear (h : s.Placed) :
    wp clear (fun _ t => t.Placed ∧ s.SameLoad t) (fun _ _ => False) s := by
  rw [clear, wp_bind, wp_gets, wp_bind, wp_modify]
  have hstart : Clearing s [] { s with zones := ∅ } :=
    ⟨⟨h.live.fresh, h.live.areas, h.live.pickups⟩, rfl, rfl, rfl, rfl, rfl, rfl⟩
  refine wp_mono (wp_forEach_visited (I := Clearing s) (J := fun _ _ => False) hstart
    fun pre zone post _ t ht => ?_) (fun _ t ht => ?_) (fun _ _ h => h)
  · refine wp_mono (GangZoneItem.wp_destruct ht.live) (fun _ u hu => ?_) (fun _ _ h => h)
    obtain ⟨hlive, hzones, hareas, hpickups, -, hteams, hconfig, hdatabase⟩ := hu
    refine ⟨hlive, hzones.trans ht.zones, ?_, ?_, hteams.trans ht.rest.teams,
      hconfig.trans ht.rest.config, hdatabase.trans ht.rest.database⟩
    · rw [hareas, ht.areas, List.foldl_append]
      rfl
    · rw [hpickups, ht.pickups, List.foldl_append]
      rfl
  · refine ⟨⟨ht.live, ?_, ?_, ?_⟩, ht.rest⟩
    · rw [ht.zones]
      exact .empty
    · rw [ht.zones, ht.areas]
      exact .of_none h.areas.sweep
    · rw [ht.zones, ht.pickups]
      exact .of_none h.triggers.sweep

/-- Whether a load of these documents ends with every zone placed: it gets past the zones whose
owner is not readable only if it throws before. -/
def placesAll (teams : Map OID Team) : Database → List Document → Bool
  | _, [] => true
  | db, doc :: docs => db.fault.isThrow || !GangZoneItem.readable doc ||
    (GangZoneItem.ownerReadable teams doc && placesAll teams db.next docs)

/-- The zones of the documents are registered one by one, until one throws. -/
theorem wp_loadEach (docs : List Document) (h : s.Placed)
    (hconfig : s.config.collection .gangzone = true) :
    wp (forEach (fun doc => do
        let _ ← nextFault
        let zone ← GangZoneItem.ofData doc
        let _ ← add zone
        pure ()) docs)
      (fun _ t => t.Placed ∧ placesAll s.teams.members s.database docs = true)
      (fun _ t => if placesAll s.teams.members s.database docs = true then t.Placed
        else ¬t.ZonesPlaced) s := by
  induction docs generalizing s with
  | nil => exact ⟨h, rfl⟩
  | cons doc docs ih =>
    rw [forEach, wp_bind, wp_bind, wp_nextFault]
    have hnext : (s.setDatabase s.database.next).Placed :=
      SamePlaces.placed (s := s) ⟨rfl, rfl, rfl, rfl, rfl, rfl⟩ h
    refine ⟨fun exn hexn => ?_, fun hfault => ?_⟩
    · have hall : placesAll s.teams.members s.database (doc :: docs) = true := by
        simp [placesAll, hexn, Fault.isThrow]
      rw [if_pos hall]
      exact hnext
    have hall : placesAll s.teams.members s.database (doc :: docs) =
        (!GangZoneItem.readable doc || (GangZoneItem.ownerReadable s.teams.members doc &&
          placesAll s.teams.members s.database.next docs)) := by
      simp [placesAll, hfault]
    rw [hall, wp_bind]
    refine wp_mono (GangZoneItem.wp_ofData hnext hconfig) (fun zone t ht => ?_) (fun _ t ht => ?_)
    · obtain ⟨hreadable, howner, hawaits, hsame⟩ := ht
      rw [wp_bind]
      refine wp_mono (wp_add hawaits) (fun _ u hu => ?_) (fun _ _ h => h.elim)
      obtain ⟨hplaced, hsame'⟩ := hu
      have hteams : u.teams = s.teams := hsame'.teams.trans hsame.teams
      have hdatabase : u.database = s.database.next := hsame'.database.trans hsame.database
      have hconfig' : u.config = s.config := hsame'.config.trans hsame.config
      have hrest := ih hplaced (by rw [hconfig']; exact hconfig)
      rw [hteams, hdatabase] at hrest
      have howner' : GangZoneItem.ownerReadable s.teams.members doc = true := howner
      rw [hreadable, howner', Bool.not_true, Bool.false_or, Bool.true_and]
      exact hrest
    · rcases ht with ⟨hreadable, hplaced⟩ | ⟨hreadable, howner, hlost⟩
      · rw [if_pos (by simp [hreadable])]
        exact hplaced
      · have howner' : GangZoneItem.ownerReadable s.teams.members doc = false := howner
        rw [if_neg (by simp [hreadable, howner'])]
        exact hlost

/-- Whether a load, or a reload, ends with every zone placed. -/
def loadPlaces (s : Server) : Bool :=
  !s.config.collection .gangzone || s.database.fault.isThrow ||
    placesAll s.teams.members s.database.next (s.database.docs .gangzone)

/-- A load places every zone exactly if it does not stop at one whose owner is not readable. -/
theorem wp_loadAllFromDatabase (h : s.Placed) : wp loadAllFromDatabase
    (fun _ t => t.Placed ∧ loadPlaces s = true)
    (fun _ t => if loadPlaces s = true then t.Placed else ¬t.ZonesPlaced) s := by
  rw [loadAllFromDatabase, wp_bind, emit, wp_modify, wp_bind]
  have htrace : ({ s with trace := .reload .gangzone :: s.trace } : Server).Placed :=
    SamePlaces.placed (s := s) ⟨rfl, rfl, rfl, rfl, rfl, rfl⟩ h
  refine wp_mono (wp_clear htrace) (fun _ t ht => ?_) (fun _ _ h => h.elim)
  obtain ⟨hplaced, hteams, hconfig, hdatabase⟩ := ht
  have hload : loadPlaces s = (!t.config.collection .gangzone || t.database.fault.isThrow ||
      placesAll t.teams.members t.database.next (t.database.docs .gangzone)) := by
    rw [hteams, hconfig, hdatabase]
    rfl
  rw [fetchAllFromDatabase, configCollection, wp_bind, wp_bind, wp_gets, wp_raiseIf]
  split
  case isTrue hunknown =>
    rw [if_pos (by simp [hload, hunknown])]
    exact hplaced
  case isFalse hknown =>
    have hissued : (t.issued (.queryAll .gangzone)).Placed :=
      SamePlaces.placed (s := t) ⟨rfl, rfl, rfl, rfl, rfl, rfl⟩ hplaced
    rw [wp_bind, wp_issue]
    refine ⟨fun exn hexn => ?_, fun hfault => ?_⟩
    · rw [if_pos (by simp [hload, hexn, Fault.isThrow])]
      exact hissued
    have hcollection : t.config.collection .gangzone = true := by simpa using hknown
    have hall : loadPlaces s =
        placesAll t.teams.members t.database.next (t.database.docs .gangzone) := by
      simp [hload, hcollection, hfault]
    rw [wp_bind, wp_gets, hall]
    exact wp_loadEach _ hissued hcollection

end GangZoneManager

/-! ## Runs -/

/-- What happens to the zones, and to the registries they share. Another callback may write the
other members of a zone, and anything but the registries. -/
inductive RegistryOp where
  | load
  | create (name : Text) (owner : OID) (min max : CoordinatePlane) (spawnpoint : OID)
      (trigger : Coordinate3D)
  | remove (z : ℤ)
  | place (disposable : Bool) (cls : PickupClass)
  | take (id : ℤ)
  | write (z : ℤ) (zone : GangZoneItem)
  | elsewhere (t : Server)

/-- A zone with the ids of another one. -/
def GangZoneItem.withIdsOf (zone old : GangZoneItem) : GangZoneItem :=
  { zone with zone := old.zone, areaid := old.areaid, triggerid := old.triggerid }

namespace RegistryOp

def run : RegistryOp → Game Unit
  | load => GangZoneManager.loadAllFromDatabase
  | create name owner min max spawnpoint trigger => do
    let zone ← GangZoneItem.ofNew name owner min max spawnpoint trigger
    let _ ← GangZoneManager.add zone
    pure ()
  | remove z => GangZoneManager.remove z
  | place disposable cls => do
    let item ← PickupManager.create disposable cls
    let _ ← PickupManager.add item
    pure ()
  | take id => PickupManager.remove id
  | write z zone => GangZoneItem.modifyZone z zone.withIdsOf
  | elsewhere t => modify fun s =>
    { t with
      platform := s.platform
      streamer := s.streamer
      samp := { t.samp with zones := s.samp.zones }
      zones := s.zones
      areas := s.areas
      pickups := s.pickups }

/-- Only zones put up triggers and take them away. -/
def admits (s : Server) : RegistryOp → Bool
  | place _ (.turfWarTrigger _) => false
  | take id => ((s.pickups.lookup id).bind EffectiveItem.zone?).isNone
  | _ => true

/-- One operation, which may throw. -/
def step (s : Server) (i : RegistryOp × Env) : Option Server :=
  if i.1.admits s then (i.1.run (s.begin i.2)).state? else none

/-- Whether a load ends with every zone placed. -/
def keepsPlaces (s : Server) (i : RegistryOp × Env) : Bool :=
  match i.1 with
  | load => GangZoneManager.loadPlaces (s.begin i.2)
  | _ => true

end RegistryOp

section Runs
open Server
variable {s t : Server} {op : RegistryOp} {env : Env}

/-- An operation other than a load keeps every zone placed, however it ends. -/
theorem wp_registryOp (hs : s.Placed) (hadmits : op.admits s = true) (hop : op ≠ .load) :
    wp op.run (fun _ => Placed) (fun _ => Placed) s := by
  cases op with
  | load => exact absurd rfl hop
  | create name owner min max spawnpoint trigger =>
    rw [RegistryOp.run, wp_bind]
    refine wp_mono (GangZoneItem.wp_ofNew hs) (fun zone t ht => ?_) (fun _ _ h => h)
    rw [wp_bind]
    exact wp_mono (GangZoneManager.wp_add ht) (fun _ _ h => h.1) (fun _ _ h => h.elim)
  | remove z => exact wp_mono (GangZoneManager.wp_remove hs) (fun _ _ h => h) (fun _ _ h => h.elim)
  | place disposable cls =>
    rw [RegistryOp.run, wp_bind]
    refine wp_mono (PickupManager.wp_create_place hs.live) (fun item t ht => ?_)
      (fun _ _ h => h.elim)
    obtain ⟨hcls, hnew, hlive, hmoved⟩ := ht
    rw [wp_bind]
    refine wp_mono (PickupManager.wp_add_place hmoved.live hnew hlive) (fun _ u hu => ?_)
      (fun _ _ h => h.elim)
    have htag : item.zone? = none := by
      rw [EffectiveItem.zone?, hcls]
      cases cls <;> simp_all [RegistryOp.admits]
    have hagree := hs.triggers.insert_untagged (a := item) (by rw [← hmoved.pickups_eq]; exact hnew)
      htag
    rw [hmoved.pickups_eq] at hu
    obtain ⟨⟨_, rfl⟩, hlive⟩ := hmoved.trans hu
    exact ⟨hlive, hs.zones, hmoved.areas_eq ▸ hs.areas, hagree⟩
  | take id =>
    refine wp_mono (PickupManager.wp_remove_place hs.live) (fun _ t ht => ?_) (fun _ _ h => h.elim)
    obtain ⟨⟨_, rfl⟩, hlive⟩ := ht
    have hfree : (s.pickups.lookup id).bind EffectiveItem.zone? = none := by
      simpa [RegistryOp.admits] using hadmits
    exact ⟨hlive, hs.zones, hs.areas, hs.triggers.erase_untagged hfree⟩
  | write z zone =>
    rw [RegistryOp.run, GangZoneItem.modifyZone, wp_modify]
    exact ⟨⟨hs.live.fresh, hs.live.areas, hs.live.pickups⟩,
      hs.zones.adjust (f := zone.withIdsOf) (fun _ => rfl) z,
      hs.areas.adjust (fun _ _ => rfl) (fun _ _ _ _ => trivial) (fun _ _ _ _ _ => trivial),
      hs.triggers.adjust (fun _ _ => rfl) (fun _ _ _ _ => trivial) (fun _ _ _ _ _ => trivial)⟩
  | elsewhere t =>
    rw [RegistryOp.run, wp_modify]
    exact SamePlaces.placed (s := s) ⟨rfl, rfl, rfl, rfl, rfl, rfl⟩ hs

/-- A step places every zone exactly if it is not a load that stops where the owner of a zone is
not readable. -/
theorem registryOp_step (hs : s.Placed) (h : RegistryOp.step s (op, env) = some t) :
    (t.ZonesPlaced ↔ RegistryOp.keepsPlaces s (op, env) = true) ∧
      (RegistryOp.keepsPlaces s (op, env) = true → t.Placed) := by
  rw [RegistryOp.step] at h
  split at h
  case isFalse => cases h
  rename_i hadmits
  have hbegin : (s.begin env).Placed := SamePlaces.placed (s := s) ⟨rfl, rfl, rfl, rfl, rfl, rfl⟩ hs
  by_cases hop : op = .load
  · subst hop
    refine state_of_wp (P := fun t =>
      (t.ZonesPlaced ↔ GangZoneManager.loadPlaces (s.begin env) = true) ∧
      (GangZoneManager.loadPlaces (s.begin env) = true → t.Placed)) ?_ h
    refine wp_mono (GangZoneManager.wp_loadAllFromDatabase hbegin) (fun _ t ht => ?_)
      (fun _ t ht => ?_)
    · exact ⟨iff_of_true ht.1.zonesPlaced ht.2, fun _ => ht.1⟩
    · split at ht
      case isTrue hplaces => exact ⟨iff_of_true ht.zonesPlaced hplaces, fun _ => ht⟩
      case isFalse hplaces => exact ⟨iff_of_false ht hplaces, fun h => absurd h hplaces⟩
  · have hkeeps : RegistryOp.keepsPlaces s (op, env) = true := by
      cases op <;> first | rfl | exact absurd rfl hop
    have hplaced : t.Placed :=
      state_of_wp (P := fun t => t.Placed) (wp_registryOp (s := s.begin env) hbegin hadmits hop) h
    exact ⟨iff_of_true hplaced.zonesPlaced hkeeps, fun _ => hplaced⟩

end Runs

/-- In a run, every step leaves each zone with its area and its trigger, and none else, exactly if
no load stops where the owner of a zone is not readable. -/
theorem zones_placed_iff (s : Server) (ops : List (RegistryOp × Env))
    (hfresh : s.platform.IdsAreNew) (hzones : s.zones = ∅) (hareas : s.areas = ∅)
    (hpickups : s.pickups = ∅) :
    AllSteps RegistryOp.step (fun _ _ t => t.ZonesPlaced) s ops ↔
      Meets RegistryOp.step (fun s i => RegistryOp.keepsPlaces s i = true) s ops := by
  have hstart : s.Placed := by
    refine ⟨⟨hfresh, ?_, ?_⟩, ?_, ?_, ?_⟩
    · rw [hareas]
      exact .empty
    · rw [hpickups]
      exact .empty
    · rw [hzones]
      exact .empty
    · rw [hzones, hareas]
      exact .of_none fun _ => rfl
    · rw [hzones, hpickups]
      exact .of_none fun _ => rfl
  exact allSteps_iff_meets (I := Server.Placed) (fun s i t hs ht => (registryOp_step hs ht).1)
    (fun s i t hs ht => (registryOp_step hs ht).2) hstart


/-! ## A zone whose owner is not registered -/

namespace Demo

/-- All ids are larger than the live ones. -/
def newIds : Platform := { freshPlatform with streamerId := freshPlatform.gangZoneId }

theorem newIds_new : newIds.IdsAreNew := ⟨freshPlatform_fresh, freshPlatform_fresh⟩

/-- The two teams are registered. -/
def zoning : Server := { siege with platform := newIds }

/-- The zone is loaded, another one is created, and the first one is removed. -/
def zoningRun : List (RegistryOp × Env) :=
  [(.load, env), (.create (ascii "new") rivals ⟨0, 0⟩ ⟨1, 1⟩ ⟨0⟩ ⟨0, 0, 0⟩, env),
    (.place true (.weapon 16 3), env), (.remove 1, env), (.take 3, env), (.load, env)]

/-- No team is registered. -/
def teamless : Server := { initial with platform := newIds }

end Demo

/-- The zones of registered teams are placed throughout. -/
theorem zones_placed_registered :
    AllSteps RegistryOp.step (fun _ _ t => t.ZonesPlaced) Demo.zoning Demo.zoningRun :=
  (zones_placed_iff Demo.zoning Demo.zoningRun Demo.newIds_new rfl rfl rfl).mpr
    (meets_of_check (b := RegistryOp.keepsPlaces) (fun _ _ h => h) (by decide +kernel))

/-- A zone whose owner is not registered leaves its area and its trigger behind. -/
theorem lost_zone_stays_placed :
    ¬AllSteps RegistryOp.step (fun _ _ t => t.ZonesPlaced) Demo.teamless [(.load, Demo.env)] := by
  intro hall
  have hmeets := (zones_placed_iff Demo.teamless _ Demo.newIds_new rfl rfl rfl).mp hall
  exact not_allSteps (T := fun s i _ => RegistryOp.keepsPlaces s i = true) [] (.load, Demo.env)
    (fun s _ => RegistryOp.keepsPlaces s (.load, Demo.env)) (fun _ _ h => h) (by decide +kernel)
    hmeets

end FreshCity
