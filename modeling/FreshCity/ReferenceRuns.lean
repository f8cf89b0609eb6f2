import FreshCity.References

/-!
# Every reference resolves

What the constructors return refers to documents that are there, and what is stored was in hand.
So in every run each id that is kept in an object or in a document is unset or leads to a document.
-/
namespace FreshCity
open Imperative Prog

section Objects
set_option synthInstance.maxSize 3000
open Server
variable {s t : Server} {held : Set Reference} {α τ : Type} {c : Collection} {id : OID}
  {m : Modifier} {doc : Document}

/-! ## Profiles -/

section Profiles
variable {p : ℤ} {logname password : Text}

theorem references_of_links {item : SaveableItem} (h : c.links = []) :
    item.references c = {(c, item.uniqueid)} := by
  rw [SaveableItem.references, documentReferences_of_links h, Set.union_empty]

instance {x : Method SaveableItem α}
    [hx : ∀ held, Keeps (ResolvedWith (·.references .profile) held) x] :
    Keeps (Resolved held) (Profile.withItem p x) := by
  refine keeps_resolved_focus (f := (·.references .profile)) (fun s item h => ?_)
    (fun item s h => ?_) (hx held)
  · obtain ⟨pr, hpr, rfl⟩ := Option.map_eq_some_iff.mp h
    rw [references_of_links rfl, Set.singleton_subset_iff]
    exact references_of_profile hpr (.inl rfl)
  · refine Server.Resolved.dropAll (h.profiles (Map.mentions_adjust fun pr _ => ?_))
    rintro r (rfl | rfl)
    · exact .inr (.inr (.inl rfl))
    · exact .inl (.inr rfl)

instance : Keeps (Resolved held) (Profile.sync p) := by
  unfold Profile.sync
  infer_instance

instance : Keeps (Resolved held) (Profile.create p logname password) := by
  have hcreate : ∀ doc held, Keeps (ResolvedWith (·.references .profile) held)
      (SaveableItem.create .profile doc true) := fun doc held =>
    SaveableItem.keeps_resolvedWith_create ((documentReferences_of_links rfl).subset.trans
      (Set.empty_subset _))
  unfold Profile.create
  infer_instance

instance {nickname : Text} : Keeps (Resolved held) (Profile.setNickname p nickname) := by
  unfold Profile.setNickname
  infer_instance

/-- A new profile refers to its document alone. -/
theorem Server.Resolved.newProfile {pr : Profile} (h : s.Resolved held)
    (hteam : pr.team = OID.unset) (hid : (.profile, pr.item.uniqueid) ∈ s.known) :
    s.Resolved (held ∪ pr.references) := by
  refine h.take ?_
  rintro r (rfl | rfl)
  · exact hid
  · rw [hteam]
    exact known_unset s .team

/-- A profile is found with the id of its document, and is in no team. -/
instance yields_construct : Yields Resolved held Profile.references
    (Profile.construct logname) := ⟨fun s hs => by
  rw [Profile.construct, wp_bind, wp_gets, wp_bind]
  refine wp_mono (SaveableItem.yields_fetch.wp_yields s hs) (fun item t ht => ?_)
    (fun _ _ h => h)
  have hallocate : Keeps (Resolved (held ∪ item.references .profile)) allocate :=
    inferInstance
  rw [wp_bind]
  refine wp_mono (hallocate.wp_of_keeps ht) (fun addr t ht => ?_) (fun _ _ h => h.dropAll)
  have hid : (.profile, item.uniqueid) ∈ t.known := ht.resolves.inHand (.inr (.inl rfl))
  rw [wp_ite]
  split
  · exact ht.dropAll.newProfile rfl hid
  · have hkeeps : Keeps (fun q : Profile × Server => q.2.Resolved held) Profile.loadMemberData :=
      inferInstance
    have hnew : ({ item := item, addr := addr } : Profile).IsNew := by constructor <;> rfl
    rw [wp_map, wp_withLocal]
    refine wp_mono (wp_and (hkeeps.wp_of_keeps (s := (_, t)) ht.dropAll)
      (wp_and (Profile.wp_loadMemberData_isNew hnew t) Profile.wp_loadMemberData_password))
      (fun _ q hq => ?_) (fun _ _ h => h.1)
    obtain ⟨hresolved, hisnew, -, hserver, hitem, -⟩ := hq
    exact hresolved.newProfile hisnew.team (by rwa [hitem, hserver])⟩

instance : Keeps (Resolved held) (profileMgrAdd p) := by
  have hinsert : ∀ pr held, pr.references ⊆ held → Keeps (Resolved held)
      (modify fun s => { s with profiles := s.profiles.insert p pr } : Game Unit) :=
    fun pr held hpr => keeps_of_wp fun s h => h.profiles
      (Map.mentions_insert.trans (Set.union_subset_union_right _ hpr))
  unfold profileMgrAdd
  refine within_bind (j := fun env => yields_construct.keeps_bind resolved_droppable fun pr => ?_)
  have := hinsert pr (held ∪ pr.references) Set.subset_union_right
  infer_instance

end Profiles

/-! ## Waypoints -/

def Waypoint.references (w : Waypoint) : Set Reference := w.item.references .waypoint

instance yields_ofTitle {title : Text} :
    Yields Resolved held Waypoint.references (Waypoint.ofTitle title) := by
  refine .after inferInstance fun _ => SaveableItem.yields_fetch.bind resolved_droppable fun item =>
    .after inferInstance fun waypoint => ⟨fun s hs => ?_⟩
  exact hs.take (Set.subset_union_right.trans hs.resolves.inHand)

instance {title : Text} : Keeps (Resolved held) (Waypoint.ofTitle title) :=
  yields_ofTitle.keeps resolved_droppable

instance : Keeps (Resolved held) (Waypoint.ofId id) := by
  unfold Waypoint.ofId
  infer_instance

instance yields_ofTarget {target : Coordinate5D} :
    Yields Resolved held Waypoint.references (Waypoint.ofTarget target) :=
  SaveableItem.yields_unsaved.bind resolved_droppable fun _ => ⟨fun _ hs =>
    hs.take (Set.subset_union_right.trans hs.resolves.inHand)⟩

/-- A created waypoint refers to its document. -/
theorem yields_create {w : Waypoint} {title : Text} {creator : OID} (hw : w.references ⊆ held) :
    Yields Resolved held Waypoint.references (w.create title creator) := by
  refine .after inferInstance fun platform => .after inferInstance fun id => ⟨fun s hs => ?_⟩
  have hcreate : Keeps (ResolvedWith (·.references .waypoint) held)
      (SaveableItem.create .waypoint (w.document id creator (platform.gbkToUTF8 title)) false) :=
    SaveableItem.keeps_resolvedWith_create ((documentReferences_of_links rfl).subset.trans
      (Set.empty_subset _))
  rw [wp_bind, wp_withLocal]
  exact wp_mono (hcreate.wp_of_keeps (s := (w.item, s)) (hs.take (hw.trans hs.resolves.inHand)))
    (fun _ _ h => h) (fun _ _ h => Server.Resolved.dropAll h)

/-! ## Teams -/

section Teams
variable {o : OID} {p : ℤ}

instance yields_ref : Yields Resolved held Team.references (Team.ref o) := ⟨fun s hs => by
  rw [Team.ref, wp_bind, wp_gets, wp_orUndefined]
  exact fun team hteam => hs.takeStored (references_of_team hteam)⟩

theorem keeps_resolved_modifyTeam {team : OID} (h : (.team, team) ∈ held) :
    Keeps (Resolved held) (Profile.modifyTeam p fun _ => team) := keeps_of_wp fun s hs => by
  refine hs.profiles (Map.mentions_adjust fun pr _ => ?_)
  rintro r (rfl | rfl)
  · exact .inl (.inl rfl)
  · exact .inr h

instance {id : ℤ} : Keeps (Resolved held) (setPlayerTeam p id) :=
  keeps_resolved_of_stays (K := [.output, .sampTeam p]) inferInstance
    (by simp [Kind.leavesReferences])

instance : Keeps (Resolved held) (Team.join o p) := by
  refine yields_ref.keeps_bind resolved_droppable fun team => ?_
  have hteam : Keeps (Resolved (held ∪ team.references))
    (Profile.modifyTeam p fun _ => team.item.uniqueid) := keeps_resolved_modifyTeam (.inr rfl)
  infer_instance

instance : Keeps (Resolved held) (Team.quit o p) := by
  have hteam : Keeps (Resolved held) (Profile.modifyTeam p fun _ => OID.unset) :=
    keeps_resolved_unset (keeps_resolved_modifyTeam (.inr rfl))
  unfold Team.quit
  infer_instance

/-- A created team refers to its document. -/
instance yields_createTeam {leader : OID} {name : Text} {color teamid : ℤ} :
    Yields Resolved held Team.references (Team.create leader name color teamid) := by
  refine SaveableItem.yields_unsaved.bind resolved_droppable fun item =>
    .after inferInstance fun platform => .after inferInstance fun id => ⟨fun s hs => ?_⟩
  have hcreate : Keeps (ResolvedWith (·.references .team) (held ∪ item.references .team))
      (SaveableItem.create .team
        (Team.document id (platform.gbkToUTF8 name) leader color) false) :=
    SaveableItem.keeps_resolvedWith_create ((documentReferences_of_links rfl).subset.trans
      (Set.empty_subset _))
  have hitem : item.references .team ⊆ s.known := Set.subset_union_right.trans hs.resolves.inHand
  rw [wp_bind, wp_withLocal]
  refine wp_mono (hcreate.wp_of_keeps (s := (item, s)) (hs.take hitem)) (fun _ q hq => ?_)
    (fun _ _ h => Server.Resolved.dropAll h)
  exact Server.Resolved.drop hq (Set.union_subset_union_right _ Set.subset_union_left)

/-- A team that is given a document refers to it. -/
theorem yields_teamOfData {teamid : ℤ} (hdoc : selfReferences .team doc ⊆ held) :
    Yields Resolved held Team.references (Team.ofData doc teamid) := by
  refine .after (SaveableItem.yields_unsaved.keeps resolved_droppable) fun _ =>
    (SaveableItem.yields_initData hdoc).bind resolved_droppable fun r => ⟨fun s hs => ?_⟩
  have hload : ∀ (team : Team) (t : Server), wp Team.loadData
      (fun _ q => q.1.item = team.item ∧ q.2 = t) (fun _ q => q.2 = t) (team, t) := by
    intro team t
    simp [Team.loadData, check]
  rw [wp_map, wp_withLocal]
  refine wp_mono (hload _ s) (fun _ q hq => ?_) (fun _ q hq => hq ▸ hs)
  rw [hq.2]
  refine hs.take (Set.singleton_subset_iff.mpr ?_)
  rw [hq.1]
  exact hs.resolves.inHand (.inr (.inl rfl))

/-- A team goes into the registry whose references are in hand. -/
theorem keeps_resolved_addMember {team : Team} (h : team.references ⊆ held) :
    Keeps (Resolved held) (TeamManager.addMember team) := by
  have hinsert : Keeps (Resolved held) (modify fun s => { s with teams := { s.teams with
      members := s.teams.members.insert team.item.uniqueid team } } : Game Unit) :=
    keeps_of_wp fun _ hs => hs.teams (Map.mentions_insert.trans (Set.union_subset_union_right _ h))
  unfold TeamManager.addMember
  infer_instance

instance {leader : OID} {name : Text} {color : ℤ} :
    Keeps (Resolved held) (TeamManager.add leader name color) :=
  within_bind (j := fun _ => yields_createTeam.keeps_bind resolved_droppable fun _ =>
    keeps_resolved_addMember Set.subset_union_right)

instance : Keeps (Resolved held) TeamManager.loadAllFromDatabase := by
  have hfetch : Keeps (Resolved held) (fetchAllFromDatabase .team fun doc => do
      let id ← TeamManager.getId
      let team ← Team.ofData doc id
      let _ ← TeamManager.addMember team
      pure ()) := keeps_resolved_fetchAll fun doc held hdoc => within_bind (j := fun id =>
    (yields_teamOfData hdoc).keeps_bind resolved_droppable fun team =>
      within_bind (i := keeps_resolved_addMember Set.subset_union_right))
  unfold TeamManager.loadAllFromDatabase
  infer_instance

end Teams

/-! ## Pickups -/

section Pickups
variable {disposable : Bool} {cls : PickupClass} {waypoint : OID} {pos : Coordinate3D} {n : ℤ}

instance : Keeps (Resolved held) (PickupManager.remove n) := by
  have herase : Keeps (Resolved held)
      (modify fun s => { s with pickups := s.pickups.erase n } : Game Unit) :=
    keeps_of_wp fun _ hs => hs.pickups (Map.mentions_erase.trans Set.subset_union_left)
  unfold PickupManager.remove
  infer_instance

theorem keeps_resolved_addPickup {item : EffectiveItem} (h : item.references ⊆ held) :
    Keeps (Resolved held) (PickupManager.add item) := by
  have hinsert : Keeps (Resolved held)
      (modify fun s => { s with pickups := s.pickups.insert item.id item } : Game Unit) :=
    keeps_of_wp fun _ hs => hs.pickups
      (Map.mentions_insert.trans (Set.union_subset_union_right _ h))
  unfold PickupManager.add
  infer_instance

/-- A pickup that is created has its class. -/
theorem keeps_resolved_createPickup {k : EffectiveItem → Game α}
    (hk : ∀ item : EffectiveItem, item.cls = cls → Keeps (Resolved held) (k item)) :
    Keeps (Resolved held) (PickupManager.create disposable cls >>= k) :=
  Within.bind_of (P := fun item => item.cls = cls) inferInstance (fun _ => rfl) hk

/-- A method creates a pickup that refers to nothing. -/
theorem keeps_resolvedWith_createPickup {f : τ → Set Reference} {k : EffectiveItem → Method τ α}
    (hcls : cls.references = ∅)
    (hk : ∀ item, (∀ held, Keeps (Resolved held) (PickupManager.add item)) →
      Keeps (ResolvedWith f held) (k item)) :
    Keeps (ResolvedWith f held) (shared (PickupManager.create disposable cls) >>= k) := by
  refine Within.bind_of (P := fun item => item.cls = cls) inferInstance (fun _ => rfl)
    fun item hitem => hk item fun held => keeps_resolved_addPickup ?_
  rw [EffectiveItem.references, hitem, hcls]
  exact Set.empty_subset _

end Pickups

/-! ## Gang zones -/

section Zones
variable {z p : ℤ} {zone : GangZoneItem}

/-- What a zone and its item refer to. -/
def GangZoneItem.allReferences (zone : GangZoneItem) : Set Reference :=
  zone.references ∪ zone.item.references .gangzone

/-- What a method of a zone is given back to is kept when the zone is dropped. -/
theorem wp_loadOwnerData_resolved (h : s.Resolved (held ∪ zone.allReferences)) :
    wp GangZoneItem.loadOwnerData (fun _ q => q.2.Resolved (held ∪ q.1.allReferences))
      (fun _ q => q.2.Resolved held) (zone, s) := by
  have hreads : wp GangZoneItem.loadOwnerData
      (fun _ q => q.1.allReferences ⊆ zone.allReferences) (fun _ _ => True) (zone, s) := by
    simp only [GangZoneItem.loadOwnerData, rethrowAs, check, teamMgr, gangZoneShowForAll, emit,
      wp_handle, wp_bind, wp_self, wp_shared, wp_gets, wp_orRaise, wp_assign, wp_modify, wp_ite,
      wp_raise, ite_self, implies_true, and_true]
    intro name hname owner howner team hteam spawn hspawn
    have hdoc : ∀ k c, (k, c) ∈ Collection.links .gangzone → ∀ v : BitVec 96,
        (zone.item.rawdata.field? k).bind Bson.asOid = some v →
        (c, OID.mk v) ∈ zone.allReferences := fun k c hk v hv => .inr (.inr ⟨k, hk, hv⟩)
    rintro r ((rfl | rfl | rfl) | hr)
    · exact hdoc .owner .team (by simp [Collection.links]) _ howner
    · exact .inl (.inr (.inl rfl))
    · exact hdoc .spawn .waypoint (by simp [Collection.links]) _ hspawn
    · exact .inr hr
  have hkeeps : Keeps (fun q : GangZoneItem × Server => q.2.Resolved (held ∪ zone.allReferences))
      GangZoneItem.loadOwnerData := inferInstance
  exact wp_mono (wp_and (hkeeps.wp_of_keeps (s := (zone, s)) h) hreads)
    (fun _ _ hq => hq.1.drop (Set.union_subset_union_right _ hq.2)) (fun _ _ hq => hq.1.dropAll)

instance : Keeps (ResolvedWith GangZoneItem.allReferences held) GangZoneItem.placeArea := by
  have harea : ∀ id held, Keeps (ResolvedWith GangZoneItem.allReferences held)
      (assign fun z => { z with areaid := id } : Method GangZoneItem Unit) :=
    fun _ _ => keeps_resolvedWith_assign fun _ => subset_rfl
  have htrigger : ∀ id held, Keeps (ResolvedWith GangZoneItem.allReferences held)
      (assign fun z => { z with triggerid := id } : Method GangZoneItem Unit) :=
    fun _ _ => keeps_resolvedWith_assign fun _ => subset_rfl
  refine within_bind (j := fun zone => within_bind (j := fun area => within_bind (j := fun _ =>
    within_bind (j := fun _ => keeps_resolvedWith_createPickup rfl fun trigger hadd => ?_))))
  infer_instance

/-- A zone goes with what it refers to in hand. -/
theorem yields_constructZone {item : SaveableItem} {rest : Method GangZoneItem Unit}
    (hrest : ∀ zone : GangZoneItem, zone.item = item → zone.references ⊆ {r | r.2 = OID.unset} →
      ∀ s, s.Resolved held → wp rest (fun _ q => q.2.Resolved (held ∪ q.1.references))
        (fun _ q => q.2.Resolved held) (zone, s)) :
    Yields Resolved held GangZoneItem.references (GangZoneItem.construct item rest) := by
  refine .after inferInstance fun env => .after inferInstance fun addr =>
    .after inferInstance fun zone => ⟨fun s hs => ?_⟩
  rw [wp_handle, wp_map, wp_withLocal]
  refine wp_mono (hrest (GangZoneItem.fresh env item addr zone) rfl ?_ s hs) (fun _ _ h => h)
    (fun e t ht => ?_)
  · rintro r (rfl | rfl | rfl) <;> rfl
  · have hdestroy : Keeps (Resolved held) (gangZoneDestroy zone) := inferInstance
    rw [wp_bind]
    exact wp_mono (hdestroy.wp_of_keeps ht) (fun _ _ h => h) (fun _ _ h => h)

/-- A fresh zone refers to nothing but what its item does. -/
theorem Server.Resolved.freshZone (h : s.Resolved held)
    (hitem : zone.item.references .gangzone ⊆ held)
    (hzone : zone.references ⊆ {r | r.2 = OID.unset}) :
    s.Resolved (held ∪ zone.allReferences) :=
  h.take (Set.union_subset (fun _ hr => .inl (hzone hr)) (hitem.trans h.resolves.inHand))

/-- A zone that is given a document refers to what the document refers to. -/
theorem yields_zoneOfData (hdoc : selfReferences .gangzone doc ⊆ held) :
    Yields Resolved held GangZoneItem.references (GangZoneItem.ofData doc) := by
  refine .after (SaveableItem.yields_unsaved.keeps resolved_droppable) fun _ =>
    (SaveableItem.yields_initData hdoc).bind resolved_droppable fun r =>
    .after inferInstance fun _ => yields_constructZone fun zone hitem hzone s hs => ?_
  have hplace : Keeps (ResolvedWith GangZoneItem.allReferences (held ∪ r.2.references .gangzone))
      GangZoneItem.placeArea := inferInstance
  rw [wp_bind]
  refine wp_mono (hplace.wp_of_keeps (s := (zone, s)) (hs.freshZone (by simp [hitem]) hzone))
    (fun _ q hq => ?_) (fun _ _ hq => Server.Resolved.dropAll hq)
  exact wp_mono (wp_loadOwnerData_resolved hq)
    (fun _ _ h => h.drop (Set.union_subset_union_right _ Set.subset_union_left)) (fun _ _ h => h)

theorem references_zoneDocument {id owner spawnpoint : OID} {name : Text}
    {min max : CoordinatePlane} {trigger : Coordinate3D} (howner : (.team, owner) ∈ held)
    (hspawn : (.waypoint, spawnpoint) ∈ held) : documentReferences .gangzone
      (GangZoneItem.document id name owner min max spawnpoint trigger) ⊆ held := by
  rintro ⟨c, id⟩ ⟨k, hk, hid⟩
  obtain ⟨rfl, rfl⟩ | ⟨rfl, rfl⟩ : k = .owner ∧ c = .team ∨ k = .spawn ∧ c = .waypoint := by
    simpa [Collection.links] using hk
  · obtain rfl : owner = id := congrArg OID.mk (Option.some.inj hid)
    exact howner
  · obtain rfl : spawnpoint = id := congrArg OID.mk (Option.some.inj hid)
    exact hspawn

/-- A new zone refers to its owner and its spawn point. -/
theorem yields_zoneOfNew {name : Text} {owner spawnpoint : OID} {min max : CoordinatePlane}
    {trigger : Coordinate3D} (howner : (.team, owner) ∈ held)
    (hspawn : (.waypoint, spawnpoint) ∈ held) :
    Yields Resolved held GangZoneItem.references
      (GangZoneItem.ofNew name owner min max spawnpoint trigger) := by
  refine SaveableItem.yields_unsaved.bind resolved_droppable fun item =>
    .after inferInstance fun platform => yields_constructZone fun zone hitem hzone s hs => ?_
  have hid : Keeps (Resolved (held ∪ item.references .gangzone)) genOID := inferInstance
  have hcreate : ∀ id held', held ∪ item.references .gangzone ⊆ held' →
      Keeps (ResolvedWith (·.references .gangzone) held') (SaveableItem.create .gangzone
        (GangZoneItem.document id (platform.gbkToUTF8 name) owner min max spawnpoint trigger)
        true) := fun id held' hsub => SaveableItem.keeps_resolvedWith_create
    (references_zoneDocument (hsub (.inl howner)) (hsub (.inl hspawn)))
  have hpart : ∀ id, Keeps (ResolvedWith GangZoneItem.allReferences
      (held ∪ item.references .gangzone))
      (part (·.item) (fun it z => { z with item := it }) (SaveableItem.create .gangzone
        (GangZoneItem.document id (platform.gbkToUTF8 name) owner min max spawnpoint trigger)
        true)) := fun id => keeps_resolvedWith_part (fun _ => Set.subset_union_right)
    (fun zone it => Set.union_subset_union_left _ Set.subset_union_left) (hcreate id)
  have hplace : Keeps (ResolvedWith GangZoneItem.allReferences (held ∪ item.references .gangzone))
      GangZoneItem.placeArea := inferInstance
  rw [wp_bind, wp_shared]
  refine wp_mono (hid.wp_of_keeps hs) (fun id t ht => ?_) (fun _ _ h => h)
  rw [wp_bind]
  refine wp_mono ((hpart id).wp_of_keeps (s := (zone, t)) (ht.freshZone (by simp [hitem]) hzone))
    (fun _ q hq => ?_) (fun _ _ hq => Server.Resolved.dropAll hq)
  rw [wp_bind]
  refine wp_mono (wp_loadOwnerData_resolved hq) (fun _ q hq => ?_) (fun _ _ h => h)
  exact wp_mono (hplace.wp_of_keeps (s := q) hq)
    (fun _ _ h => Server.Resolved.drop h (Set.union_subset_union_right _ Set.subset_union_left))
    (fun _ _ h => Server.Resolved.dropAll h)

/-! ### The registry and the wars -/

instance : Keeps (Resolved held) zone.destruct := by
  unfold GangZoneItem.destruct
  infer_instance

/-- A zone goes into the registry whose references are in hand. -/
theorem keeps_resolved_addZone (h : zone.references ⊆ held) :
    Keeps (Resolved held) (GangZoneManager.add zone) := by
  have hinsert : Keeps (Resolved held)
      (modify fun s => { s with zones := s.zones.insert zone.zone zone } : Game Unit) :=
    keeps_of_wp fun _ hs => hs.zones (Map.mentions_insert.trans (Set.union_subset_union_right _ h))
  unfold GangZoneManager.add
  infer_instance

instance : Keeps (Resolved held) (GangZoneManager.remove z) := by
  have herase : Keeps (Resolved held)
      (modify fun s => { s with zones := s.zones.erase z } : Game Unit) :=
    keeps_of_wp fun _ hs => hs.zones (Map.mentions_erase.trans Set.subset_union_left)
  unfold GangZoneManager.remove
  infer_instance

instance : Keeps (Resolved held) GangZoneManager.loadAllFromDatabase := by
  have hclear : Keeps (Resolved held) (modify fun s => { s with zones := ∅ } : Game Unit) :=
    keeps_of_wp fun _ hs => hs.zones (Map.mentions_empty.subset.trans (Set.empty_subset _))
  have hfetch : Keeps (Resolved held) (fetchAllFromDatabase .gangzone fun doc => do
      let zone ← GangZoneItem.ofData doc
      let _ ← GangZoneManager.add zone
      pure ()) := keeps_resolved_fetchAll fun doc held hdoc =>
    (yields_zoneOfData hdoc).keeps_bind resolved_droppable fun zone =>
      within_bind (i := keeps_resolved_addZone Set.subset_union_right)
  unfold GangZoneManager.loadAllFromDatabase GangZoneManager.clear
  infer_instance

/-- A write to a zone that stores references in hand. -/
theorem keeps_resolved_modifyZone {g : GangZoneItem → GangZoneItem}
    (h : ∀ zone, (g zone).references ⊆ zone.references ∪ held) :
    Keeps (Resolved held) (GangZoneItem.modifyZone z g) :=
  keeps_of_wp fun _ hs => hs.zones (Map.mentions_adjust fun zone _ => h zone)

instance {x : Method SaveableItem α}
    [Keeps (fun q : SaveableItem × Server => q.2.Resolved held) x] :
    Keeps (Resolved held) (GangZoneItem.withItem z x) :=
  keeps_focus_around (fun _ _ h => h.zones (Map.mentions_adjust fun zone _ =>
    (Set.subset_union_left : zone.references ⊆ zone.references ∪ held))) inferInstance

theorem keeps_resolved_setOwner {owner : OID} (h : (.team, owner) ∈ held) :
    Keeps (Resolved held) (GangZoneItem.setOwner z owner) := by
  have hmodify : Keeps (Resolved held)
      (GangZoneItem.modifyZone z fun zone => { zone with owner := owner }) :=
    keeps_resolved_modifyZone fun zone => by
      rintro r (rfl | rfl | rfl)
      · exact .inr h
      · exact .inl (.inr (.inl rfl))
      · exact .inl (.inr (.inr rfl))
  have hrefers : Modifier.Refers .gangzone [([.owner], .oid owner.data)] held :=
    Modifier.refers_owner fun c' hc => by
      obtain rfl : c' = .team := by simpa [Collection.links] using hc
      exact h
  unfold GangZoneItem.setOwner
  infer_instance

/-- A write to a zone that leaves what it refers to alone. -/
theorem keeps_resolved_modifyZone_same {g : GangZoneItem → GangZoneItem}
    (h : ∀ zone, (g zone).references = zone.references) :
    Keeps (Resolved held) (GangZoneItem.modifyZone z g) :=
  keeps_resolved_modifyZone fun zone => (h zone).subset.trans Set.subset_union_left

instance yields_zoneRef : Yields Resolved held GangZoneItem.references (GangZoneItem.ref z) :=
  ⟨fun s hs => by
    rw [GangZoneItem.ref, wp_bind, wp_gets, wp_orUndefined]
    exact fun zone hzone => hs.takeStored (references_of_zone hzone)⟩

instance yields_profileRef : Yields Resolved held Profile.references (Profile.ref p) :=
  ⟨fun s hs => by
    rw [Profile.ref, wp_bind, wp_gets, wp_orUndefined]
    exact fun pr hpr => hs.takeStored (references_of_profile hpr)⟩

theorem keeps_resolved_beginWar {attacker : OID} (h : (.team, attacker) ∈ held) :
    Keeps (Resolved held) (GangZoneItem.beginWar z zone attacker) := by
  have htimer : ∀ c : TimerCallback, c.target = .zone → ∀ k,
      Keeps (Resolved held) (GangZoneItem.createWarTimer c k) := fun c hc k =>
    keeps_resolved_apart (GangZoneItem.stays_createWarTimer hc)
  have hend := htimer (.endTurfWar zone.addr) rfl .turfwarlast
  have htimeout := htimer (.turfWarWaitTimeout zone.addr) rfl .turfwartimeout
  have hattacker : Keeps (Resolved held) (GangZoneItem.modifyZone z fun zone =>
      { zone with warinfo := { zone.warinfo with attacker := attacker } }) :=
    keeps_resolved_modifyZone fun zone => by
      rintro r (rfl | rfl | rfl)
      · exact .inl (.inl rfl)
      · exact .inr h
      · exact .inl (.inr (.inr rfl))
  have hendtimer : ∀ timer, Keeps (Resolved held) (GangZoneItem.modifyZone z fun zone =>
      { zone with endtimerid := timer }) := fun _ => keeps_resolved_modifyZone_same fun _ => rfl
  have htimeouttimer : ∀ timer, Keeps (Resolved held) (GangZoneItem.modifyZone z fun zone =>
      { zone with timeouttimerid := timer }) := fun _ => keeps_resolved_modifyZone_same fun _ => rfl
  have hinwar : Keeps (Resolved held) (GangZoneItem.modifyZone z fun zone =>
      { zone with warinfo := { zone.warinfo with inWar := true } }) :=
    keeps_resolved_modifyZone_same fun _ => rfl
  unfold GangZoneItem.beginWar
  infer_instance

instance : Keeps (Resolved held) (GangZoneItem.startWar z p) := by
  refine within_bind (i := yields_zoneRef.keeps resolved_droppable) (j := fun zone =>
    yields_profileRef.keeps_bind resolved_droppable fun attacker => ?_)
  have hbegin : Keeps (Resolved (held ∪ attacker.references))
      (GangZoneItem.beginWar z zone attacker.team) := keeps_resolved_beginWar (.inr (.inr rfl))
  infer_instance

instance {causedbytimeout : Bool} :
    Keeps (Resolved held) (GangZoneItem.endWar z causedbytimeout) := by
  refine yields_zoneRef.keeps_bind resolved_droppable fun zone => ?_
  have howner : Keeps (Resolved (held ∪ zone.references))
      (GangZoneItem.setOwner z zone.warinfo.attacker) :=
    keeps_resolved_setOwner (.inr (.inr (.inl rfl)))
  have hwarinfo : Keeps (Resolved (held ∪ zone.references))
      (GangZoneItem.modifyZone z fun zone => { zone with warinfo := {} }) :=
    keeps_resolved_unset (keeps_resolved_modifyZone fun zone => by
      rintro r (rfl | rfl | rfl)
      · exact .inl (.inl rfl)
      · exact .inr (.inr rfl)
      · exact .inl (.inr (.inr rfl)))
  unfold GangZoneItem.announceWinner
  infer_instance

instance : Keeps (Resolved held) (GangZoneItem.countEnemyKill z) :=
  keeps_resolved_modifyZone_same fun zone => by
    split <;> rfl

instance : Keeps (Resolved held) (GangZoneItem.countMemberDeath z) :=
  keeps_resolved_modifyZone_same fun zone => by
    split <;> rfl

instance : Keeps (Resolved held) (GangZoneItem.memberArrived z) := by
  have htimeouttimer : Keeps (Resolved held) (GangZoneItem.modifyZone z fun zone =>
      { zone with timeouttimerid := 0 }) := keeps_resolved_modifyZone_same fun _ => rfl
  unfold GangZoneItem.memberArrived
  infer_instance

end Zones

/-! ## Properties -/

section Properties
variable {o : OID} {p : ℤ} {prop : Property}

/-- The marker of a property refers to nothing. -/
theorem references_marker : prop.marker.references = ∅ := by
  rw [Property.marker]
  split <;> rfl

instance : Keeps (ResolvedWith Property.references held) Property.reloadMarker := by
  have hicon : ∀ icon, Keeps (ResolvedWith Property.references held)
      (assign fun q => { q with mapicon := some icon } : Method Property Unit) :=
    fun _ => keeps_resolvedWith_assign fun _ => subset_rfl
  have hpickup : ∀ id, Keeps (ResolvedWith Property.references held)
      (assign fun q => { q with pickupid := id } : Method Property Unit) :=
    fun _ => keeps_resolvedWith_assign fun _ => subset_rfl
  unfold Property.reloadMarker
  refine within_bind (j := fun prop => within_bind (j := fun _ =>
    keeps_resolvedWith_createPickup references_marker fun item hadd => ?_))
  infer_instance

/-- A property that loads its document refers to its owner. -/
theorem wp_loadData_resolved (h : s.Resolved held) (hitem : prop.item.references .property ⊆ held) :
    wp Property.loadData (fun _ q => q.2.Resolved (held ∪ q.1.references))
      (fun _ q => q.2.Resolved held) (prop, s) := by
  have hkeeps : Keeps (fun q : Property × Server => q.2.Resolved held) Property.loadData :=
    inferInstance
  refine wp_mono (wp_and (hkeeps.wp_of_keeps (s := (prop, s)) h) Property.wp_loadData)
    (fun _ q hq => ?_) (fun _ _ hq => hq.1)
  obtain ⟨hresolved, hreads, -, -⟩ := hq
  refine hresolved.take (Set.singleton_subset_iff.mpr (hresolved.resolves.inHand (hitem (.inr ?_))))
  exact ⟨.owner, by simp [Collection.links], hreads.owner⟩

/-- A property that is given a document refers to its owner. -/
theorem yields_propertyOfData (hdoc : selfReferences .property doc ⊆ held) :
    Yields Resolved held Property.references (Property.ofData doc) := by
  refine .after (SaveableItem.yields_unsaved.keeps resolved_droppable) fun _ =>
    (SaveableItem.yields_initData hdoc).bind resolved_droppable fun r => ⟨fun s hs => ?_⟩
  have hmarker : Keeps (ResolvedWith Property.references (held ∪ r.2.references .property))
      Property.reloadMarker := inferInstance
  rw [wp_map, wp_withLocal, wp_bind]
  refine wp_mono (wp_loadData_resolved hs Set.subset_union_right) (fun _ q hq => ?_)
    (fun _ _ h => h)
  exact wp_mono (hmarker.wp_of_keeps (s := q) hq) (fun _ _ h => h)
    (fun _ _ h => Server.Resolved.dropAll h)

theorem references_propertyDocument {id : OID} {name : Text} {pos : Coordinate3D}
    {profit value now : ℤ} : documentReferences .property
      (Property.document id name pos profit value now) ⊆ {r | r.2 = OID.unset} := by
  rintro ⟨c, id⟩ ⟨k, hk, hid⟩
  obtain ⟨rfl, rfl⟩ : k = .owner ∧ c = .profile := by simpa [Collection.links] using hk
  exact (congrArg OID.mk (Option.some.inj hid)).symm

/-- A new property has no owner. -/
theorem yields_propertyOfNew {name : Text} {pos : Coordinate3D} {profit value : ℤ} :
    Yields Resolved held Property.references (Property.ofNew name pos profit value) := by
  refine SaveableItem.yields_unsaved.bind resolved_droppable fun item =>
    .after inferInstance fun platform => .after inferInstance fun now => ⟨fun s hs => ?_⟩
  have hid : Keeps (Resolved (held ∪ item.references .property)) genOID := inferInstance
  have hpart : ∀ id, Keeps (ResolvedWith (fun q : Property => q.item.references .property)
      (held ∪ item.references .property ∪ {r | r.2 = OID.unset}))
      (part (·.item) (fun it q => { q with item := it }) (SaveableItem.create .property
        (Property.document id (platform.gbkToUTF8 name) pos profit value now) true)) :=
    fun id => keeps_resolvedWith_part (g := (·.references .property)) (fun _ => subset_rfl)
      (fun _ _ => Set.subset_union_right) fun held' hsub =>
        SaveableItem.keeps_resolvedWith_create (references_propertyDocument.trans
          (Set.subset_union_right.trans hsub))
  have hmarker : ∀ held', Keeps (ResolvedWith Property.references held') Property.reloadMarker :=
    fun _ => inferInstance
  rw [wp_map, wp_withLocal, wp_bind, wp_shared]
  refine wp_mono (hid.wp_of_keeps hs) (fun id t ht => ?_) (fun _ _ h => h)
  have hitem : ResolvedWith (fun q : Property => q.item.references .property)
      (held ∪ item.references .property ∪ {r | r.2 = OID.unset}) ({ item := item }, t) :=
    Server.Resolved.take ht.takeUnset (Set.subset_union_right.trans ht.resolves.inHand)
  rw [wp_bind]
  refine wp_mono ((hpart id).wp_of_keeps hitem) (fun _ q hq => ?_)
    (fun _ _ h => Server.Resolved.dropAll (Server.Resolved.dropAll h))
  obtain ⟨prop, u⟩ := q
  rw [wp_bind]
  refine wp_mono (wp_loadData_resolved hq Set.subset_union_right)
    (fun _ r hr => ?_) (fun _ _ h => Server.Resolved.dropAll (Server.Resolved.dropAll h))
  refine wp_mono ((hmarker _).wp_of_keeps (s := r) hr) (fun _ _ h => ?_)
    (fun _ _ h => Server.Resolved.dropAll (Server.Resolved.dropAll (Server.Resolved.dropAll h)))
  exact Server.Resolved.drop h (Set.union_subset_union_left _
    (Set.subset_union_left.trans Set.subset_union_left))

/-! ### The registry and the trade -/

instance : Keeps (Resolved held) prop.destruct := by
  unfold Property.destruct
  infer_instance

/-- A property goes into the registry whose references are in hand. -/
theorem keeps_resolved_addProperty (h : prop.references ⊆ held) :
    Keeps (Resolved held) (PropertyManager.add prop) := by
  have hinsert : Keeps (Resolved held) (modify fun s =>
      { s with properties := s.properties.insert prop.item.uniqueid prop } : Game Unit) :=
    keeps_of_wp fun _ hs => hs.properties
      (Map.mentions_insert.trans (Set.union_subset_union_right _ h))
  unfold PropertyManager.add
  infer_instance

instance : Keeps (Resolved held) PropertyManager.loadAllFromDatabase := by
  have hclear : Keeps (Resolved held) (modify fun s => { s with properties := ∅ } : Game Unit) :=
    keeps_of_wp fun _ hs => hs.properties (Map.mentions_empty.subset.trans (Set.empty_subset _))
  have hfetch : Keeps (Resolved held) (fetchAllFromDatabase .property fun doc => do
      let prop ← Property.ofData doc
      let _ ← PropertyManager.add prop
      pure ()) := keeps_resolved_fetchAll fun doc held hdoc =>
    (yields_propertyOfData hdoc).keeps_bind resolved_droppable fun prop =>
      within_bind (i := keeps_resolved_addProperty Set.subset_union_right)
  unfold PropertyManager.loadAllFromDatabase PropertyManager.clear
  infer_instance

instance {x : Method SaveableItem α}
    [Keeps (fun q : SaveableItem × Server => q.2.Resolved held) x] :
    Keeps (Resolved held) (Property.withItem o x) :=
  keeps_focus_around (fun _ _ h => h.properties (Map.mentions_adjust fun prop _ =>
    (Set.subset_union_left : prop.references ⊆ prop.references ∪ held))) inferInstance

theorem keeps_resolved_modifyProperty {g : Property → Property}
    (h : ∀ prop, (g prop).references ⊆ prop.references ∪ held) :
    Keeps (Resolved held) (Property.modifyProperty o g) :=
  keeps_of_wp fun _ hs => hs.properties (Map.mentions_adjust fun prop _ => h prop)

theorem keeps_resolved_writeOwner {owner : OID} (h : (.profile, owner) ∈ held) :
    Keeps (Resolved held) (Property.writeOwner o owner) := by
  have hmodify : Keeps (Resolved held)
      (Property.modifyProperty o fun prop => { prop with owner := owner }) :=
    keeps_resolved_modifyProperty fun prop => by
      rintro r rfl
      exact .inr h
  have hrefers : Modifier.Refers .property [([.owner], .oid owner.data)] held :=
    Modifier.refers_owner fun c' hc => by
      obtain rfl : c' = .profile := by simpa [Collection.links] using hc
      exact h
  unfold Property.writeOwner
  infer_instance

instance : Keeps (Resolved held) (Property.withProperty o Property.reloadMarker) := by
  refine keeps_resolved_focus (f := Property.references) (fun s prop h => references_of_property h)
    (fun prop s h => Server.Resolved.dropAll (h.properties (Map.mentions_adjust fun q _ => ?_)))
    inferInstance
  exact Set.subset_union_right.trans Set.subset_union_right

instance : Keeps (Resolved held) (Property.draw o p) := by
  have hlastdraw : ∀ now, Keeps (Resolved held)
      (Property.modifyProperty o fun prop => { prop with lastdraw := now }) :=
    fun _ => keeps_resolved_modifyProperty fun _ => Set.subset_union_left
  unfold Property.draw
  infer_instance

instance : Keeps (Resolved held) (Property.purchase o p) := by
  refine yields_profileRef.keeps_bind resolved_droppable fun buyer => ?_
  have howner : Keeps (Resolved (held ∪ buyer.references))
      (Property.writeOwner o buyer.item.uniqueid) := keeps_resolved_writeOwner (.inr (.inl rfl))
  infer_instance

instance : Keeps (Resolved held) (Property.sell o p) := by
  have howner : Keeps (Resolved held) (Property.writeOwner o OID.unset) :=
    keeps_resolved_unset (keeps_resolved_writeOwner (.inr rfl))
  unfold Property.sell
  infer_instance

end Properties

/-! ## The callbacks -/

section Callbacks
variable {p : ℤ}

instance {name : Text} : Keeps (Resolved held) (Racing.ofName name p) := by
  unfold Racing.ofName
  infer_instance

instance : Keeps (fun q : Racing × Server => q.2.Resolved held) Racing.create := by
  have hcreate : ∀ doc, Keeps (fun q : SaveableItem × Server => q.2.Resolved held)
      (SaveableItem.create .racing doc false) := fun _ => SaveableItem.keeps_resolved_create
    ((documentReferences_of_links rfl).subset.trans (Set.empty_subset _))
  unfold Racing.create
  infer_instance

instance {z : ℤ} : Keeps (Resolved held) (PickupClass.triggerTurfWar z p) := by
  unfold PickupClass.triggerTurfWar
  infer_instance

instance {w : ℤ × ℤ} : Keeps (Resolved held) (dropWeapon w) := by
  refine keeps_resolved_createPickup fun item hitem => ?_
  have hadd : Keeps (Resolved held) (PickupManager.add item) := keeps_resolved_addPickup (by
    rw [EffectiveItem.references, hitem]
    exact Set.empty_subset _)
  infer_instance

instance {killerid zoneid : ℤ} : Keeps (Resolved held) (countDeath p killerid zoneid) := by
  unfold countDeath
  infer_instance

instance {killerid : ℤ} : Keeps (Resolved held) (rewardKiller p killerid) := by
  unfold rewardKiller reportKill
  infer_instance

theorem references_tptriggerDocument {waypoint : OID} {xy z : Bson Field}
    (h : (.waypoint, waypoint) ∈ held) : documentReferences .tptrigger
      [(.waypoint, .oid waypoint.data), (.xy, xy), (.z, z)] ⊆ held := by
  rintro ⟨c, id⟩ ⟨k, hk, hid⟩
  obtain ⟨rfl, rfl⟩ : k = .waypoint ∧ c = .waypoint := by simpa [Collection.links] using hk
  obtain rfl : waypoint = id := congrArg OID.mk (Option.some.inj hid)
  exact h

/-- A pickup for a waypoint in hand. -/
theorem keeps_resolved_trigger {waypoint : OID} (h : (.waypoint, waypoint) ∈ held) :
    Keeps (Resolved held) (do
      let item ← PickupManager.create false (.teleportTrigger waypoint)
      let _ ← PickupManager.add item
      pure ()) := by
  refine keeps_resolved_createPickup fun item hitem => ?_
  have hadd : Keeps (Resolved held) (PickupManager.add item) := keeps_resolved_addPickup (by
    rw [EffectiveItem.references, hitem]
    exact Set.singleton_subset_iff.mpr h)
  infer_instance

theorem keeps_resolved_createTrigger {waypoint : OID} {pos : Coordinate3D}
    (h : (.waypoint, waypoint) ∈ held) :
    Keeps (Resolved held) (createTeleportTrigger waypoint pos) :=
  within_bind (j := fun _ =>
    within_bind (i := keeps_resolved_insert (references_tptriggerDocument h))
      (j := fun _ => keeps_resolved_trigger h))

instance : Keeps (Resolved held) loadAllTeleportTriggerFromDatabase := by
  refine keeps_resolved_fetchAll fun doc held hdoc => within_bind (j := fun xy =>
    Within.bind_of (P := fun w => (doc.field? .waypoint).bind Bson.asOid = some w) inferInstance
      (fun s => ?_) fun waypoint hwaypoint => ?_)
  · rw [check, wp_orRaise]
    exact ⟨fun _ h => h, fun _ => trivial⟩
  · have hwaypoint' : (Collection.waypoint, OID.mk waypoint) ∈ held :=
      hdoc (.inl ⟨.waypoint, by simp [Collection.links], hwaypoint⟩)
    have htrigger := keeps_resolved_trigger hwaypoint'
    infer_instance

instance : Keeps (Resolved held) loadGameMode := by
  have hweather : Keeps (Resolved held) (createTimer .changeWeather 300000 true) :=
    keeps_resolved_apart (stays_createTimer .nothing rfl)
  have htime : Keeps (Resolved held) (createTimer .changeTime 60000 true) :=
    keeps_resolved_apart (stays_createTimer .nothing rfl)
  unfold loadGameMode
  infer_instance

instance keeps_resolved_finishCreation {data : GangZoneCreationInfo} :
    Keeps (Resolved held) (Dialog.finishCreation p data) := by
  refine within_bind (j := fun _ => yields_profileRef.keeps_bind resolved_droppable fun pr =>
    yields_ofTarget.keeps_bind resolved_droppable fun target => within_bind (j := fun id =>
    (yields_create Set.subset_union_right).keeps_bind resolved_droppable fun sp =>
    (yields_zoneOfNew (.inl (.inl (.inr (.inr rfl)))) (.inr (.inl rfl))).keeps_bind
      resolved_droppable fun zone => ?_))
  have hadd : Keeps (Resolved (held ∪ pr.references ∪ target.references ∪ sp.references ∪
      zone.references)) (GangZoneManager.add zone) := keeps_resolved_addZone Set.subset_union_right
  infer_instance

/-- Every handler of a dialog keeps the references. -/
theorem keeps_resolved_callback (listitem : ℤ) (inputtext : Text) (d : DialogId) :
    Keeps (Resolved ∅) (Dialog.callback p listitem inputtext d) := by
  by_cases hd : ∀ k ∈ Dialog.footprint p d, k.leavesReferences = true
  · exact keeps_resolved_of_stays (Dialog.stays_callback p listitem inputtext d) hd
  cases d
  case racingStartName =>
    change Keeps _ (Dialog.racingStartName p inputtext)
    unfold Dialog.racingStartName
    infer_instance
  case propertyCreateProfit =>
    change Keeps _ (Dialog.propertyCreateProfit p inputtext)
    unfold Dialog.propertyCreateProfit Dialog.modifyPropertyCreation
    refine within_bind (j := fun info => within_bind (j := fun platform =>
      within_bind (j := fun profit => within_bind (j := fun _ =>
        yields_propertyOfNew.keeps_bind resolved_droppable fun prop =>
          within_bind (i := keeps_resolved_addProperty Set.subset_union_right)))))
  case propertySold =>
    change Keeps _ (Dialog.propertySold p listitem)
    unfold Dialog.propertySold
    refine within_bind (j := fun o => within_bind (j := fun _ => ?_))
    split <;> infer_instance
  case propertyOnSale =>
    change Keeps _ (Dialog.propertyOnSale p)
    unfold Dialog.propertyOnSale
    infer_instance
  case serverMain =>
    change Keeps _ (Dialog.serverMain listitem)
    unfold Dialog.serverMain
    split <;> infer_instance
  case teleportMain =>
    change Keeps _ (Dialog.teleportMain p listitem)
    unfold Dialog.teleportMain Dialog.teleportViewNearby
    split <;> infer_instance
  case teleportCreate =>
    change Keeps _ (Dialog.teleportCreate p inputtext)
    unfold Dialog.teleportCreate
    refine within_ite (j := within_bind (j := fun env =>
      yields_ofTarget.keeps_bind resolved_droppable fun create => within_bind (j := fun pr => ?_)))
    have hcreate : Keeps (Resolved (∅ ∪ create.references))
        (create.create inputtext pr.item.uniqueid) :=
      (yields_create Set.subset_union_right).keeps resolved_droppable
    infer_instance
  case teleportUse =>
    change Keeps _ (Dialog.teleportUse p inputtext)
    unfold Dialog.teleportUse
    infer_instance
  case teleportNearby =>
    change Keeps _ (Dialog.teleportNearby p inputtext)
    unfold Dialog.teleportNearby
    infer_instance
  case teleportCreateTrigger =>
    change Keeps _ (Dialog.teleportCreateTrigger p inputtext)
    refine yields_ofTitle.keeps_bind resolved_droppable fun wp => within_bind (j := fun env =>
      within_bind (i := keeps_resolved_createTrigger (.inr (.inl rfl))))
  case gangZoneCreateProcess =>
    change Keeps _ (Dialog.gangZoneCreateProcess p listitem)
    unfold Dialog.gangZoneCreateProcess Dialog.modifyCreation
    refine within_bind (j := fun o => within_bind (j := fun _ => ?_))
    split
    case h_3 => exact keeps_resolved_finishCreation
    all_goals infer_instance
  case gangZoneRemove =>
    change Keeps _ (Dialog.gangZoneRemove p inputtext)
    unfold Dialog.gangZoneRemove GangZoneItem.destroy scanZone
    infer_instance
  case gangZoneChooseToSpawn =>
    change Keeps _ (Dialog.gangZoneChooseToSpawn p inputtext)
    unfold Dialog.gangZoneChooseToSpawn scanZone
    infer_instance
  case teamSelect =>
    change Keeps _ (Dialog.teamSelect p inputtext)
    unfold Dialog.teamSelect Dialog.changeTeam
    infer_instance
  case profileSettingNickname =>
    change Keeps _ (Dialog.profileSettingNickname p inputtext)
    unfold Dialog.profileSettingNickname
    infer_instance
  case profileSetting =>
    change Keeps _ (Dialog.profileSetting p listitem)
    unfold Dialog.profileSetting
    split <;> infer_instance
  case profileRegister =>
    change Keeps _ (Dialog.profileRegister p inputtext)
    unfold Dialog.profileRegister Dialog.tryRegister
    infer_instance
  all_goals exact absurd (by simp [Dialog.footprint, Kind.leavesReferences]) hd

/-- Every command keeps the references. -/
theorem keeps_resolved_command (cmdline : Text) (c : CommandId) :
    Keeps (Resolved held) (Command.run p cmdline c) := by
  by_cases hc : ∀ k ∈ Command.footprint c, k.leavesReferences = true
  · exact keeps_resolved_of_stays (Command.stays_run p cmdline c) hc
  cases c
  case teleportMain =>
    change Keeps _ (Command.teleportMain p cmdline)
    unfold Command.teleportMain
    infer_instance
  case importProperty =>
    have himport : ∀ platform line pos, Keeps (Resolved held) (Command.importAt platform line pos) := by
      intro platform line pos
      unfold Command.importAt
      refine within_bind (j := fun name => within_bind (j := fun _ => within_bind (j := fun value =>
        within_bind (j := fun _ => within_bind (j := fun profit =>
        yields_propertyOfNew.keeps_bind resolved_droppable fun prop =>
          within_bind (i := keeps_resolved_addProperty Set.subset_union_right))))))
    change Keeps _ (Command.importProperty cmdline)
    unfold Command.importProperty Command.importLine
    infer_instance
  case createRaceDone =>
    change Keeps _ (Command.createRaceDone p)
    have hfocus : Keeps (Resolved held) (Command.withRaceCreate p Racing.create) :=
      within_bind (j := fun _ => keeps_focus_around (fun _ _ h => h.profiles
        (Map.mentions_adjust fun pr _ => (Set.subset_union_left :
          pr.references ⊆ pr.references ∪ held))) inferInstance)
    unfold Command.createRaceDone
    infer_instance
  all_goals exact absurd (by simp [Command.footprint, Kind.leavesReferences]) hc

/-- The callback of every timer keeps the references. -/
theorem keeps_resolved_timer (c : TimerCallback) : Keeps (Resolved held) c.run := by
  by_cases hc : ∀ k ∈ c.footprint, k.leavesReferences = true
  · exact keeps_resolved_of_stays c.stays_run hc
  cases c
  case endTurfWar => unfold TimerCallback.run; infer_instance
  case turfWarWaitTimeout => unfold TimerCallback.run; infer_instance
  case autoSaveProfile => unfold TimerCallback.run; infer_instance
  all_goals exact absurd (by simp [TimerCallback.footprint, Kind.leavesReferences]) hc

/-- Every event keeps the references. -/
theorem keeps_resolved_event (e : Event) : Keeps (Resolved ∅) e.run := by
  have hout : ∀ a b, Kind.output.change a b → a.Resolved ∅ → b.Resolved ∅ :=
    fun _ _ h ha => Kind.resolved h rfl ha
  by_cases he : ∀ k ∈ e.footprint, k.leavesReferences = true
  · exact keeps_resolved_of_stays e.stays_run he
  cases e
  case gameModeInit =>
    exact keeps_of_wp fun s h => wp_gameModeInit hout h fun u hu =>
      Within.wp_of_keeps inferInstance hu
  case playerConnect p =>
    have hsignedin : Keeps (Resolved ∅) (Profile.setSignedIn p false) := keeps_resolved
    have hgreet : Keeps (Resolved ∅) (greet p) := keeps_resolved
    change Keeps _ (discard (onPlayerConnect p))
    unfold discard onPlayerConnect connectPlayer startSession
    infer_instance
  case playerDisconnect p reason =>
    have herase : Keeps (Resolved ∅) (profileMgrRemove p) :=
      keeps_resolved_of_stays (K := [.output, .streamer, .destroyTimer, .eraseProfile p])
        inferInstance (by simp [Kind.leavesReferences])
    change Keeps _ (discard (onPlayerDisconnect p reason))
    unfold discard onPlayerDisconnect disconnectPlayer endSession leaveTeam
    infer_instance
  case playerCommandText p cmdtext =>
    exact keeps_of_wp fun s h => wp_commandText hout h fun _ _ line c _ _ _ _ =>
      (keeps_resolved_command line c).wp_of_keeps h
  case dialogResponse p dialogid response listitem inputtext =>
    exact keeps_of_wp fun s h => wp_dialogResponse hout h fun _ d _ _ _ =>
      (keeps_resolved_callback listitem inputtext d).wp_of_keeps h
  case playerDeath p killerid reason =>
    change Keeps _ (discard (onPlayerDeath p killerid reason))
    unfold discard onPlayerDeath reported playerDeath
    infer_instance
  case enterDynamicArea p areaid =>
    change Keeps _ (onPlayerEnterDynamicArea p areaid)
    unfold onPlayerEnterDynamicArea reported GangZoneArea.onPlayerEnter
    infer_instance
  case pickUpPickup p =>
    have heffect : ∀ cls : PickupClass, Keeps (Resolved ∅) (cls.effect p) := by
      intro cls
      cases cls <;> unfold PickupClass.effect <;> infer_instance
    change Keeps _ (discard (onPlayerPickUpPickup p))
    unfold discard onPlayerPickUpPickup reported PickupManager.exec
    infer_instance
  case timer handle =>
    refine keeps_of_wp fun s h => wp_fireTimer.mpr ⟨fun _ => h, fun tm _ => ?_⟩
    have hrearmed : (s.rearmed tm).Resolved ∅ := by
      obtain ⟨timers, heq⟩ := s.rearmed_eq tm
      exact heq ▸ h.of_same rfl rfl rfl rfl rfl rfl
    exact (keeps_resolved_timer tm.callback).wp_of_keeps hrearmed
  case teamAdd leader name color =>
    change Keeps _ (discard (TeamManager.add leader name color))
    unfold discard
    infer_instance
  all_goals exact absurd (by simp [Event.footprint, Kind.leavesReferences]) he

end Callbacks

end Objects

/-! ## The runs -/

/-- An event whose failures are noticed leaves no reference that leads nowhere. -/
theorem Server.step_resolved {s t : Server} {e : Event} {env : Env}
    (hsound : ∀ f ∈ env.faults, f.isSound = true) (hs : s.references ⊆ s.known)
    (h : s.step (e, env) = some t) : t.references ⊆ t.known := by
  have hbegin : (s.begin env).Resolved ∅ := ⟨hsound, hs, Set.empty_subset _⟩
  have hresolved : t.Resolved ∅ := of_step h ((keeps_resolved_event e).wp_of_keeps hbegin)
  exact hresolved.resolves.stored

theorem Server.run_resolved {s t : Server} {is : List (Event × Env)}
    (hsound : ∀ i ∈ is, ∀ f ∈ i.2.faults, f.isSound = true) (hs : s.references ⊆ s.known)
    (hrun : Run.final Server.step s is = some t) : t.references ⊆ t.known := by
  induction is generalizing s with
  | nil =>
    obtain rfl : s = t := Option.some.inj hrun
    exact hs
  | cons i is ih =>
    rw [Run.final_cons, Option.bind_eq_some_iff] at hrun
    obtain ⟨u, hu, hrest⟩ := hrun
    rw [List.forall_mem_cons] at hsound
    exact ih hsound.2 (step_resolved hsound.1 hs hu) hrest

/-- In every run with failures that are noticed, the owners and spawn points of the zones, the
attackers of the wars, the owners of the properties, the targets of the teleport triggers and the
teams of the players are unset or lead to documents, in the objects as in the documents. -/
theorem references_resolve (platform : Platform) (config : Config) (docs : Documents)
    (is : List (Event × Env)) (t : Server) (hdocs : docs.references ⊆ docs.known)
    (hsound : ∀ i ∈ is, ∀ f ∈ i.2.faults, f.isSound = true)
    (hrun : Run.final Server.step (Server.initial platform config docs) is = some t) :
    t.references ⊆ t.known := by
  refine Server.run_resolved hsound ?_ hrun
  rintro r (((((hr | hr) | hr) | hr) | hr) | hr)
  · exact hdocs hr
  all_goals exact absurd (Map.mentions_empty.subset hr) (Set.notMem_empty r)

namespace Demo

/-- A player registers, creates a waypoint, and a teleport trigger for it. -/
def triggering : List (Event × Env) :=
  founding ++ quietly [.dialogResponse 0 18 1 0 (ascii "home")]

theorem docs_references : Documents.references docs ⊆ Documents.known docs := by
  rintro ⟨c, id⟩ ⟨c', doc, hdoc, k, hk, hid⟩
  cases c' <;> try exact absurd hk List.not_mem_nil
  case gangzone =>
    obtain rfl := List.mem_singleton.mp hdoc
    obtain ⟨rfl, rfl⟩ | ⟨rfl, rfl⟩ : k = .owner ∧ c = .team ∨ k = .spawn ∧ c = .waypoint := by
      simpa [Collection.links] using hk
    · obtain rfl : team = id := congrArg OID.mk (Option.some.inj hid)
      exact .inr (by decide)
    · exact .inl (congrArg OID.mk (Option.some.inj hid)).symm
  all_goals exact absurd hdoc List.not_mem_nil

end Demo

/-- The zone of the first load and the new trigger refer to documents. -/
theorem references_resolve_triggering : ∃ t,
    Run.final Server.step Demo.initial Demo.triggering = some t ∧ t.references ⊆ t.known ∧
      (t.database.docs .tptrigger).length = 1 := by
  have hrun : ((Run.final Server.step Demo.initial Demo.triggering).map fun t =>
      (t.database.docs .tptrigger).length) = some 1 := by decide +kernel
  obtain ⟨t, ht, hlength⟩ := Option.map_eq_some_iff.mp hrun
  exact ⟨t, ht, references_resolve Demo.platform Demo.config Demo.docs Demo.triggering t
    Demo.docs_references (by simp [Demo.triggering, Demo.founding, Demo.quietly, Demo.env]) ht,
    hlength⟩

end FreshCity
