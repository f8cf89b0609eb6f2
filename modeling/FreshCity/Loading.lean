import FreshCity.Stored

/-!
# What the loaders read

`Reads` relates a document to the members a loader fills from it. A loader that
returns has read the document, and one that is run on an object that already
reads the document changes nothing.
-/
namespace FreshCity
open Imperative Prog

@[simp] theorem readInt_int (n : ℤ) : readInt (some (.int n)) = some n := by
  simp [readInt, Bson.int, Bson.asNumber, truncate]

/-! ## Properties -/

namespace Property

/-- The members of a property are those `_LoadData` reads. -/
structure Reads (platform : Platform) (doc : Document) (prop : Property) : Prop where
  owner : (doc.field? .owner).bind Bson.asOid = some prop.owner.data
  name : ∃ name, (doc.field? .name).bind Bson.asString = some name ∧
    prop.name = platform.utf8ToGBK name
  value : readInt (doc.field? .value) = some prop.value
  profit : readInt (doc.field? .profit) = some prop.profit
  lastdraw : readInt (doc.field? .lastdraw) = some prop.lastdraw
  pos : ∃ xy x y, (doc.field? .xy).bind Bson.asArray = some xy ∧ xy[0]? = some x ∧
    xy[1]? = some y ∧ x.asNumber = some prop.pos.x ∧ y.asNumber = some prop.pos.y ∧
    (doc.field? .z).bind Bson.asNumber = some prop.pos.z

variable {s : Server} {prop : Property}

/-- The members of a property that `_LoadData` leaves alone. -/
structure SameShown (prop q : Property) : Prop where
  item : q.item = prop.item
  pickupid : q.pickupid = prop.pickupid
  mapicon : q.mapicon = prop.mapicon

/-- `_LoadData` reads its document or throws. -/
theorem wp_loadData :
    wp loadData (fun _ q => Reads s.platform prop.item.rawdata q.1 ∧ SameShown prop q.1 ∧ q.2 = s)
      (fun _ _ => True) (prop, s) := by
  simp only [loadData, loadPos, rethrowAs, check, elementAt, wp_handle, wp_bind, wp_self, wp_shared,
    wp_gets, wp_orRaise, wp_orUndefined, wp_assign, wp_ite, wp_raise, ite_self, implies_true,
    and_true]
  intro xy hxy owner howner name hname value hvalue profit hprofit lastdraw hlastdraw x hx x' hx' y
    hy y' hy' z hz
  exact ⟨⟨howner, ⟨name, hname, rfl⟩, hvalue, hprofit, hlastdraw,
    xy, x, y, hxy, hx, hy, hx', hy', hz⟩, ⟨rfl, rfl, rfl⟩⟩

/-- `_LoadData` changes nothing exactly if the property has read its document. -/
theorem loadData_eq_self_iff :
    loadData (prop, s) = .ok () (prop, s) ↔ Reads s.platform prop.item.rawdata prop := by
  constructor
  · intro h
    exact ((wp_of_ok h).mp (@wp_loadData s prop)).1
  · rintro ⟨howner, ⟨name, hname, hname'⟩, hvalue, hprofit, hlastdraw, xy, x, y, hxy, hx, hy, hx',
      hy', hz⟩
    simp [loadData, loadPos, rethrowAs, check, elementAt, handle_apply, bind_apply, self, shared,
      assign, hxy, howner, hname, hvalue, hprofit, hlastdraw, hx, hy, hx',
      hy', hz, ← hname']

/-- What a constructor reads of a document. -/
structure Constructs (platform : Platform) (doc : Document) (prop : Property) : Prop where
  id : documentId doc = some prop.item.uniqueid
  reads : Reads platform doc prop

instance keeps_reloadMarker {platform : Platform} {doc : Document} :
    Keeps (fun q : Property × Server => Constructs platform doc q.1) reloadMarker := by
  have hicon : ∀ icon, Keeps (fun q : Property × Server => Constructs platform doc q.1)
      (assign fun q => { q with mapicon := some icon } : Method Property Unit) := fun icon =>
    keeps_assign fun _ h => ⟨h.id, ⟨h.reads.1, h.reads.2, h.reads.3, h.reads.4, h.reads.5, h.reads.6⟩⟩
  have hpickup : ∀ id, Keeps (fun q : Property × Server => Constructs platform doc q.1)
      (assign fun q => { q with pickupid := id } : Method Property Unit) := fun id =>
    keeps_assign fun _ h => ⟨h.id, ⟨h.reads.1, h.reads.2, h.reads.3, h.reads.4, h.reads.5, h.reads.6⟩⟩
  unfold reloadMarker
  infer_instance

end Property

namespace SaveableItem
variable {doc : Document} {item : SaveableItem} {s : Server}

/-- An item that is given a document has its id. -/
theorem wp_initData :
    wp (initData doc) (fun _ q => q.1.rawdata = doc ∧ documentId doc = some q.1.uniqueid ∧ q.2 = s)
      (fun _ q => q.2 = s) (item, s) := by
  simp only [initData, wp_bind, wp_self, wp_raiseIf, wp_assign, wp_orRaise]
  split
  · trivial
  · exact ⟨fun _ hid => ⟨trivial, hid, trivial⟩, fun _ => trivial⟩

end SaveableItem

namespace Property
variable {doc : Document} {s : Server}

/-- A property that is constructed from a document. -/
theorem wp_ofData :
    wp (ofData doc) (fun prop _ => Constructs s.platform doc prop) (fun _ _ => True) s := by
  rw [ofData, SaveableItem.unsaved, configCollection, wp_bind, wp_bind, wp_bind, wp_gets, wp_raiseIf]
  split
  · trivial
  rw [wp_pure, wp_bind, wp_withLocal]
  refine wp_mono SaveableItem.wp_initData (fun _ q hq => ?_) (fun _ _ _ => trivial)
  obtain ⟨item, t⟩ := q
  obtain ⟨hraw, hid, rfl⟩ := hq
  rw [wp_map, wp_withLocal, wp_bind]
  refine wp_mono wp_loadData (fun _ q hq => ?_) (fun _ _ _ => trivial)
  obtain ⟨hreads, hsame, -⟩ := hq
  have hconstructs : Constructs t.platform doc q.1 :=
    ⟨by rw [hsame.item]; exact hid, hraw ▸ hreads⟩
  exact wp_mono (keeps_reloadMarker.wp_of_keeps hconstructs) (fun _ _ h => h) (fun _ _ _ => trivial)

end Property

/-! ## Teams -/

namespace Team

/-- The members of a team are those `__LoadData` reads. -/
structure Reads (platform : Platform) (doc : Document) (team : Team) : Prop where
  name : ∃ name, (doc.field? .name).bind Bson.asString = some name ∧
    team.name = platform.utf8ToGBK name
  color : readInt (doc.field? .color) = some team.color
  leader : (doc.field? .leader).bind Bson.asOid = some team.leader.data

/-- `__LoadData` changes nothing exactly if the team has read its document. -/
theorem loadData_eq_self_iff {s : Server} {team : Team} :
    loadData (team, s) = .ok () (team, s) ↔ Reads s.platform team.item.rawdata team := by
  constructor
  · intro h
    have hread : wp loadData (fun _ q => Reads s.platform team.item.rawdata q.1) (fun _ _ => True)
        (team, s) := by
      simp only [loadData, check, wp_bind, wp_self, wp_shared, wp_gets, wp_orRaise, wp_assign,
        implies_true, and_true]
      exact fun name hname color hcolor leader hleader => ⟨⟨name, hname, rfl⟩, hcolor, hleader⟩
    exact (wp_of_ok h).mp hread
  · rintro ⟨⟨name, hname, hname'⟩, hcolor, hleader⟩
    simp [loadData, check, bind_apply, self, shared, assign, hname, hcolor, hleader, ← hname']

end Team

/-! ## Gang zones -/

namespace GangZoneItem

/-- The members of a zone are those `_LoadOwnerData` reads and computes. -/
structure Reads (s : Server) (doc : Document) (zone : GangZoneItem) : Prop where
  name : ∃ name, (doc.field? .name).bind Bson.asString = some name ∧
    zone.name = s.platform.utf8ToGBK name
  owner : (doc.field? .owner).bind Bson.asOid = some zone.owner.data
  color : ∃ team, s.teams.members.lookup zone.owner = some team ∧
    zone.color = s.platform.int (team.color - 127)
  spawnpoint : (doc.field? .spawn).bind Bson.asOid = some zone.spawnpoint.data

/-- `_LoadOwnerData` leaves the zone as it is exactly if the zone has read its document. -/
theorem loadOwnerData_eq_self_iff {s : Server} {zone : GangZoneItem} :
    (∃ t, loadOwnerData (zone, s) = .ok () (zone, t)) ↔ Reads s zone.item.rawdata zone := by
  constructor
  · rintro ⟨t, h⟩
    have hread : wp loadOwnerData (fun _ q => Reads s zone.item.rawdata q.1) (fun _ _ => True)
        (zone, s) := by
      simp only [loadOwnerData, rethrowAs, check, teamMgr, gangZoneShowForAll, emit, wp_handle,
        wp_bind, wp_self, wp_shared, wp_gets, wp_orRaise, wp_assign, wp_modify, wp_ite, wp_raise,
        ite_self, implies_true, and_true]
      exact fun name hname owner howner team hteam spawn hspawn =>
        ⟨⟨name, hname, rfl⟩, howner, ⟨team, hteam, rfl⟩, hspawn⟩
    exact (wp_of_ok h).mp hread
  · rintro ⟨⟨name, hname, hname'⟩, howner, ⟨team, hteam, hcolor⟩, hspawn⟩
    simp [loadOwnerData, rethrowAs, check, teamMgr, gangZoneShowForAll, emit, handle_apply,
      bind_apply, self, shared, assign, hname, howner, hteam, hspawn, ← hname', ← hcolor]

end GangZoneItem

/-! ## Profiles -/

namespace Profile

/-- The members of a profile are those `_LoadMemberData` reads. -/
structure Reads (platform : Platform) (doc : Document) (pr : Profile) : Prop where
  password : (doc.at? [.auth, .password]).bind Bson.asString = some pr.auth.passwordhash
  archive : (doc.at? [.archive, .gtasa]).bind asObj = some pr.gamearchive
  deleted : (doc.at? [.auth, .deleted]).bind Bson.asBool = some pr.auth.deleted
  nickname : ∃ name, (Doc.at? pr.gamearchive [.reginfo, .nickname]).bind Bson.asString = some name ∧
    pr.gamedata.nickname = platform.utf8ToGBK name
  level : readInt (Doc.field? pr.gamearchive .mgmtlevel) = some pr.auth.adminlevel
  banned : (Doc.field? pr.gamearchive .banned).bind Bson.asBool = some pr.auth.banned

/-- `_LoadMemberData` changes nothing exactly if the profile has read its document. -/
theorem loadMemberData_eq_self_iff {s : Server} {pr : Profile} :
    loadMemberData (pr, s) = .ok () (pr, s) ↔ Reads s.platform pr.item.rawdata pr := by
  constructor
  · intro h
    have hread : wp loadMemberData (fun _ q => Reads s.platform pr.item.rawdata q.1)
        (fun _ _ => True) (pr, s) := by
      simp only [loadMemberData, rethrowAs, check, wp_handle, wp_bind, wp_self, wp_shared, wp_gets,
        wp_orRaise, wp_assign, wp_ite, wp_raise, ite_self, implies_true, and_true]
      exact fun hash hhash archive harchive deleted hdeleted nickname hnickname level hlevel banned
        hbanned => ⟨hhash, harchive, hdeleted, ⟨nickname, hnickname, rfl⟩, hlevel, hbanned⟩
    exact (wp_of_ok h).mp hread
  · rintro ⟨hhash, harchive, hdeleted, ⟨nickname, hnickname, hnickname'⟩, hlevel, hbanned⟩
    simp [loadMemberData, rethrowAs, check, handle_apply, bind_apply, self, shared, assign, hhash,
      harchive, hdeleted, hnickname, hlevel, hbanned, ← hnickname']

end Profile
end FreshCity
