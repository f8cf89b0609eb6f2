import FreshCity.Imperative.Cache
import FreshCity.Loading
import FreshCity.PropertyTrade

/-!
# Cached members and stored documents

A setter writes the document first and the member after. The cache is coherent if the
loader of a class, run on an object with the document that is stored for it, would leave
all members as they are.
-/
namespace FreshCity
open Imperative Prog Run

/-! ## Coherence -/

namespace SaveableItem

/-- The id of an item that has one. An item without an id is not saved. -/
def key (item : SaveableItem) : Option OID :=
  if item.uniqueid.isSet then some item.uniqueid else none

theorem key_eq_some {item : SaveableItem} {id : OID} :
    item.key = some id ↔ item.uniqueid.isSet = true ∧ item.uniqueid = id := by
  rw [key]
  split <;> simp_all

/-- An item that holds another document. -/
def withDocument (item : SaveableItem) (doc : Document) : SaveableItem := { item with rawdata := doc }

end SaveableItem

/-- `_LoadData` reads the members a property has. -/
def Property.Loads (s : Server) (doc : Document) (prop : Property) : Prop :=
  let prop := { prop with item := prop.item.withDocument doc }
  loadData (prop, s) = .ok () (prop, s)

/-- `__LoadData` reads the members a team has. -/
def Team.Loads (s : Server) (doc : Document) (team : Team) : Prop :=
  let team := { team with item := team.item.withDocument doc }
  loadData (team, s) = .ok () (team, s)

/-- `_LoadOwnerData` reads the members a zone has. It also shows the zone. -/
def GangZoneItem.Loads (s : Server) (doc : Document) (zone : GangZoneItem) : Prop :=
  let zone := { zone with item := zone.item.withDocument doc }
  ∃ t, loadOwnerData (zone, s) = .ok () (zone, t)

/-- `_LoadMemberData` reads the members a profile has. -/
def Profile.Loads (s : Server) (doc : Document) (pr : Profile) : Prop :=
  let pr := { pr with item := pr.item.withDocument doc }
  loadMemberData (pr, s) = .ok () (pr, s)

section Loads
variable {s : Server} {doc : Document}

theorem Property.loads_iff {prop : Property} : prop.Loads s doc ↔ Reads s.platform doc prop := by
  rw [Loads, loadData_eq_self_iff]
  exact ⟨fun h => ⟨h.1, h.2, h.3, h.4, h.5, h.6⟩, fun h => ⟨h.1, h.2, h.3, h.4, h.5, h.6⟩⟩

theorem Team.loads_iff {team : Team} : team.Loads s doc ↔ Reads s.platform doc team := by
  rw [Loads, loadData_eq_self_iff]
  exact ⟨fun h => ⟨h.1, h.2, h.3⟩, fun h => ⟨h.1, h.2, h.3⟩⟩

theorem GangZoneItem.loads_iff {zone : GangZoneItem} : zone.Loads s doc ↔ Reads s doc zone := by
  rw [Loads, loadOwnerData_eq_self_iff]
  exact ⟨fun h => ⟨h.1, h.2, h.3, h.4⟩, fun h => ⟨h.1, h.2, h.3, h.4⟩⟩

theorem Profile.loads_iff {pr : Profile} : pr.Loads s doc ↔ Reads s.platform doc pr := by
  rw [Loads, loadMemberData_eq_self_iff]
  exact ⟨fun h => ⟨h.1, h.2, h.3, h.4, h.5, h.6⟩, fun h => ⟨h.1, h.2, h.3, h.4, h.5, h.6⟩⟩

end Loads

namespace Server

/-- Every object with an id has a stored document, of which its loader reads the members
the object has. -/
structure Coherent (s : Server) : Prop where
  properties : Cache.Coherent (fun prop : Property => prop.item.key) (Property.Loads s)
    (s.database.stored .property) s.properties
  teams : Cache.Coherent (fun team : Team => team.item.key) (Team.Loads s)
    (s.database.stored .team) s.teams.members
  zones : Cache.Coherent (fun zone : GangZoneItem => zone.item.key) (GangZoneItem.Loads s)
    (s.database.stored .gangzone) s.zones
  profiles : Cache.Coherent (fun pr : Profile => pr.item.key) (Profile.Loads s)
    (s.database.stored .profile) s.profiles

/-- No two objects of a class have one id. -/
structure IdsApart (s : Server) : Prop where
  properties : Cache.Apart (fun prop : Property => prop.item.key) s.properties
  teams : Cache.Apart (fun team : Team => team.item.key) s.teams.members
  zones : Cache.Apart (fun zone : GangZoneItem => zone.item.key) s.zones
  profiles : Cache.Apart (fun pr : Profile => pr.item.key) s.profiles

/-- The cache is coherent, spelt out by what the loaders read. -/
structure Kept (s : Server) : Prop where
  properties : Cache.Coherent (fun prop : Property => prop.item.key) (Property.Reads s.platform)
    (s.database.stored .property) s.properties
  teams : Cache.Coherent (fun team : Team => team.item.key) (Team.Reads s.platform)
    (s.database.stored .team) s.teams.members
  zones : Cache.Coherent (fun zone : GangZoneItem => zone.item.key) (GangZoneItem.Reads s)
    (s.database.stored .gangzone) s.zones
  profiles : Cache.Coherent (fun pr : Profile => pr.item.key) (Profile.Reads s.platform)
    (s.database.stored .profile) s.profiles
  apart : s.IdsApart

variable {s t : Server}

theorem Kept.coherent (h : s.Kept) : s.Coherent :=
  ⟨h.properties.mono (fun _ => rfl) fun _ _ _ _ => Property.loads_iff.mpr,
    h.teams.mono (fun _ => rfl) fun _ _ _ _ => Team.loads_iff.mpr,
    h.zones.mono (fun _ => rfl) fun _ _ _ _ => GangZoneItem.loads_iff.mpr,
    h.profiles.mono (fun _ => rfl) fun _ _ _ _ => Profile.loads_iff.mpr⟩

theorem Coherent.kept (h : s.Coherent) (ha : s.IdsApart) : s.Kept :=
  ⟨h.properties.mono (fun _ => rfl) fun _ _ _ _ => Property.loads_iff.mp,
    h.teams.mono (fun _ => rfl) fun _ _ _ _ => Team.loads_iff.mp,
    h.zones.mono (fun _ => rfl) fun _ _ _ _ => GangZoneItem.loads_iff.mp,
    h.profiles.mono (fun _ => rfl) fun _ _ _ _ => Profile.loads_iff.mp, ha⟩

end Server

/-! ## Updates that fail and leave the document unchanged -/

namespace Fault

/-- Faults that meet an update and its report in turn: what fails is the update. -/
def allSound : List Fault → Bool
  | [] => true
  | [f] => f.isSound
  | f :: g :: fs => f.isSound && !g.isThrow && allSound fs

theorem isSound_headD {fs : List Fault} (h : allSound fs = true) : (fs.headD .none).isSound = true := by
  match fs, h with
  | [], _ => rfl
  | [_], h => exact h
  | _ :: _ :: _, h =>
    simp only [allSound, Bool.and_eq_true] at h
    exact h.1.1

theorem isThrow_tail {fs : List Fault} (h : allSound fs = true) :
    (fs.tail.headD .none).isThrow = false := by
  match fs, h with
  | [], _ => rfl
  | [_], _ => rfl
  | _ :: _ :: _, h =>
    simp only [allSound, Bool.and_eq_true, Bool.not_eq_true'] at h
    exact h.1.2

theorem allSound_tail {fs : List Fault} (h : allSound fs = true) : allSound fs.tail.tail = true := by
  match fs, h with
  | [], _ => rfl
  | [_], _ => rfl
  | _ :: _ :: _, h =>
    simp only [allSound, Bool.and_eq_true] at h
    exact h.2

end Fault

namespace Server
variable {s t : Server} {c c' : Collection} {id j : OID} {k : Field} {path : List Field}
  {v : Bson Field} {doc : Document} {item : SaveableItem}

/-- An update of the server's that fails leaves the document unchanged. -/
def Sound (s : Server) : Prop := Fault.allSound s.database.faults = true

/-- The next update meets the faults that are left. -/
theorem Sound.saved {m : Modifier} (h : s.Sound) : (s.saved c id m).Sound := by
  have hfaults : (s.saved c id m).database.faults = s.database.faults.tail.tail :=
    congrArg List.tail (Database.faults_afterUpdate s.database c id m)
  rw [Sound, hfaults]
  exact Fault.allSound_tail h

theorem stored_saved_other (hk : k ≠ ._id) (h : ¬(c' = c ∧ j = id)) :
    (s.saved c id [(k :: path, v)]).database.stored c' j = s.database.stored c' j :=
  Database.stored_afterUpdate_other hk h

/-- An update that is accepted has written the document. -/
theorem stored_saved_self (h : s.Sound) (hk : k ≠ ._id)
    (haccepted : (id.isSet && !s.database.refusesUpdate c id [(k :: path, v)]) = true)
    (hdoc : s.database.stored c id = some doc) :
    ∃ doc', doc.setAt (k :: path) v = some doc' ∧
      (s.saved c id [(k :: path, v)]).database.stored c id = some doc' := by
  simp only [Bool.and_eq_true, Bool.not_eq_true'] at haccepted
  exact Database.stored_of_sound hk (Fault.isSound_headD h) haccepted.2 hdoc

/-- An update that is refused has not. -/
theorem docs_of_refused {m : Modifier} {db : Database} (h : s.Sound)
    (hrefused : (item.uniqueid.isSet && !s.database.refusesUpdate c item.uniqueid m) = false)
    (hdocs : db.docs = item.docsAfter c m s.database) : db.docs = s.database.docs :=
  hdocs.trans (Database.docsAfter_of_refused (Fault.isSound_headD h) (Fault.isThrow_tail h) hrefused)

/-- What plays no part in the coherence. -/
theorem Kept.of_docs {db : Database} {trace : List Effect} (h : s.Kept)
    (hdocs : db.docs = s.database.docs) : Kept { s with database := db, trace := trace } := by
  have hstored : ∀ c id, db.stored c id = s.database.stored c id := fun c id =>
    Database.stored_congr hdocs
  exact ⟨h.properties.mono (hstored _) fun _ _ _ _ h => h, h.teams.mono (hstored _) fun _ _ _ _ h => h,
    h.zones.mono (hstored _) fun _ _ _ _ h => ⟨h.1, h.2, h.3, h.4⟩,
    h.profiles.mono (hstored _) fun _ _ _ _ h => h,
    ⟨h.apart.properties, h.apart.teams, h.apart.zones, h.apart.profiles⟩⟩

end Server

/-! ## Setters -/

/-- An update of an item is accepted. -/
def SaveableItem.saves (s : Server) (c : Collection) (m : Modifier) (item : SaveableItem) : Bool :=
  item.uniqueid.isSet && !s.database.refusesUpdate c item.uniqueid m

namespace Server
variable {s t : Server} {c c' : Collection} {k : Field} {path : List Field} {v : Bson Field}
  {K V : Type} [DecidableEq K] {item : V → SaveableItem} {reads : Document → V → Prop} {m : Map K V}
  {key : K} {obj : V} {g : V → V}

/-- A setter of one object writes its document and its member. -/
theorem coherent_saved (hk : k ≠ ._id) (hf : s.Sound)
    (h : Cache.Coherent (fun w => (item w).key) reads (s.database.stored c) m)
    (ha : Cache.Apart (fun w => (item w).key) m) (hobj : m.lookup key = some obj)
    (hitem : ∀ w, item (g w) = item w)
    (haccepted : ((item obj).uniqueid.isSet &&
      !s.database.refusesUpdate c (item obj).uniqueid [(k :: path, v)]) = true)
    (hreads : ∀ doc doc', s.database.stored c (item obj).uniqueid = some doc → reads doc obj →
      doc.setAt (k :: path) v = some doc' → reads doc' (g obj)) :
    Cache.Coherent (fun w => (item w).key) reads
      ((s.saved c (item obj).uniqueid [(k :: path, v)]).database.stored c) (m.adjust key g) := by
  have hset : (item obj).uniqueid.isSet = true := by
    simp only [Bool.and_eq_true] at haccepted
    exact haccepted.1
  have hkey : (item obj).key = some (item obj).uniqueid := SaveableItem.key_eq_some.mpr ⟨hset, rfl⟩
  obtain ⟨doc, hdoc, hread⟩ := h key obj _ hobj hkey
  obtain ⟨doc', hwrite, hdoc'⟩ := stored_saved_self hf hk haccepted hdoc
  exact h.write ha hobj hkey (by rw [hitem]) hdoc'
    (fun j hj => stored_saved_other hk fun h => hj h.2) (hreads doc doc' hdoc hread hwrite)

/-- The objects of the other classes keep their documents. -/
theorem coherent_saved_other {id : OID} (hk : k ≠ ._id) (hc : c' ≠ c)
    (h : Cache.Coherent (fun w => (item w).key) reads (s.database.stored c') m) :
    Cache.Coherent (fun w => (item w).key) reads
      ((s.saved c id [(k :: path, v)]).database.stored c') m :=
  h.mono (fun _ => stored_saved_other hk fun h => hc h.1) fun _ _ _ _ h => h

/-- A setter of an object that is not there has no defined run. -/
theorem wp_setter_missing {get : Server → Option SaveableItem}
    {put : SaveableItem → Server → Server} {m : Modifier} {f : Server → Server} (h : get s = none)
    {P : Server → Prop} :
    wp (do
        focus get put (SaveableItem.update c m false)
        modify f) (fun _ => P) (fun _ => P) s := by
  rw [wp_bind, wp_focus]
  intro item hitem
  rw [h] at hitem
  cases hitem

/-- A write that is refused throws before the member is written. -/
theorem wp_setter {get : Server → Option SaveableItem} {put : SaveableItem → Server → Server}
    {item : SaveableItem} {m : Modifier} {f : Server → Server} (h : s.Kept) (hf : s.Sound)
    (hitem : get s = some item)
    (hput : ∀ db trace, put item { s with database := db, trace := trace } =
      { s with database := db, trace := trace })
    (haccepted : (item.uniqueid.isSet && !s.database.refusesUpdate c item.uniqueid m) = true →
      Kept (f (s.saved c item.uniqueid m))) :
    wp (do
        focus get put (SaveableItem.update c m false)
        modify f) (fun _ => Kept) (fun _ => Kept) s := by
  rw [wp_bind]
  refine wp_mono (SaveableItem.wp_focus_update hitem hput) (fun _ t ht => ?_) (fun _ t ht => ?_)
  · obtain ⟨hwritten, rfl⟩ := ht
    exact haccepted hwritten
  · obtain ⟨hrefused, db, trace, hdocs, rfl⟩ := ht
    exact h.of_docs (docs_of_refused hf hrefused hdocs)

end Server

section Setters
open Server
variable {s t : Server} {k : Field} {path : List Field} {v : Bson Field}

/-- A write of an item that is read from a member changes nothing. -/
theorem adjust_item_self {K V : Type} [DecidableEq K] {m : Map K V} {key : K} {obj : V} {f : V → V}
    (hobj : m.lookup key = some obj) (hf : f obj = obj) : m.adjust key f = m :=
  Map.adjust_eq_self fun w hw => by
    obtain rfl := Option.some.inj (hobj.symm.trans hw)
    exact hf

/-- A setter of a property. -/
theorem Property.wp_set {o : OID} {g : Property → Property} (h : s.Kept)
    (hf : s.Sound) (hk : k ≠ ._id) (hitem : ∀ q, (g q).item = q.item)
    (hreads : ∀ prop doc doc', Property.Reads s.platform doc prop →
      doc.setAt (k :: path) v = some doc' → Property.Reads s.platform doc' (g prop)) :
    wp (do
        withItem o (SaveableItem.update .property [(k :: path, v)] false)
        modifyProperty o g) (fun _ => Kept) (fun _ => Kept) s := by
  cases hprop : s.properties.lookup o with
  | none => exact wp_setter_missing (by rw [hprop, Option.map_none])
  | some prop =>
  refine wp_setter h hf (by rw [hprop, Option.map_some])
    (fun db trace => by simp only [adjust_item_self hprop]) fun haccepted => ⟨?_, ?_, ?_, ?_, ?_⟩
  · exact coherent_saved hk hf h.properties h.apart.properties hprop hitem haccepted
      fun doc doc' _ => hreads prop doc doc'
  · exact coherent_saved_other hk (by decide) h.teams
  · exact (coherent_saved_other hk (by decide) h.zones).mono (fun _ => rfl) fun _ _ _ _ h =>
      ⟨h.1, h.2, h.3, h.4⟩
  · exact coherent_saved_other hk (by decide) h.profiles
  · exact ⟨h.apart.properties.adjust fun q _ => by rw [hitem], h.apart.teams, h.apart.zones,
      h.apart.profiles⟩

/-- A setter of a zone. -/
theorem GangZoneItem.wp_set {z : ℤ} {g : GangZoneItem → GangZoneItem}
    (h : s.Kept) (hf : s.Sound) (hk : k ≠ ._id) (hitem : ∀ q, (g q).item = q.item)
    (hreads : ∀ zone, s.zones.lookup z = some zone →
      zone.item.saves s .gangzone [(k :: path, v)] = true →
      ∀ doc doc', GangZoneItem.Reads s doc zone → doc.setAt (k :: path) v = some doc' →
      GangZoneItem.Reads s doc' (g zone)) :
    wp (do
        withItem z (SaveableItem.update .gangzone [(k :: path, v)] false)
        modifyZone z g) (fun _ => Kept) (fun _ => Kept) s := by
  cases hzone : s.zones.lookup z with
  | none => exact wp_setter_missing (by rw [hzone, Option.map_none])
  | some zone =>
  refine wp_setter h hf (by rw [hzone, Option.map_some])
    (fun db trace => by simp only [adjust_item_self hzone]) fun haccepted => ⟨?_, ?_, ?_, ?_, ?_⟩
  · exact coherent_saved_other hk (by decide) h.properties
  · exact coherent_saved_other hk (by decide) h.teams
  · exact (coherent_saved hk hf h.zones h.apart.zones hzone hitem haccepted
      fun doc doc' _ => hreads zone hzone haccepted doc doc').mono (fun _ => rfl) fun _ _ _ _ h =>
      ⟨h.1, h.2, h.3, h.4⟩
  · exact coherent_saved_other hk (by decide) h.profiles
  · exact ⟨h.apart.properties, h.apart.teams, h.apart.zones.adjust fun q _ => by rw [hitem],
      h.apart.profiles⟩

/-- A setter of a profile. -/
theorem Profile.wp_set {p : ℤ} {g : Profile → Profile} {f : Server → Server}
    (hmodify : ∀ u, f u = { u with profiles := u.profiles.adjust p g }) (h : s.Kept)
    (hf : s.Sound) (hk : k ≠ ._id) (hitem : ∀ q, (g q).item = q.item)
    (hreads : ∀ pr, s.profiles.lookup p = some pr →
      pr.item.saves s .profile [(k :: path, v)] = true →
      ∀ doc doc', s.database.stored .profile pr.item.uniqueid = some doc →
      Profile.Reads s.platform doc pr → doc.setAt (k :: path) v = some doc' →
      Profile.Reads s.platform doc' (g pr)) :
    wp (do
        withItem p (SaveableItem.update .profile [(k :: path, v)] false)
        modify f) (fun _ => Kept) (fun _ => Kept) s := by
  cases hpr : s.profiles.lookup p with
  | none => exact wp_setter_missing (by rw [hpr, Option.map_none])
  | some pr =>
  refine wp_setter h hf (by rw [hpr, Option.map_some])
    (fun db trace => by simp only [adjust_item_self hpr]) fun haccepted => ?_
  rw [hmodify]
  refine ⟨?_, ?_, ?_, ?_, ?_⟩
  · exact coherent_saved_other hk (by decide) h.properties
  · exact coherent_saved_other hk (by decide) h.teams
  · exact (coherent_saved_other hk (by decide) h.zones).mono (fun _ => rfl) fun _ _ _ _ h =>
      ⟨h.1, h.2, h.3, h.4⟩
  · exact coherent_saved hk hf h.profiles h.apart.profiles hpr hitem haccepted
      (hreads pr hpr haccepted)
  · exact ⟨h.apart.properties, h.apart.teams, h.apart.zones,
      h.apart.profiles.adjust fun q _ => by rw [hitem]⟩

/-- A setter of a team. The zones of the team are shown in its colour. -/
theorem Team.wp_set {o : OID} {g : Team → Team} (h : s.Kept)
    (hf : s.Sound) (hk : k ≠ ._id) (hitem : ∀ q, (g q).item = q.item)
    (hreads : ∀ team doc doc', Team.Reads s.platform doc team → doc.setAt (k :: path) v = some doc' →
      Team.Reads s.platform doc' (g team))
    (hzones : ∀ team, s.teams.members.lookup o = some team →
      team.item.saves s .team [(k :: path, v)] = true → ∀ z zone, s.zones.lookup z = some zone →
      zone.owner = o → zone.color = s.platform.int (team.color - 127) →
      zone.color = s.platform.int ((g team).color - 127)) :
    wp (do
        withItem o (SaveableItem.update .team [(k :: path, v)] false)
        modifyTeam o g) (fun _ => Kept) (fun _ => Kept) s := by
  cases hteam : s.teams.members.lookup o with
  | none => exact wp_setter_missing (by rw [hteam, Option.map_none])
  | some team =>
  refine wp_setter h hf (by rw [hteam, Option.map_some])
    (fun db trace => by simp only [adjust_item_self hteam]) fun haccepted => ⟨?_, ?_, ?_, ?_, ?_⟩
  · exact coherent_saved_other hk (by decide) h.properties
  · exact coherent_saved hk hf h.teams h.apart.teams hteam hitem haccepted
      fun doc doc' _ => hreads team doc doc'
  · refine (coherent_saved_other hk (by decide) h.zones).mono (fun _ => rfl) fun z zone _ hzone hread =>
      ⟨hread.name, hread.owner, ?_, hread.spawnpoint⟩
    obtain ⟨team', hteam', hcolor⟩ := hread.color
    simp only [Map.lookup_adjust]
    split
    case isTrue howner =>
      rw [howner] at hteam'
      obtain rfl := Option.some.inj (hteam.symm.trans hteam')
      refine ⟨g team, ?_, hzones team hteam haccepted z zone hzone howner hcolor⟩
      exact congrArg (Option.map g) hteam
    case isFalse => exact ⟨team', hteam', hcolor⟩
  · exact coherent_saved_other hk (by decide) h.profiles
  · exact ⟨h.apart.properties, h.apart.teams.adjust fun q _ => by rw [hitem], h.apart.zones,
      h.apart.profiles⟩

end Setters

/-! ## What the setters write is what the loaders read -/

section Reads
variable {s : Server} {platform : Platform} {doc doc' : Document} {text : Text}

namespace Property
variable {prop : Property}

theorem Reads.setName (h : Reads platform doc prop)
    (htext : platform.utf8ToGBK (platform.gbkToUTF8 text) = text)
    (hdoc : doc.setAt [.name] (.string (platform.gbkToUTF8 text)) = some doc') :
    Reads platform doc' { prop with name := text } := by
  rw [Doc.setAt_singleton, Option.some.injEq] at hdoc
  subst hdoc
  exact ⟨by simpa using h.owner, ⟨_, by simp [Bson.asString], htext.symm⟩, by simpa using h.value,
    by simpa using h.profit, by simpa using h.lastdraw, by simpa using h.pos⟩

theorem Reads.setValue {n : ℤ} (h : Reads platform doc prop)
    (hdoc : doc.setAt [.value] (.int n) = some doc') :
    Reads platform doc' { prop with value := n } := by
  rw [Doc.setAt_singleton, Option.some.injEq] at hdoc
  subst hdoc
  exact ⟨by simpa using h.owner, by simpa using h.name, by simp, by simpa using h.profit,
    by simpa using h.lastdraw, by simpa using h.pos⟩

theorem Reads.setProfit {n : ℤ} (h : Reads platform doc prop)
    (hdoc : doc.setAt [.profit] (.int n) = some doc') :
    Reads platform doc' { prop with profit := n } := by
  rw [Doc.setAt_singleton, Option.some.injEq] at hdoc
  subst hdoc
  exact ⟨by simpa using h.owner, by simpa using h.name, by simpa using h.value, by simp,
    by simpa using h.lastdraw, by simpa using h.pos⟩

theorem Reads.setLastdraw {n : ℤ} (h : Reads platform doc prop)
    (hdoc : doc.setAt [.lastdraw] (.int n) = some doc') :
    Reads platform doc' { prop with lastdraw := n } := by
  rw [Doc.setAt_singleton, Option.some.injEq] at hdoc
  subst hdoc
  exact ⟨by simpa using h.owner, by simpa using h.name, by simpa using h.value,
    by simpa using h.profit, by simp, by simpa using h.pos⟩

theorem Reads.setOwner {owner : OID} (h : Reads platform doc prop)
    (hdoc : doc.setAt [.owner] (.oid owner.data) = some doc') :
    Reads platform doc' { prop with owner := owner } := by
  rw [Doc.setAt_singleton, Option.some.injEq] at hdoc
  subst hdoc
  exact ⟨by simp [Bson.asOid], by simpa using h.name, by simpa using h.value,
    by simpa using h.profit, by simpa using h.lastdraw, by simpa using h.pos⟩

end Property

namespace Team
variable {team : Team}

theorem Reads.setName (h : Reads platform doc team)
    (htext : platform.utf8ToGBK (platform.gbkToUTF8 text) = text)
    (hdoc : doc.setAt [.name] (.string (platform.gbkToUTF8 text)) = some doc') :
    Reads platform doc' { team with name := text } := by
  rw [Doc.setAt_singleton, Option.some.injEq] at hdoc
  subst hdoc
  constructor <;> simp [h.color, h.leader, htext, Bson.asString]

theorem Reads.setColor {n : ℤ} (h : Reads platform doc team)
    (hdoc : doc.setAt [.color] (.int n) = some doc') :
    Reads platform doc' { team with color := n } := by
  rw [Doc.setAt_singleton, Option.some.injEq] at hdoc
  subst hdoc
  constructor <;> simp [h.name, h.leader]

end Team

namespace GangZoneItem
variable {zone : GangZoneItem}

theorem Reads.setName (h : Reads s doc zone)
    (htext : s.platform.utf8ToGBK (s.platform.gbkToUTF8 text) = text)
    (hdoc : doc.setAt [.name] (.string (s.platform.gbkToUTF8 text)) = some doc') :
    Reads s doc' { zone with name := text } := by
  rw [Doc.setAt_singleton, Option.some.injEq] at hdoc
  subst hdoc
  constructor <;> simp [h.owner, h.color, h.spawnpoint, htext, Bson.asString]

/-- A new owner is registered, and of the colour that the zone has. -/
theorem Reads.setOwner {owner : OID} {team : Team} (h : Reads s doc zone)
    (hteam : s.teams.members.lookup owner = some team)
    (hcolor : zone.color = s.platform.int (team.color - 127))
    (hdoc : doc.setAt [.owner] (.oid owner.data) = some doc') :
    Reads s doc' { zone with owner := owner } := by
  rw [Doc.setAt_singleton, Option.some.injEq] at hdoc
  subst hdoc
  constructor <;> simp [h.name, hteam, hcolor, h.spawnpoint, Bson.asOid]

theorem Reads.setSpawnPoint {waypoint : OID} (h : Reads s doc zone)
    (hdoc : doc.setAt [.spawn] (.oid waypoint.data) = some doc') :
    Reads s doc' { zone with spawnpoint := waypoint } := by
  rw [Doc.setAt_singleton, Option.some.injEq] at hdoc
  subst hdoc
  constructor <;> simp [h.name, h.owner, h.color, Bson.asOid]

end GangZoneItem

namespace Profile
variable {pr : Profile}

theorem Reads.setPassword {hash : Text} (h : Reads platform doc pr)
    (hdoc : doc.setAt [.auth, .password] (.string hash) = some doc') :
    Reads platform doc' { pr with auth := { pr.auth with passwordhash := hash } } := by
  obtain ⟨b, hb, -⟩ := Option.bind_eq_some_iff.mp h.password
  rw [Doc.at?_cons] at hb
  obtain ⟨auth, hauth, hdescend⟩ := Option.bind_eq_some_iff.mp hb
  cases auth with
  | object auth =>
    obtain ⟨auth', hset, hauth'⟩ := Doc.field?_setAt_of_object hdoc hauth
    rw [Doc.setAt_singleton, Option.some.injEq] at hset
    subst hset
    have harchive := Doc.field?_setAt_of_ne hdoc (j := .archive) (by decide)
    have hdeleted := h.deleted
    simp only [Doc.at?_cons, hauth, Option.bind_some, Doc.descend_object] at hdeleted
    refine ⟨?_, ?_, ?_, h.nickname, h.level, h.banned⟩
    · simp [Doc.at?_cons, hauth', Bson.asString]
    · rw [Doc.at?_cons, harchive]
      exact h.archive
    · simpa [Doc.at?_cons, hauth'] using hdeleted
  | _ => cases hdescend

/-- A value below the archive of a document is below the archive of the profile. -/
theorem Reads.archived {k : Field} {path : List Field} {v : Bson Field} (h : Reads platform doc pr)
    (hv : doc.at? (.archive :: .gtasa :: k :: path) = some v) :
    Doc.at? pr.gamearchive (k :: path) = some v := by
  rw [Doc.at?_cons] at hv
  obtain ⟨b, hb, hv⟩ := Option.bind_eq_some_iff.mp hv
  cases b with
  | object archive =>
    rw [Doc.descend_object, Doc.at?_cons] at hv
    obtain ⟨b, hb', hv⟩ := Option.bind_eq_some_iff.mp hv
    cases b with
    | object gtasa =>
      have harchive := h.archive
      simp only [Doc.at?_cons, hb, hb', Option.bind_some, Doc.descend_object, Doc.descend_nil,
        Bson.asObject, Option.some.injEq] at harchive
      exact harchive ▸ hv
    | _ => cases hv
  | _ => cases hv

theorem Reads.setNickname (h : Reads platform doc pr) (htext : platform.utf8ToGBK text = text)
    (hstored : doc.at? [.archive, .gtasa, .reginfo, .nickname] = some (.string text))
    (hdoc : doc.setAt [.archive, .gtasa, .reginfo, .nickname] (.string text) = some doc') :
    Reads platform doc' { pr with gamedata := { pr.gamedata with nickname := text } } := by
  obtain rfl : doc = doc' := Option.some.inj ((Doc.setAt_eq_self hstored).symm.trans hdoc)
  exact ⟨h.password, h.archive, h.deleted,
    ⟨text, by rw [h.archived hstored]; rfl, htext.symm⟩, h.level, h.banned⟩

theorem Reads.setAdminLevel {level : ℤ} (h : Reads platform doc pr)
    (hstored : doc.at? [.archive, .gtasa, .mgmtlevel] = some (.int level))
    (hdoc : doc.setAt [.archive, .gtasa, .mgmtlevel] (.int level) = some doc') :
    Reads platform doc' { pr with auth := { pr.auth with adminlevel := level } } := by
  obtain rfl : doc = doc' := Option.some.inj ((Doc.setAt_eq_self hstored).symm.trans hdoc)
  have hlevel := h.archived hstored
  simp only [Doc.at?_cons, Option.bind_eq_some_iff, Doc.descend_nil, Option.some.injEq,
    exists_eq_right] at hlevel
  exact ⟨h.password, h.archive, h.deleted, h.nickname, by rw [hlevel, readInt_int], h.banned⟩

theorem Reads.setBanned {banned : Bool} (h : Reads platform doc pr)
    (hstored : doc.at? [.archive, .gtasa, .banned] = some (.bool banned))
    (hdoc : doc.setAt [.archive, .gtasa, .banned] (.bool banned) = some doc') :
    Reads platform doc' { pr with auth := { pr.auth with banned := banned } } := by
  obtain rfl : doc = doc' := Option.some.inj ((Doc.setAt_eq_self hstored).symm.trans hdoc)
  have hbanned := h.archived hstored
  simp only [Doc.at?_cons, Option.bind_eq_some_iff, Doc.descend_nil, Option.some.injEq,
    exists_eq_right] at hbanned
  exact ⟨h.password, h.archive, h.deleted, h.nickname, h.level, by rw [hbanned]; rfl⟩

end Profile
end Reads

/-! ## The trade -/

namespace Server

/-- What a trade writes is coherent, and the documents of the other classes stay. -/
structure TradeKept (s t : Server) : Prop where
  platform : t.platform = s.platform
  properties : Cache.Coherent (fun prop : Property => prop.item.key) (Property.Reads s.platform)
    (t.database.stored .property) t.properties
  profiles : Cache.Coherent (fun pr : Profile => pr.item.key) (Profile.Reads s.platform)
    (s.database.stored .profile) t.profiles
  others : ∀ c, c ≠ .property → ∀ id, t.database.stored c id = s.database.stored c id
  propertiesApart : Cache.Apart (fun prop : Property => prop.item.key) t.properties
  profilesApart : Cache.Apart (fun pr : Profile => pr.item.key) t.profiles

variable {s t u : Server} {o : OID} {p money : ℤ} {prop prop' : Property} {m : Modifier}

theorem Kept.trade (h : s.Kept) : s.TradeKept s :=
  ⟨rfl, h.properties, h.profiles, fun _ _ _ => rfl, h.apart.properties, h.apart.profiles⟩

theorem Refused.tradeKept (h : u.Refused t prop m) (hu : s.TradeKept u) (hf : u.Sound) :
    s.TradeKept t := by
  obtain ⟨hrefused, db, trace, hdocs, rfl⟩ := h
  have hstored : ∀ c id, db.stored c id = u.database.stored c id := fun c id =>
    Database.stored_congr (docs_of_refused hf hrefused hdocs)
  exact ⟨hu.platform, hu.properties.mono (hstored _) fun _ _ _ _ h => h, hu.profiles,
    fun c hc id => (hstored c id).trans (hu.others c hc id), hu.propertiesApart, hu.profilesApart⟩

theorem Traded.tradeKept {k : Field} {path : List Field} {v : Bson Field}
    (h : u.Traded t o p prop prop' money [(k :: path, v)]) (hu : s.TradeKept u) (hf : u.Sound)
    (hk : k ≠ ._id) (hprop : u.properties.lookup o = some prop) (hitem : prop'.item = prop.item)
    (hreads : ∀ doc doc', Property.Reads s.platform doc prop → doc.setAt (k :: path) v = some doc' →
      Property.Reads s.platform doc' prop') :
    s.TradeKept t ∧ t.Sound := by
  have hdatabase : t.database = (u.saved .property prop.item.uniqueid [(k :: path, v)]).database :=
    h.database
  -- the new property, as a function of the old one
  have hwritten : t.properties = u.properties.adjust o fun q => { prop' with item := q.item } := by
    rw [h.properties]
    refine Map.adjust_congr fun q hq => ?_
    obtain rfl := Option.some.inj (hprop.symm.trans hq)
    rw [← hitem]
  refine ⟨⟨h.platform.trans hu.platform, ?_, ?_, fun c hc id => ?_, ?_, ?_⟩, ?_⟩
  · rw [hdatabase, hwritten]
    refine coherent_saved hk hf hu.properties hu.propertiesApart hprop (fun _ => rfl) h.accepted ?_
    intro doc doc' _ hread hdoc
    have hread' := hreads doc doc' hread hdoc
    exact ⟨hread'.1, hread'.2, hread'.3, hread'.4, hread'.5, hread'.6⟩
  · rw [h.profiles]
    exact hu.profiles.adjust (fun _ => rfl) fun _ _ h => ⟨h.1, h.2, h.3, h.4, h.5, h.6⟩
  · rw [hdatabase, stored_saved_other hk fun h => hc h.1, hu.others c hc]
  · rw [hwritten]
    exact hu.propertiesApart.adjust fun _ _ => rfl
  · rw [h.profiles]
    exact hu.profilesApart.adjust fun _ _ => rfl
  · rw [Sound, hdatabase]
    exact hf.saved

end Server

section Trade
open Server Property
variable {s t u : Server} {o : OID} {p n money : ℤ} {prop : Property} {pr : Profile}

theorem Property.Draws.tradeKept (h : Draws u o p prop pr n t) (hu : s.TradeKept u) (hf : u.Sound)
    (hprop : u.properties.lookup o = some prop) : s.TradeKept t ∧ t.Sound := by
  rw [Draws] at h
  split at h
  · exact h.2.tradeKept hu hf (by decide) hprop rfl fun _ _ => Property.Reads.setLastdraw
  · rw [h.2]
    exact ⟨hu, hf⟩

theorem Property.Passes.tradeKept {owner : OID} (h : Passes u o p prop owner money t)
    (hu : s.TradeKept u) (hf : u.Sound) (hprop : u.properties.lookup o = some prop) :
    s.TradeKept t := by
  obtain ⟨pickupid, mapicon, htraded⟩ := h
  refine (htraded.tradeKept hu hf (by decide) hprop rfl fun doc doc' hread hdoc => ?_).1
  have hread' := Property.Reads.setOwner hread hdoc
  exact ⟨hread'.1, hread'.2, hread'.3, hread'.4, hread'.5, hread'.6⟩

theorem wp_trade_tradeKept {op : TradeOp} (h : s.Kept) (hf : s.Sound)
    (hprop : s.properties.lookup op.property = some prop)
    (hpr : s.profiles.lookup op.player = some pr) :
    wp op.run (fun _ => s.TradeKept) (fun _ => s.TradeKept) s := by
  have hs := h.trade
  cases op with
  | purchase o p =>
    refine wp_mono (wp_purchase hprop hpr) (fun _ t ht => ht.2.2.tradeKept hs hf hprop)
      (fun _ t ht => ?_)
    rcases ht with ⟨rfl, -⟩ | hrefused
    · exact hs
    · exact hrefused.tradeKept hs hf
  | draw o p =>
    rw [TradeOp.run, wp_discard]
    exact wp_mono (wp_draw hprop hpr) (fun _ _ ht => (ht.tradeKept hs hf hprop).1)
      (fun _ _ ht => ht.2.tradeKept hs hf)
  | sell o p =>
    refine wp_mono (wp_sell hprop hpr) (fun _ t ht => ?_) (fun _ t ht => ?_)
    · obtain ⟨-, n, u, -, hdraws, hpasses⟩ := ht
      obtain ⟨hu, hfu⟩ := hdraws.tradeKept hs hf hprop
      exact hpasses.tradeKept hu hfu (hdraws.lookup_property hprop)
    · split at ht
      case isFalse => exact ht ▸ hs
      case isTrue =>
      rcases ht with ⟨-, hrefused⟩ | ⟨n, u, -, hdraws, hrefused⟩
      · exact hrefused.tradeKept hs hf
      · obtain ⟨hu, hfu⟩ := hdraws.tradeKept hs hf hprop
        exact hrefused.tradeKept hu hfu

/-- A trade leaves the teams and the zones alone. -/
theorem trade_frame {op : TradeOp} (h : (op.run s).state? = some t) :
    t.teams = s.teams ∧ t.zones = s.zones := by
  have hstay : Stays [.output, .database, .update .property, .properties, .sampMoney, .profileMoney,
      .streamer, .pickups] op.run := by
    cases op <;> unfold TradeOp.run <;> infer_instance
  refine state_of_wp (P := fun t => t.teams = s.teams ∧ t.zones = s.zones)
    (hstay.invariant (fun k hk a b hab ha => ?_) ⟨rfl, rfl⟩) h
  have hframe := Kind.frame hab
  have hkinds : k.writesTeams = false ∧ k ≠ .zones ∧ k ≠ .zoneData := by
    simp only [List.mem_cons, List.not_mem_nil, or_false] at hk
    rcases hk with rfl | rfl | rfl | rfl | rfl | rfl | rfl | rfl <;> simp [Kind.writesTeams]
  exact ⟨(hframe.teams hkinds.1).trans ha.1, (hframe.zones hkinds.2.1 hkinds.2.2).trans ha.2⟩

theorem trade_kept {op : TradeOp} (h : s.Kept) (hf : s.Sound) (ht : (op.run s).state? = some t) :
    t.Kept := by
  obtain ⟨prop, pr, hprop, hpr⟩ := exists_of_run ht
  have hkept : s.TradeKept t := state_of_wp (wp_trade_tradeKept h hf hprop hpr) ht
  obtain ⟨hteams, hzones⟩ := trade_frame ht
  refine ⟨hkept.platform ▸ hkept.properties, ?_, ?_, ?_, hkept.propertiesApart, ?_, ?_,
    hkept.profilesApart⟩
  · rw [hteams, hkept.platform]
    exact h.teams.mono (hkept.others _ (by decide)) fun _ _ _ _ h => h
  · rw [hzones]
    refine h.zones.mono (hkept.others _ (by decide)) fun _ _ _ _ h => ⟨?_, h.owner, ?_, h.spawnpoint⟩
    · rw [hkept.platform]
      exact h.name
    · rw [hkept.platform, hteams]
      exact h.color
  · rw [hkept.platform]
    exact hkept.profiles.mono (hkept.others _ (by decide)) fun _ _ _ _ h => h
  · exact hteams ▸ h.apart.teams
  · exact hzones ▸ h.apart.zones

end Trade

/-! ## Runs of setters -/

/-- The setters and the operations that change an owner. -/
inductive SetterOp where
  | propertyName (o : OID) (name : Text)
  | propertyValue (o : OID) (value : ℤ)
  | propertyProfit (o : OID) (profit : ℤ)
  | trade (op : TradeOp)
  | teamName (t : OID) (name : Text)
  | teamColor (t : OID) (color : ℤ)
  | zoneName (z : ℤ) (name : Text)
  | zoneOwner (z : ℤ) (owner : OID)
  | zoneSpawnPoint (z : ℤ) (waypoint : OID)
  | nickname (p : ℤ) (nickname : Text)
  | password (p : ℤ) (password : Text)
  | adminLevel (p : ℤ) (level : ℤ)
  | banned (p : ℤ) (b : Bool)
  deriving DecidableEq

namespace SaveableItem

/-- A value of the document that is stored for an item. -/
def storedAt (s : Server) (c : Collection) (path : List Field) (item : SaveableItem) :
    Option (Bson Field) :=
  (s.database.stored c item.uniqueid).bind fun doc => doc.at? path

end SaveableItem

namespace SetterOp

def run : SetterOp → Game Unit
  | propertyName o name => Property.setName o name
  | propertyValue o value => Property.setValue o value
  | propertyProfit o profit => Property.setProfit o profit
  | trade op => op.run
  | teamName t name => Team.setName t name
  | teamColor t color => Team.setColor t color
  | zoneName z name => GangZoneItem.setName z name
  | zoneOwner z owner => GangZoneItem.setOwner z owner
  | zoneSpawnPoint z waypoint => GangZoneItem.setSpawnPoint z waypoint
  | nickname p text => Profile.setNickname p text
  | password p text => Profile.setPassword p text
  | adminLevel p level => Profile.setAdminLevel p level
  | banned p b => Profile.setBanned p b

/-- The text an operation encodes. -/
def text : SetterOp → Text
  | propertyName _ name => name
  | teamName _ name => name
  | zoneName _ name => name
  | nickname _ text => text
  | password _ text => text
  | _ => []

/-- The text can be decoded again, and an update that fails leaves the document unchanged. -/
def admits (s : Server) (i : SetterOp × Env) : Bool :=
  decide (s.platform.utf8ToGBK (s.platform.gbkToUTF8 i.1.text) = i.1.text) &&
    Fault.allSound i.2.faults

/-- One operation, which may throw. -/
def step (s : Server) (i : SetterOp × Env) : Option Server :=
  if admits s i then (i.1.run (s.begin i.2)).state? else none

/-- What the operation writes, if its update is accepted, agrees with what the loaders compute:
a zone passes between teams of one colour, a team that has zones keeps its colour, and what is
set in a profile's archive was stored there before. -/
def coherent (s : Server) : SetterOp → Bool
  | teamColor t color => (s.teams.members.lookup t).all fun team =>
      !team.item.saves s .team [([.color], .int color)] ||
        s.zones.values.all fun zone => decide (zone.owner ≠ t) ||
          decide (zone.color = s.platform.int (color - 127))
  | zoneOwner z owner => (s.zones.lookup z).all fun zone =>
      !zone.item.saves s .gangzone [([.owner], .oid owner.data)] ||
        (s.teams.members.lookup owner).any fun team =>
          decide (zone.color = s.platform.int (team.color - 127))
  | nickname p text => (s.profiles.lookup p).all fun pr =>
      let path := [Field.archive, .gtasa, .reginfo, .nickname]
      let nick := s.platform.gbkToUTF8 text
      !pr.item.saves s .profile [(path, .string nick)] ||
        decide ((pr.item.storedAt s .profile path).bind Bson.asString = some nick) &&
          decide (nick = text)
  | adminLevel p level => (s.profiles.lookup p).all fun pr =>
      let path := [Field.archive, .gtasa, .mgmtlevel]
      !pr.item.saves s .profile [(path, .int level)] ||
        decide ((pr.item.storedAt s .profile path).bind Bson.asNumber = some (level : ℚ))
  | banned p b => (s.profiles.lookup p).all fun pr =>
      let path := [Field.archive, .gtasa, .banned]
      !pr.item.saves s .profile [(path, .bool b)] ||
        decide ((pr.item.storedAt s .profile path).bind Bson.asBool = some b)
  | _ => true

end SetterOp

section Run
open Server
variable {s t : Server} {op : SetterOp}

theorem asString_eq_some {b : Option (Bson Field)} {text : Text} :
    b.bind Bson.asString = some text ↔ b = some (.string text) := by
  rcases b with _ | b
  · simp
  · cases b <;> simp [Bson.asString]

theorem asNumber_eq_some {b : Option (Bson Field)} {q : ℚ} :
    b.bind Bson.asNumber = some q ↔ b = some (.number q) := by
  rcases b with _ | b
  · simp
  · cases b <;> simp [Bson.asNumber]

theorem asBool_eq_some {b : Option (Bson Field)} {x : Bool} :
    b.bind Bson.asBool = some x ↔ b = some (.bool x) := by
  rcases b with _ | b
  · simp
  · cases b <;> simp [Bson.asBool]

/-- What is stored for an item, in the document that is. -/
theorem storedAt_eq {c : Collection} {path : List Field} {item : SaveableItem} {doc : Document}
    (hdoc : s.database.stored c item.uniqueid = some doc) : item.storedAt s c path = doc.at? path := by
  rw [SaveableItem.storedAt, hdoc, Option.bind_some]

/-- An operation keeps the cache coherent. -/
theorem wp_setterOp (h : s.Kept) (hf : s.Sound)
    (htext : s.platform.utf8ToGBK (s.platform.gbkToUTF8 op.text) = op.text)
    (hC : op.coherent s = true) (htrade : ∀ o, op ≠ .trade o) :
    wp op.run (fun _ => Kept) (fun _ => Kept) s := by
  cases op with
  | trade o => exact absurd rfl (htrade o)
  | propertyName o name =>
    rw [SetterOp.run, Property.setName, wp_bind, wp_gets]
    exact Property.wp_set h hf (by decide) (fun _ => rfl) fun _ _ _ hread => hread.setName htext
  | propertyValue o value =>
    exact Property.wp_set h hf (by decide) (fun _ => rfl) fun _ _ _ hread => hread.setValue
  | propertyProfit o profit =>
    exact Property.wp_set h hf (by decide) (fun _ => rfl) fun _ _ _ hread => hread.setProfit
  | teamName t name =>
    rw [SetterOp.run, Team.setName, wp_bind, wp_gets]
    exact Team.wp_set h hf (by decide) (fun _ => rfl) (fun _ _ _ hread => hread.setName htext)
      fun _ _ _ _ _ _ _ hcolor => hcolor
  | teamColor t color =>
    refine Team.wp_set h hf (by decide) (fun _ => rfl) (fun _ _ _ hread => hread.setColor)
      fun team hteam hsaves z zone hzone howner _ => ?_
    simp only [SetterOp.coherent, hteam, Option.all_some, hsaves, Bool.not_true, Bool.false_or,
      List.all_eq_true, Bool.or_eq_true, decide_eq_true_eq] at hC
    exact (hC zone (Map.mem_values_of_lookup hzone)).resolve_left fun hne => hne howner
  | zoneName z name =>
    rw [SetterOp.run, GangZoneItem.setName, wp_bind, wp_gets]
    exact GangZoneItem.wp_set h hf (by decide) (fun _ => rfl) fun _ _ _ _ _ hread =>
      hread.setName htext
  | zoneOwner z owner =>
    refine GangZoneItem.wp_set h hf (by decide) (fun _ => rfl) fun zone hzone hsaves _ _ hread => ?_
    simp only [SetterOp.coherent, hzone, Option.all_some, hsaves, Bool.not_true, Bool.false_or,
      Option.any_eq_true, decide_eq_true_eq] at hC
    obtain ⟨team, hteam, hcolor⟩ := hC
    exact hread.setOwner hteam hcolor
  | zoneSpawnPoint z waypoint =>
    exact GangZoneItem.wp_set h hf (by decide) (fun _ => rfl) fun _ _ _ _ _ hread =>
      hread.setSpawnPoint
  | nickname p text =>
    rw [SetterOp.run, Profile.setNickname, wp_bind, wp_gets]
    refine Profile.wp_set (fun _ => rfl) h hf (by decide) (fun _ => rfl)
      fun pr hpr hsaves doc doc' hdoc hread => ?_
    simp only [SetterOp.coherent, hpr, Option.all_some, hsaves, Bool.not_true, Bool.false_or,
      Bool.and_eq_true, decide_eq_true_eq, storedAt_eq hdoc, asString_eq_some] at hC
    have hnick : s.platform.utf8ToGBK (s.platform.gbkToUTF8 text) = s.platform.gbkToUTF8 text :=
      htext.trans hC.2.symm
    exact hread.setNickname hnick hC.1
  | password p text =>
    rw [SetterOp.run, Profile.setPassword, wp_bind, wp_raiseIf]
    split
    · exact h
    rw [wp_bind, wp_gets, wp_bind, wp_orUndefined]
    exact fun hash _ => Profile.wp_set (fun _ => rfl) h hf (by decide) (fun _ => rfl)
      fun _ _ _ _ _ _ hread => hread.setPassword
  | adminLevel p level =>
    refine Profile.wp_set (fun _ => rfl) h hf (by decide) (fun _ => rfl)
      fun pr hpr hsaves doc doc' hdoc hread => ?_
    simp only [SetterOp.coherent, hpr, Option.all_some, hsaves, Bool.not_true, Bool.false_or,
      decide_eq_true_eq, storedAt_eq hdoc, asNumber_eq_some] at hC
    exact hread.setAdminLevel hC
  | banned p b =>
    refine Profile.wp_set (fun _ => rfl) h hf (by decide) (fun _ => rfl)
      fun pr hpr hsaves doc doc' hdoc hread => ?_
    simp only [SetterOp.coherent, hpr, Option.all_some, hsaves, Bool.not_true, Bool.false_or,
      decide_eq_true_eq, storedAt_eq hdoc, asBool_eq_some] at hC
    exact hread.setBanned hC

theorem kept_of_step {env : Env} (h : s.Kept) (hstep : SetterOp.step s (op, env) = some t)
    (hC : op.coherent (s.begin env) = true) : t.Kept := by
  rw [SetterOp.step] at hstep
  split at hstep
  case isFalse => cases hstep
  case isTrue hadmits =>
  simp only [SetterOp.admits, Bool.and_eq_true, decide_eq_true_eq] at hadmits
  have hbegin : (s.begin env).Kept :=
    ⟨h.properties, h.teams, h.zones.mono (fun _ => rfl) fun _ _ _ _ h => ⟨h.1, h.2, h.3, h.4⟩,
      h.profiles, ⟨h.apart.1, h.apart.2, h.apart.3, h.apart.4⟩⟩
  have hsound : (s.begin env).Sound := hadmits.2
  by_cases htrade : ∃ o, op = .trade o
  · obtain ⟨o, rfl⟩ := htrade
    exact trade_kept hbegin hsound hstep
  · exact state_of_wp (wp_setterOp hbegin hsound hadmits.1 hC fun o ho => htrade ⟨o, ho⟩) hstep

end Run

/-- In a run whose setters agree with the loaders, every state is coherent. -/
theorem setters_coherent (s : Server) (ops : List (SetterOp × Env)) (hs : s.Coherent)
    (hids : s.IdsApart)
    (h : Meets SetterOp.step (fun s i => i.1.coherent (s.begin i.2) = true) s ops) :
    AllSteps SetterOp.step (fun _ _ t => t.Coherent) s ops := by
  refine AllSteps.of_invariant (I := Server.Kept) (fun s i t hkept ht hC => ?_) (hs.kept hids) h
  have ht' := kept_of_step hkept ht hC
  exact ⟨ht'.coherent, ht'⟩

/-! ## A player and a property -/

namespace Demo

/-- The two bytes of a GBK character become the three of UTF-8, and ASCII stays. -/
def toUTF8 : Text → Text
  | 214 :: 208 :: text => 228 :: 184 :: 173 :: toUTF8 text
  | b :: text => b :: toUTF8 text
  | [] => []

def toGBK : Text → Text
  | 228 :: 184 :: 173 :: text => 214 :: 208 :: toGBK text
  | b :: text => b :: toGBK text
  | [] => []

/-- The code pages, for this character. -/
def codePages : Platform := { platform with gbkToUTF8 := toUTF8, utf8ToGBK := toGBK }

/-- The archive in the document of a player who has just registered. -/
def archive : Document :=
  [(.reginfo, .object [(.nickname, .string []), (.time, .date 0), (.ip, .string [])]),
   (.banned, .bool false),
   (.mgmtlevel, .int 0)]

/-- A registered player and a property on sale, both with their documents. -/
def registry : Server :=
  { initial with
    platform := codePages
    profiles := (∅ : Map ℤ Profile).insert 0 { buyer ⟨11⟩ with gamearchive := archive }
    properties := (∅ : Map OID Property).insert house houseOnSale
    database := { docs := fun
      | .profile => [Profile.document ⟨11⟩ [] [] [] [] 0]
      | .property => [Property.document house [] ⟨0, 0, 0⟩ 10 50 0]
      | _ => [] } }

end Demo

/-- The registry is what the loaders made of the documents. -/
theorem Demo.registry_coherent : Demo.registry.Coherent := by
  have hprofile : Profile.Reads Demo.codePages (Profile.document ⟨11⟩ [] [] [] [] 0)
      { Demo.buyer ⟨11⟩ with gamearchive := Demo.archive } :=
    ⟨rfl, rfl, rfl, ⟨[], rfl, rfl⟩, by decide +kernel, rfl⟩
  have hproperty : Property.Reads Demo.codePages (Property.document Demo.house [] ⟨0, 0, 0⟩ 10 50 0)
      Demo.houseOnSale :=
    ⟨rfl, ⟨[], rfl, rfl⟩, by decide +kernel, by decide +kernel, by decide +kernel,
      ⟨_, _, _, rfl, rfl, rfl, rfl, rfl, rfl⟩⟩
  refine ⟨fun o prop id hprop hid => ?_, fun _ _ _ h => (by cases h), fun _ _ _ h => (by cases h),
    fun p pr id hpr hid => ?_⟩
  · obtain ⟨-, rfl⟩ := Map.lookup_insert_empty.mp hprop
    obtain ⟨-, rfl⟩ := SaveableItem.key_eq_some.mp hid
    exact ⟨_, by rfl, Property.loads_iff.mpr hproperty⟩
  · obtain ⟨-, rfl⟩ := Map.lookup_insert_empty.mp hpr
    obtain ⟨-, rfl⟩ := SaveableItem.key_eq_some.mp hid
    exact ⟨_, by rfl, Profile.loads_iff.mpr hprofile⟩

theorem Demo.registry_idsApart : Demo.registry.IdsApart := by
  refine ⟨fun j k _ _ _ hj hk _ _ => ?_, fun _ _ _ _ _ h => (by cases h),
    fun _ _ _ _ _ h => (by cases h), fun j k _ _ _ hj hk _ _ => ?_⟩
  · exact (Map.lookup_insert_empty.mp hj).1.trans (Map.lookup_insert_empty.mp hk).1.symm
  · exact (Map.lookup_insert_empty.mp hj).1.trans (Map.lookup_insert_empty.mp hk).1.symm

/-- A run whose steps all pass the test. -/
theorem meets_coherent {s : Server} {ops : List (SetterOp × Env)}
    (h : checkSteps SetterOp.step (fun s i => i.1.coherent (s.begin i.2)) s ops = true) :
    Meets SetterOp.step (fun s i => i.1.coherent (s.begin i.2) = true) s ops :=
  meets_of_check (fun _ _ h => h) h

/-- A property is renamed, and purchased by a player whose level is set to what it is. -/
theorem setters_coherent_registry :
    AllSteps SetterOp.step (fun _ _ t => t.Coherent) Demo.registry
      [(.propertyName Demo.house [65, 214, 208], Demo.env), (.trade (.purchase Demo.house 0), Demo.env),
        (.adminLevel 0 0, Demo.env)] :=
  setters_coherent Demo.registry _ Demo.registry_coherent Demo.registry_idsApart
    (meets_coherent (by decide +kernel))

namespace Server

/-- The nickname of a player who is registered is the one in the document. -/
def showsNickname (s : Server) (p : ℤ) : Bool :=
  (s.profiles.lookup p).all fun pr => !pr.item.uniqueid.isSet ||
    decide (((((pr.item.storedAt s .profile [.archive, .gtasa]).bind asObj).bind
      fun archive => Doc.at? archive [.reginfo, .nickname]).bind Bson.asString).map
      s.platform.utf8ToGBK = some pr.gamedata.nickname)

theorem Coherent.showsNickname {s : Server} (h : s.Coherent) (p : ℤ) : s.showsNickname p = true := by
  rw [Server.showsNickname]
  cases hpr : s.profiles.lookup p with
  | none => rfl
  | some pr =>
    rw [Option.all_some, Bool.or_eq_true, Bool.not_eq_true', ← Bool.not_eq_true,
      ← imp_iff_not_or, decide_eq_true_iff]
    intro hset
    obtain ⟨doc, hdoc, hloads⟩ := h.profiles p pr _ hpr (SaveableItem.key_eq_some.mpr ⟨hset, rfl⟩)
    have hreads := Profile.loads_iff.mp hloads
    obtain ⟨name, hname, hnickname⟩ := hreads.nickname
    rw [storedAt_eq hdoc, hreads.archive, Option.bind_some, hname, Option.map_some, hnickname]

end Server

/-- `SetNickname` caches the encoded nickname, and the loader reads the decoded one. -/
theorem nickname_cached_encoded :
    ¬∀ (s : Server) (ops : List (SetterOp × Env)), s.Coherent → s.IdsApart →
      AllSteps SetterOp.step (fun _ _ t => t.Coherent) s ops := by
  intro hall
  have hrun := hall Demo.registry ([] ++ [(SetterOp.nickname 0 [214, 208], Demo.env)])
    Demo.registry_coherent Demo.registry_idsApart
  exact not_allSteps [] (SetterOp.nickname 0 [214, 208], Demo.env) (fun _ t => t.showsNickname 0)
    (fun _ _ h => h.showsNickname 0) (by decide +kernel) hrun

end FreshCity
