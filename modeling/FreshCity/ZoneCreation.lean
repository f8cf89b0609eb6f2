import FreshCity.Existence
import FreshCity.ZoneRegistry

/-!
# The creation of a gang zone

The last choice of the wizard stores a point to spawn at, stores the zone and registers it. Whether
all of this goes through is a function of the server before. The owner is read from the player once
more, and nobody asks whether he still leads the team.
-/
namespace FreshCity
open Imperative Prog Run

/-! ## What is stored -/

namespace Server
variable (s : Server) (pr : Profile) (data : GangZoneCreationInfo)

/-- The document of the point where the owners will spawn. -/
def pointDocument : Document :=
  Waypoint.document { waypoint := data.spawnpoint } (s.env.genoid (s.genoids + 1)).val
    pr.item.uniqueid (s.platform.gbkToUTF8 (ascii "_gz_sp_" ++ (s.env.genoid s.genoids).val.str))

/-- The database once the point is stored. -/
def withPoint : Database := (s.database.afterInsert .waypoint (s.pointDocument pr data)).next

/-- The document of the zone. -/
def zoneDocument : Document :=
  GangZoneItem.document (s.env.genoid (s.genoids + 2)).val (s.platform.gbkToUTF8 data.name) pr.team
    (Dialog.lowerCorner data) (Dialog.upperCorner data) (s.env.genoid (s.genoids + 1)).val data.trigger

/-- The point is stored. -/
def storesPoint : Bool :=
  s.config.collection .waypoint &&
    (ItemOp.create (s.pointDocument pr data) false).returns .waypoint {} s.database

/-- The zone is stored and read back, and its owner is there. -/
def storesZone : Bool :=
  s.config.collection .gangzone &&
    (ItemOp.create (s.zoneDocument pr data) true).returns .gangzone {} (s.withPoint pr data) &&
    decide (pr.team ∈ s.teams.members)

/-- What the last choice looks up and writes is all there, and the zone has an id of its own. -/
def creates : Bool :=
  s.storesPoint pr data && s.storesZone pr data &&
    decide (s.platform.gangZoneId s.samp.zones ∉ s.zones)

/-- The zone that a player is creating. -/
def creationOf (p : ℤ) : Option (Option GangZoneCreationInfo) :=
  (s.profiles.lookup p).map (·.pvars.gzCreate)

/-- The zone is registered and stored, and the wizard is over. -/
structure ZoneBuilt (p : ℤ) (t : Server) : Prop where
  zone : ∃ zone, zone.zone ∉ s.zones ∧ t.zones = s.zones.insert zone.zone zone ∧
    zone.owner = pr.team ∧ zone.item.rawdata = s.zoneDocument pr data
  zones : t.database.docs .gangzone = s.database.docs .gangzone ++ [s.zoneDocument pr data]
  points : t.database.docs .waypoint = s.database.docs .waypoint ++ [s.pointDocument pr data]
  creation : t.creationOf p = some none

end Server

section Programs
variable {s u : Server} {pr : Profile} {data : GangZoneCreationInfo} {p : ℤ} {c : Collection}
  {doc : Document} {item : SaveableItem} {E : Exn → Server → Prop}

/-- A document is inserted and not read back. -/
theorem wp_createUnread : wp (SaveableItem.create c doc false)
    (fun _ q => ∃ trace, q.2 =
      { s with database := (s.database.afterInsert c doc).next, trace := trace })
    (fun _ q => OnlyDatabase s q.2) (item, s) := by
  simp only [SaveableItem.create, wp_bind, wp_self, wp_raiseIf, wp_shared, wp_insert,
    wp_getLastError, wp_orRaise, wp_assign]
  split
  · exact ⟨_, _, rfl⟩
  refine ⟨fun _ _ => ⟨_, _, rfl⟩, fun _ => ⟨fun _ _ => ⟨_, _, rfl⟩, fun _ => ?_⟩⟩
  split
  · exact ⟨_, _, rfl⟩
  · exact ⟨fun _ _ => ⟨_, rfl⟩, fun _ => ⟨_, _, rfl⟩⟩

/-- A document is inserted and read back. -/
theorem wp_createRead (h : s.database.Reliable) : wp (SaveableItem.create c doc true)
    (fun _ q => ∃ trace, q.2 =
      { s with database := (s.database.afterInsert c doc).next.next, trace := trace })
    (fun _ q => OnlyDatabase s q.2) (item, s) := by
  simp only [SaveableItem.create, SaveableItem.refetch, wp_bind, wp_self, wp_raiseIf, wp_shared,
    wp_insert, wp_getLastError, wp_findOne, wp_orRaise, wp_assign, wp_raise, wp_when, if_true]
  split
  · exact ⟨_, _, rfl⟩
  refine ⟨fun _ _ => ⟨_, _, rfl⟩, fun _ => ⟨fun _ _ => ⟨_, _, rfl⟩, fun _ => ?_⟩⟩
  split
  · exact ⟨_, _, rfl⟩
  refine ⟨fun id hid => ?_, fun _ => ⟨_, _, rfl⟩⟩
  split
  · exact ⟨_, _, rfl⟩
  refine ⟨fun _ _ => ⟨_, _, rfl⟩, fun _ => ?_⟩
  split
  · refine ⟨fun _ _ => ⟨_, _, rfl⟩, fun _ => ⟨_, _, rfl⟩⟩
  · have hfind : (s.database.afterInsert c doc).next.afterFind c (byId id) =
        (s.database.afterInsert c doc).next.next := h.afterInsert.next.afterFind
    exact ⟨_, by rw [← hfind]; rfl⟩

/-- An insertion that is accepted appends the document, and touches no other collection. -/
theorem docs_inserted {db : Database} {id : OID} (h : db.Reliable)
    (haccepted : db.refusesInsert c doc = false) (hid : documentId doc = some id) :
    (db.afterInsert c doc).docs = Function.update db.docs c (db.docs c ++ [doc]) := by
  simp only [Database.refusesInsert, Bool.or_eq_false_iff, Bool.not_eq_false', List.isEmpty_iff]
    at haccepted
  obtain ⟨⟨hthrow, -⟩, herror⟩ := haccepted
  have hdocs := (Database.docs_afterInsert h hthrow herror hid).2
  funext c'
  by_cases hc : c' = c
  · subst hc
    rw [hdocs, Function.update_self]
  · rw [Function.update_of_ne hc, Database.afterInsert]
    cases db.fault with
    | error e => rfl
    | _ =>
      simp only [Database.written, Database.insert]
      split
      · rfl
      · simp [Database.setError, Database.setDocs, Database.next, hc]

theorem accepts_of_returns {db : Database} {fetch : Bool}
    (h : (ItemOp.create doc fetch).returns c item db = true) : db.refusesInsert c doc = false := by
  simp only [ItemOp.returns, ItemOp.accepted, Bool.and_eq_true, Bool.not_eq_true'] at h
  exact h.1.2

/-- A document that was created gives its id to the item. -/
theorem uniqueid_after_create {db : Database} {fetch : Bool} {id : OID}
    (h : (ItemOp.create doc fetch).returns c item db = true) (hid : documentId doc = some id) :
    ((ItemOp.create doc fetch).after c item db).uniqueid = id := by
  have haccepted : (ItemOp.create doc fetch).accepted c item db = true := by
    rw [ItemOp.returns, Bool.and_eq_true] at h
    exact h.1
  rw [ItemOp.after, if_pos haccepted]
  simp only [hid, Option.elim_some]
  split
  · rw [SaveableItem.refetched]
    split <;> rfl
  · rfl

/-- The point where the owners will spawn is stored. -/
def storePoint (data : GangZoneCreationInfo) (creator : OID) : Game Waypoint := do
  let sp ← Waypoint.ofTarget data.spawnpoint
  let id ← genOID
  sp.create (ascii "_gz_sp_" ++ id.str) creator

theorem finishCreation_eq : Dialog.finishCreation p data = (do
    raiseIf (data.step ≠ 15) (.runtimeError .unfinishedSteps)
    let pr ← Profile.ref p
    let sp ← storePoint data pr.item.uniqueid
    let zone ← GangZoneItem.ofNew data.name pr.team (Dialog.lowerCorner data) (Dialog.upperCorner data)
      sp.item.uniqueid data.trigger
    let _ ← GangZoneManager.add zone
    Profile.delVar p fun v => { v with gzCreate := none }
    sendClientMessage p .zoneCreated) := by
  simp only [Dialog.finishCreation, storePoint, bind_assoc]

/-- The point is stored with the first two ids. -/
theorem wp_storePoint : wp (storePoint data pr.item.uniqueid)
    (fun sp u => s.storesPoint pr data = true ∧
      sp.item.uniqueid = (s.env.genoid (s.genoids + 1)).val ∧
      ∃ trace, u = { s with
        database := s.withPoint pr data, genoids := s.genoids + 2, trace := trace })
    (fun _ u => s.storesPoint pr data = false ∧
      ∃ db trace n, u = { s with database := db, genoids := n, trace := trace }) s := by
  simp only [storePoint, Waypoint.ofTarget, SaveableItem.unsaved, configCollection, genOID,
    Waypoint.create, wp_bind, wp_gets, wp_raiseIf, wp_pure, wp_modify, wp_withLocal]
  split
  case isTrue hunknown =>
    have hunknown' : s.config.collection .waypoint = false := by simpa using hunknown
    exact ⟨by simp [Server.storesPoint, hunknown'], _, _, _, rfl⟩
  case isFalse hknown =>
    have hknown' : s.config.collection .waypoint = true := by simpa using hknown
    refine wp_mono (wp_and wp_createUnread create_leaves) (fun _ q hq => ?_) (fun _ q hq => ?_)
    · obtain ⟨⟨trace, hstate⟩, hreturns, hitem⟩ := hq
      have hstores : s.storesPoint pr data = true := by
        rw [Server.storesPoint, hknown', Bool.true_and]
        exact hreturns
      exact ⟨hstores, hitem ▸ uniqueid_after_create hreturns rfl, trace, hstate⟩
    · obtain ⟨⟨db, trace, hstate⟩, hreturns, -⟩ := hq
      refine ⟨?_, db, trace, _, hstate⟩
      rw [Server.storesPoint, hknown', Bool.true_and]
      exact hreturns

/-- The owner's data are read if the owner is there, and the rest of the zone is left alone. -/
theorem wp_loadOwnerData_owner {zone : GangZoneItem} {id point owner : OID} {name : Text}
    {lower upper : CoordinatePlane} {trigger : Coordinate3D}
    (hraw : zone.item.rawdata = GangZoneItem.document id name owner lower upper point trigger) :
    wp GangZoneItem.loadOwnerData
      (fun _ q => owner ∈ s.teams.members ∧ q.1.owner = owner ∧ q.1.zone = zone.zone ∧
        q.1.item = zone.item ∧
        ∃ trace color, q.2 = { s with trace := trace, samp := { s.samp with zoneColor := color } })
      (fun _ q => owner ∉ s.teams.members ∧ q.2 = s) (zone, s) := by
  simp only [GangZoneItem.loadOwnerData, rethrowAs, check, teamMgr, getItem, gangZoneShowForAll, emit,
    wp_handle, wp_bind, wp_self, wp_shared, wp_assign, wp_gets, wp_modify, wp_orRaise, wp_ite,
    wp_raise, ite_self, hraw, Map.mem_iff_lookup]
  have howner : ((GangZoneItem.document id name owner lower upper point trigger).field? .owner).bind
      Bson.asOid = some owner.data := rfl
  refine ⟨fun name' _ => ⟨fun owner' howner' => ⟨fun team hteam => ⟨fun spawn _ => ?_,
    fun hnone => ?_⟩, fun hnone => ?_⟩, fun hnone => ?_⟩, fun hnone => ?_⟩
  · obtain rfl := Option.some.inj (howner.symm.trans howner')
    exact ⟨⟨team, hteam⟩, rfl, trivial, trivial, _, _, rfl⟩
  · cases hnone
  · obtain rfl := Option.some.inj (howner.symm.trans howner')
    refine ⟨fun hmem => ?_, trivial⟩
    obtain ⟨team, hteam⟩ := hmem
    cases hnone.symm.trans hteam
  · cases hnone
  · cases hnone

/-- An area and a trigger change nothing else of a zone, and nothing that is stored. -/
theorem wp_placeArea_built {zone : GangZoneItem} : wp GangZoneItem.placeArea
    (fun _ q => q.1.owner = zone.owner ∧ q.1.zone = zone.zone ∧ q.1.item = zone.item ∧
      ∃ areas pickups streamer, q.2 = { s with
        areas := areas, pickups := pickups, streamer := streamer })
    (fun _ _ => False) (zone, s) := by
  simp only [GangZoneItem.placeArea, DynamicAreaManager.create, DynamicAreaManager.add,
    DynamicAreaManager.destruct, PickupManager.create, PickupManager.add, PickupManager.destruct,
    createDynamicRectangle, createDynamicPickup, destroyDynamicArea, destroyDynamicPickup, wp_bind,
    wp_self, wp_shared, wp_assign, wp_gets, wp_modify, wp_pure, wp_ite]
  split <;> split <;> exact ⟨trivial, trivial, trivial, _, _, _, rfl⟩

/-- A new zone is built if it is stored and its owner is there. -/
theorem wp_ofNew_built {name : Text} {owner point : OID} {lower upper : CoordinatePlane}
    {trigger : Coordinate3D} (h : s.database.Reliable)
    (hdoc : doc = GangZoneItem.document (s.env.genoid s.genoids).val (s.platform.gbkToUTF8 name) owner
      lower upper point trigger) :
    wp (GangZoneItem.ofNew name owner lower upper point trigger)
      (fun zone t => (s.config.collection .gangzone &&
          (ItemOp.create doc true).returns .gangzone {} s.database &&
          decide (owner ∈ s.teams.members)) = true ∧
        zone.zone = s.platform.gangZoneId s.samp.zones ∧ zone.owner = owner ∧
        zone.item.rawdata = doc ∧ t.zones = s.zones ∧ t.profiles = s.profiles ∧
        t.database.docs = Function.update s.database.docs .gangzone
          (s.database.docs .gangzone ++ [doc]))
      (fun _ t => (s.config.collection .gangzone &&
          (ItemOp.create doc true).returns .gangzone {} s.database &&
          decide (owner ∈ s.teams.members)) = false ∧ t.zones = s.zones) s := by
  simp only [GangZoneItem.ofNew, SaveableItem.unsaved, configCollection, GangZoneItem.construct,
    allocate, gangZoneCreate, genOID, wp_bind, wp_gets, wp_raiseIf, wp_pure, wp_modify, wp_handle,
    wp_map, wp_withLocal, wp_shared, wp_part]
  split
  case isTrue hunknown =>
    have hunknown' : s.config.collection .gangzone = false := by simpa using hunknown
    exact ⟨by simp [hunknown'], trivial⟩
  case isFalse hknown =>
    have hknown' : s.config.collection .gangzone = true := by simpa using hknown
    rw [← hdoc, hknown', Bool.true_and]
    have hid : documentId doc = some (s.env.genoid s.genoids).val := by
      rw [hdoc]
      rfl
    refine wp_mono (wp_and (wp_createRead h) (wp_and (wp_createItem h) create_leaves))
      (fun _ q hq => ?_) (fun _ q hq => ?_)
    · obtain ⟨item, u⟩ := q
      obtain ⟨⟨trace, hstate⟩, ⟨-, hholds⟩, hreturns, -⟩ := hq
      have hreturns' : (ItemOp.create doc true).returns .gangzone {} s.database = true := hreturns
      have hraw : item.rawdata = doc := hholds.rawdata
      have hzones : u.zones = s.zones := congrArg (·.zones) hstate
      have hteams : u.teams = s.teams := congrArg (·.teams) hstate
      have hprofiles : u.profiles = s.profiles := congrArg (·.profiles) hstate
      have hdatabase : u.database = (s.database.afterInsert .gangzone doc).next.next :=
        congrArg (·.database) hstate
      have hdocs : u.database.docs = Function.update s.database.docs .gangzone
          (s.database.docs .gangzone ++ [doc]) := by
        rw [hdatabase]
        exact docs_inserted h (accepts_of_returns hreturns') hid
      rw [hreturns', Bool.true_and]
      clear hstate hholds hreturns hdatabase
      refine wp_mono (wp_loadOwnerData_owner (hraw.trans hdoc)) (fun _ r hr => ?_) (fun _ r hr => ?_)
      · obtain ⟨hmem, howner, hzone, hitem, trace, color, hstate⟩ := hr
        rw [hteams] at hmem
        refine wp_mono wp_placeArea_built (fun _ v hv => ?_) (fun _ _ hf => hf.elim)
        obtain ⟨howner', hzone', hitem', areas, pickups, streamer, hstate'⟩ := hv
        refine ⟨by simpa using hmem, hzone'.trans hzone, howner'.trans howner, ?_, ?_, ?_, ?_⟩
        · rw [hitem', hitem]
          exact hraw
        · rw [hstate', hstate]
          exact hzones
        · rw [hstate', hstate]
          exact hprofiles
        · rw [hstate', hstate]
          exact hdocs
      · obtain ⟨hmem, hstate⟩ := hr
        rw [hteams] at hmem
        rw [hstate]
        exact ⟨by simpa using hmem, hzones⟩
    · obtain ⟨item, u⟩ := q
      obtain ⟨⟨db, trace, hstate⟩, -, hreturns, -⟩ := hq
      have hreturns' : (ItemOp.create doc true).returns .gangzone {} s.database = false := hreturns
      have hzones : u.zones = s.zones := congrArg (·.zones) hstate
      exact ⟨by simp [hreturns'], hzones⟩

/-- The last choice registers a zone exactly if every step is done and all that it looks up and
writes is there. -/
theorem wp_finishCreation (h : s.database.Reliable) (hpr : s.profiles.lookup p = some pr) :
    wp (Dialog.finishCreation p data)
      (fun _ t => if data.step = 15 ∧ s.creates pr data = true then s.ZoneBuilt pr data p t
        else t.zones = s.zones)
      (fun _ t => if data.step = 15 ∧ s.creates pr data = true then s.ZoneBuilt pr data p t
        else t.zones = s.zones) s := by
  rw [finishCreation_eq, wp_bind, wp_raiseIf]
  split
  case isTrue hstep =>
    rw [if_neg fun hdone => hstep hdone.1]
  case isFalse hstep =>
  have hdone : data.step = 15 := not_not.mp hstep
  simp only [hdone, true_and]
  have hfailed : s.storesPoint pr data = false ∨ s.storesZone pr data = false →
      ∀ t, t.zones = s.zones →
        if s.creates pr data = true then s.ZoneBuilt pr data p t else t.zones = s.zones := by
    intro hfails t ht
    rw [if_neg]
    · exact ht
    · rw [Server.creates]
      rcases hfails with hfails | hfails <;> simp [hfails]
  simp only [Profile.ref, wp_bind, wp_gets, wp_orUndefined, hpr, Option.some.injEq, forall_eq']
  refine wp_mono wp_storePoint (fun sp u hu => ?_) (fun _ u hu => ?_)
  case refine_2 =>
    obtain ⟨hstores, db, trace, n, rfl⟩ := hu
    exact hfailed (.inl hstores) _ rfl
  obtain ⟨hpoint, hsp, trace, rfl⟩ := hu
  have hpointid : documentId (s.pointDocument pr data) = some (s.env.genoid (s.genoids + 1)).val := rfl
  rw [hsp, wp_bind]
  have hreliable : (s.withPoint pr data).Reliable := h.afterInsert.next
  have hdoc : s.zoneDocument pr data = GangZoneItem.document (s.env.genoid (s.genoids + 2)).val
      (s.platform.gbkToUTF8 data.name) pr.team (Dialog.lowerCorner data) (Dialog.upperCorner data)
      (s.env.genoid (s.genoids + 1)).val data.trigger := rfl
  refine wp_mono (wp_ofNew_built hreliable hdoc) (fun zone u hu => ?_) (fun _ u hu => ?_)
  · obtain ⟨hstores, hid, howner, hraw, hzones, hprofiles, hdocs⟩ := hu
    have hstores' : s.storesZone pr data = true := hstores
    change zone.zone = s.platform.gangZoneId s.samp.zones at hid
    change u.zones = s.zones at hzones
    change u.profiles = s.profiles at hprofiles
    change u.database.docs = Function.update (s.withPoint pr data).docs .gangzone
      ((s.withPoint pr data).docs .gangzone ++ [s.zoneDocument pr data]) at hdocs
    clear hstores
    rw [wp_bind, GangZoneManager.add, wp_bind, wp_gets, id_eq, hzones, hid, wp_ite]
    split
    case isTrue hused =>
      have hcreates : s.creates pr data = false := by simp [Server.creates, hused]
      have hstay : Stays [.areas, .pickups, .streamer, .sampZones] zone.destruct := inferInstance
      have hgone : wp zone.destruct (fun _ t => t.zones = s.zones) (fun _ t => t.zones = s.zones) u :=
        hstay.invariant (fun k hk _ _ hab ha => ((Kind.frame hab).zones (by rintro rfl; simp at hk)
          (by rintro rfl; simp at hk)).trans ha) hzones
      rw [hcreates]
      simp only [Profile.delVar, Profile.modifyVars, sendClientMessage, emit, wp_bind]
      exact hgone
    case isFalse hfree =>
      have hcreates : s.creates pr data = true := by
        simp [Server.creates, hpoint, hstores', hfree]
      have hpoints : (s.withPoint pr data).docs = Function.update s.database.docs .waypoint
          (s.database.docs .waypoint ++ [s.pointDocument pr data]) := by
        rw [Server.storesPoint, Bool.and_eq_true] at hpoint
        exact docs_inserted h (accepts_of_returns hpoint.2) hpointid
      rw [hcreates]
      simp only [Profile.delVar, Profile.modifyVars, sendClientMessage, emit, wp_bind, wp_pure,
        wp_modify, if_true]
      refine ⟨⟨zone, hid ▸ hfree, ?_, howner, hraw⟩, ?_, ?_, ?_⟩
      · change u.zones.insert _ zone = _
        rw [hid, hzones]
      · change u.database.docs .gangzone = _
        rw [hdocs, Function.update_self, hpoints]
        rfl
      · change u.database.docs .waypoint = _
        rw [hdocs, hpoints]
        rfl
      · rw [Server.creationOf, Map.lookup_adjust_self (hprofiles ▸ hpr)]
        rfl
  · exact hfailed (.inr hu.1) u hu.2

end Programs

/-! ## The last choice -/

/-- The wizard whose last choice an event makes, if all its steps are done. -/
def Event.finishes (s : Server) : Event → Option (ℤ × Profile × GangZoneCreationInfo)
  | .dialogResponse p dialogid response listitem _ =>
    if Event.dialog dialogid = some .gangZoneCreateProcess ∧ response = 1 ∧ listitem = 2 then
      (s.profiles.lookup p).bind fun pr =>
        (pr.pvars.gzCreate.filter fun data => data.step = 15).map fun data => (p, pr, data)
    else none
  | _ => none

section Responses
variable {s t : Server} {p dialogid response listitem : ℤ} {inputtext : Text} {env : Env}

theorem Event.finishes_eq_some {e : Event} {q : ℤ} {pr : Profile} {data : GangZoneCreationInfo} :
    e.finishes s = some (q, pr, data) ↔ ∃ dialogid inputtext,
      e = .dialogResponse q dialogid 1 2 inputtext ∧
      Event.dialog dialogid = some .gangZoneCreateProcess ∧ s.profiles.lookup q = some pr ∧
      pr.pvars.gzCreate = some data ∧ data.step = 15 := by
  constructor
  · intro h
    cases e
    case dialogResponse p dialogid response listitem inputtext =>
      simp only [Event.finishes, Option.ite_none_right_eq_some, Option.bind_eq_some_iff,
        Option.map_eq_some_iff, Option.filter_eq_some_iff, decide_eq_true_eq, Prod.mk.injEq] at h
      obtain ⟨⟨hdialog, rfl, rfl⟩, _, hpr, _, ⟨hdata, hstep⟩, rfl, rfl, rfl⟩ := h
      exact ⟨dialogid, inputtext, rfl, hdialog, hpr, hdata, hstep⟩
    all_goals cases h
  · rintro ⟨dialogid, inputtext, rfl, hdialog, hpr, hdata, hstep⟩
    simp [Event.finishes, hdialog, hpr, hdata, hstep]

/-- A choice other than the last registers no zone. -/
theorem wp_otherChoice (hitem : listitem ≠ 2) : wp (Dialog.gangZoneCreateProcess p listitem)
    (fun _ t => t.zones = s.zones) (fun _ t => t.zones = s.zones) s := by
  simp only [Dialog.gangZoneCreateProcess, Profile.getVar, Profile.ref, wp_bind, wp_gets,
    wp_orUndefined, wp_orRaise]
  refine fun pr hpr => ⟨fun data hdata => ?_, fun _ => trivial⟩
  split
  case h_3 => exact absurd rfl hitem
  all_goals rfl

/-- A choice of the wizard builds a zone, or leaves the zones as they are. -/
theorem step_process (hdialog : Event.dialog dialogid = some .gangZoneCreateProcess)
    (hsound : (s.begin env).database.Reliable)
    (h : s.step (.dialogResponse p dialogid response listitem inputtext, env) = some t) :
    (∃ pr data, (Event.dialogResponse p dialogid response listitem inputtext).finishes s =
        some (p, pr, data) ∧ (s.begin env).creates pr data = true ∧
      (s.begin env).ZoneBuilt pr data p t) ∨
    t.zones = s.zones ∧ ∀ q pr data,
      (Event.dialogResponse p dialogid response listitem inputtext).finishes s = some (q, pr, data) →
      (s.begin env).creates pr data = false := by
  have hout : ∀ a b, Kind.output.change a b → a.zones = s.zones → b.zones = s.zones := by
    rintro a _ ⟨_, _, rfl⟩ ha
    exact ha
  cases hfinishes : (Event.dialogResponse p dialogid response listitem inputtext).finishes s with
  | none =>
    refine .inr ⟨?_, fun _ _ _ hnone => nomatch hnone⟩
    refine Server.of_step (P := fun u => u.zones = s.zones) h ?_
    refine wp_dialogResponse hout rfl fun pr d hpr hd hresponse => ?_
    obtain rfl : .gangZoneCreateProcess = d := Option.some.inj (hdialog.symm.trans hd)
    have hresponse' : response = 1 := by simpa [Dialog.mustResponse] using hresponse
    by_cases hitem : listitem = 2
    · subst hitem hresponse'
      change wp (Dialog.gangZoneCreateProcess p 2) _ _ _
      simp only [Dialog.gangZoneCreateProcess, Profile.getVar, Profile.ref, wp_bind, wp_gets,
        wp_orUndefined, wp_orRaise]
      refine fun pr' hpr' => ⟨fun data hdata => ?_, fun _ => rfl⟩
      rw [Dialog.finishCreation, wp_bind, wp_raiseIf]
      split
      case isTrue => rfl
      case isFalse hstep =>
        have hsome := Event.finishes_eq_some.mpr ⟨dialogid, inputtext, rfl, hdialog, hpr', hdata,
          not_not.mp hstep⟩
        cases hfinishes.symm.trans hsome
    · exact wp_otherChoice (s := s.begin env) hitem
  | some f =>
    obtain ⟨q, pr, data⟩ := f
    obtain ⟨_, _, hevent, -, hpr, hdata, hstep⟩ := Event.finishes_eq_some.mp hfinishes
    obtain ⟨rfl, rfl, rfl, rfl, rfl⟩ : p = q ∧ dialogid = _ ∧ response = 1 ∧ listitem = 2 ∧
        inputtext = _ := by simpa using hevent
    let P : Server → Prop := fun u =>
      if data.step = 15 ∧ (s.begin env).creates pr data = true then (s.begin env).ZoneBuilt pr data p u
      else u.zones = s.zones
    have hmessage : ∀ u trace, P u → P { u with trace := trace } := by
      intro u trace hu
      simp only [P] at hu ⊢
      split at hu
      case isTrue hcreates =>
        rw [if_pos hcreates]
        exact ⟨hu.zone, hu.zones, hu.points, hu.creation⟩
      case isFalse hcreates =>
        rw [if_neg hcreates]
        exact hu
    have hbuilt : P t := by
      refine state_of_wp (P := P) ?_ h
      change wp (Event.run (.dialogResponse p dialogid 1 2 inputtext)) _ _ (s.begin env)
      have hpr' : (s.begin env).profiles.lookup p = some pr := hpr
      rw [wp_of_eq (run_response hdialog hpr'), reported, wp_handle]
      refine wp_mono ?_ (fun _ _ hu => hu) (fun e u hu => hmessage u _ hu)
      change wp (Dialog.gangZoneCreateProcess p 2) _ _ _
      simp only [Dialog.gangZoneCreateProcess, Profile.getVar, Profile.ref, wp_bind, wp_gets,
        wp_orUndefined, wp_orRaise, hpr', hdata, Option.some.injEq, forall_eq', reduceCtorEq,
        false_imp_iff, and_true]
      exact wp_finishCreation hsound hpr'
    simp only [P, hstep, true_and] at hbuilt
    split at hbuilt
    case isTrue hcreates => exact .inl ⟨pr, data, rfl, hcreates, hbuilt⟩
    case isFalse hcreates =>
      refine .inr ⟨hbuilt, fun q pr' data' hsome => ?_⟩
      obtain ⟨rfl, rfl, rfl⟩ : p = q ∧ pr = pr' ∧ data = data' := by simpa using hsome
      simpa using hcreates

end Responses

/-! ## Who leads the owner -/

namespace Server

/-- The player leads a team. -/
def leads (s : Server) (p : ℤ) (o : OID) : Bool :=
  (s.profiles.lookup p).any fun pr =>
    (s.teams.members.lookup o).any fun team => decide (team.leader = pr.item.uniqueid)

end Server

namespace Event

/-- A zone is only created by a player who leads the team that will own it. -/
def createsLed (s : Server) (i : Event × Env) : Bool :=
  (i.1.finishes s).all fun f => !(s.begin i.2).creates f.2.1 f.2.2 || s.leads f.1 f.2.1.team

/-- Whoever makes a choice of the wizard leads the owners of the zones that it registers. -/
def CreatorsLead (s : Server) (i : Event × Env) (t : Server) : Prop :=
  ∀ p dialogid response listitem inputtext,
    i.1 = .dialogResponse p dialogid response listitem inputtext →
    dialog dialogid = some .gangZoneCreateProcess →
    ∀ z zone, t.zones.lookup z = some zone → z ∉ s.zones → t.leads p zone.owner = true

variable {s t : Server} {p dialogid response listitem : ℤ} {inputtext : Text} {env : Env} {o : OID}

/-- The wizard changes neither who leads a team nor who the player is. -/
theorem leads_process (hdialog : dialog dialogid = some .gangZoneCreateProcess)
    (h : s.step (.dialogResponse p dialogid response listitem inputtext, env) = some t) :
    t.leads p o = s.leads p o := by
  have hkept : t.teams = s.teams ∧
      (t.profiles.lookup p).map (·.item) = (s.profiles.lookup p).map (·.item) := by
    refine Server.step_invariant (I := fun u => u.teams = s.teams ∧
      (u.profiles.lookup p).map (·.item) = (s.profiles.lookup p).map (·.item)) h
      (fun k hk a b hab ha => ?_) ⟨rfl, rfl⟩
    have hframe := Kind.frame hab
    simp only [footprint, hdialog, Option.elim_some, Dialog.footprint, List.mem_cons,
      List.not_mem_nil, or_false] at hk
    by_cases hvars : k = .profileVars
    · subst hvars
      obtain ⟨q, g, rfl⟩ := hab
      refine ⟨ha.1, ?_⟩
      rw [← ha.2]
      refine Map.map_lookup_adjust (g := fun pr : Profile => pr.item) ?_ _ q p
      exact fun _ => rfl
    · have hwrites : k.writesTeams = false ∧ k.writesProfiles = false := by
        revert hvars
        rcases hk with rfl | rfl | rfl | rfl | rfl | rfl | rfl | rfl | rfl | rfl | rfl | rfl <;>
          simp [Kind.writesTeams, Kind.writesProfiles]
      rw [hframe.teams hwrites.1, hframe.profiles hwrites.2]
      exact ha
  have hleads : ∀ u : Server, u.leads p o = ((u.profiles.lookup p).map (·.item)).any fun item =>
      (u.teams.members.lookup o).any fun team => decide (team.leader = item.uniqueid) := by
    intro u
    rw [Server.leads]
    cases u.profiles.lookup p <;> rfl
  rw [hleads, hleads, hkept.1, hkept.2]

theorem creatorsLead_iff {i : Event × Env} (hsound : ∀ f ∈ i.2.faults, f.isSound = true)
    (h : s.step i = some t) : CreatorsLead s i t ↔ createsLed s i = true := by
  obtain ⟨e, env⟩ := i
  cases hfinishes : e.finishes s with
  | none =>
    refine iff_of_true ?_ (by rw [createsLed, hfinishes]; rfl)
    rintro p dialogid response listitem inputtext rfl hdialog z zone hzone hnew
    rcases step_process hdialog hsound h with ⟨_, _, hsome, -, -⟩ | ⟨hsame, -⟩
    · cases hfinishes.symm.trans hsome
    · exact absurd (Map.mem_iff_lookup.mpr ⟨zone, hsame ▸ hzone⟩) hnew
  | some f =>
    obtain ⟨p, pr, data⟩ := f
    obtain ⟨dialogid, inputtext, rfl, hdialog, hpr, -, -⟩ := finishes_eq_some.mp hfinishes
    have hled : createsLed s (.dialogResponse p dialogid 1 2 inputtext, env) =
        (!(s.begin env).creates pr data || s.leads p pr.team) := by
      rw [createsLed, hfinishes]
      rfl
    rw [hled]
    rcases step_process hdialog hsound h with ⟨pr', data', hsome, hcreates, hbuilt⟩ | ⟨hsame, hnone⟩
    · obtain ⟨rfl, rfl⟩ : pr = pr' ∧ data = data' := by simpa using hfinishes.symm.trans hsome
      obtain ⟨zone, hfree, hzones, howner, -⟩ := hbuilt.zone
      rw [hcreates, Bool.not_true, Bool.false_or, ← leads_process hdialog h]
      constructor
      · intro hlead
        rw [← howner]
        refine hlead p dialogid 1 2 inputtext rfl hdialog zone.zone zone ?_ hfree
        rw [hzones, Map.lookup_insert_ite, if_pos rfl]
      · intro hleads q dialogid' response listitem inputtext' heq _ z zone' hzone' hnew
        obtain ⟨rfl, -⟩ := Event.dialogResponse.inj heq
        rw [hzones, Map.lookup_insert_ite] at hzone'
        split at hzone'
        · obtain rfl := Option.some.inj hzone'
          rwa [howner]
        · exact absurd (Map.mem_iff_lookup.mpr ⟨zone', hzone'⟩) hnew
    · rw [hnone p pr data hfinishes]
      refine iff_of_true ?_ (by simp)
      rintro q _ _ _ _ - - z zone hzone hnew
      exact absurd (Map.mem_iff_lookup.mpr ⟨zone, hsame ▸ hzone⟩) hnew

end Event

/-- In a run whose faults are noticed, the creator of a zone leads its owner every time exactly if
he leads his team every time he finishes a creation that goes through. -/
theorem creators_lead_iff (s : Server) (is : List (Event × Env))
    (hsound : ∀ i ∈ is, ∀ f ∈ i.2.faults, f.isSound = true) :
    AllSteps Server.step Event.CreatorsLead s is ↔
      Meets Server.step (fun s i => Event.createsLed s i = true) s is := by
  induction is generalizing s with
  | nil => exact Iff.rfl
  | cons i is ih =>
    refine forall₂_congr fun t ht => and_congr ?_ ?_
    · exact Event.creatorsLead_iff (hsound i List.mem_cons_self) ht
    · exact ih t fun j hj => hsound j (List.mem_cons_of_mem i hj)

namespace Demo

/-- A player with an id, in his team. -/
def captain : Profile := { item := { uniqueid := ⟨42⟩ }, addr := 0, team := team }

/-- A team with a leader. -/
def ledBy (o leader : OID) (players : Map ℤ OID) : Team :=
  { item := { uniqueid := o }, ingameteamid := 1, leader := leader, onlineplayers := players }

/-- The player leads his team, and another player leads the other one. -/
def leading : Server :=
  { initial with
    profiles := (∅ : Map ℤ Profile).insert 0 captain
    teams := { members := ((∅ : Map OID Team).insert team
      (ledBy team ⟨42⟩ ((∅ : Map ℤ OID).insert 0 ⟨42⟩))).insert rivals (ledBy rivals ⟨43⟩ ∅) } }

/-- The wizard up to its last choice. -/
def wizard : List Event :=
  [.dialogResponse 0 19 1 0 [], .dialogResponse 0 20 1 0 (ascii "zone"), .clickMap 0 ⟨1, 5⟩,
    .clickMap 0 ⟨3, 2⟩, .dialogResponse 0 21 1 0 [], .dialogResponse 0 21 1 1 []]

/-- The other team is selected. -/
def desert : Event := .dialogResponse 0 24 1 0 rivals.str

/-- The last choice. -/
def finish : Event := .dialogResponse 0 21 1 2 []

end Demo

/-- The leader of a team creates a zone for it. -/
theorem leader_creates_zone :
    AllSteps Server.step Event.CreatorsLead Demo.leading (Demo.quietly (Demo.wizard ++ [Demo.finish])) :=
  (creators_lead_iff _ _ (by simp [Demo.quietly, Demo.env, Demo.wizard])).mpr
    (meets_of_check (b := Event.createsLed) (fun _ _ h => h) (by decide +kernel))

/-- A player who changes his team in between creates a zone for a team that he does not lead. -/
theorem deserter_creates_zone :
    ¬∀ (s : Server) (is : List (Event × Env)), (∀ i ∈ is, ∀ f ∈ i.2.faults, f.isSound = true) →
      AllSteps Server.step Event.CreatorsLead s is := by
  intro hall
  refine not_allSteps (T := Event.CreatorsLead) (Demo.quietly (Demo.wizard ++ [Demo.desert]))
    (Demo.finish, Demo.env)
    (fun s t => t.zones.entries.all fun e => decide (e.1 ∈ s.zones) || t.leads 0 e.2.owner)
    (fun s t h => ?_) (by decide +kernel)
    (hall Demo.leading _ (by simp [Demo.quietly, Demo.env, Demo.wizard]))
  refine List.all_eq_true.mpr fun e hmem => ?_
  by_cases hold : e.1 ∈ s.zones
  · simp [hold]
  · have hleads := h 0 21 1 2 [] rfl rfl e.1 e.2 (AList.mem_lookup_iff.mpr hmem) hold
    simp [hleads]

end FreshCity
