import FreshCity.Imperative.References
import FreshCity.KeptDocuments
import FreshCity.Registration

/-!
# References between documents

Zones, properties and teleport triggers refer to teams, waypoints and profiles by the ids of their
documents, in the database and in the objects that were loaded from it. Each of these ids is unset
or that of a document.
-/
namespace FreshCity
open Imperative Prog

/-- A collection, and the id of a document in it. -/
abbrev Reference : Type := Collection × OID

/-- The fields of a document that the gamemode follows, with the collections they lead to. -/
def Collection.links : Collection → List (Field × Collection)
  | .gangzone => [(.owner, .team), (.spawn, .waypoint)]
  | .property => [(.owner, .profile)]
  | .tptrigger => [(.waypoint, .waypoint)]
  | _ => []

/-- What a document of a collection refers to. -/
def documentReferences (c : Collection) (doc : Document) : Set Reference :=
  {r | ∃ k, (k, r.1) ∈ c.links ∧ (doc.field? k).bind Bson.asOid = some r.2.data}

def Documents.references (docs : Documents) : Set Reference :=
  {r | ∃ c, ∃ doc ∈ docs c, r ∈ documentReferences c doc}

/-- The ids of the documents, and the unset one. -/
def Documents.known (docs : Documents) : Set Reference :=
  {r | r.2 = OID.unset ∨ some r.2 ∈ docs.ids r.1}

def Profile.references (pr : Profile) : Set Reference :=
  {(.profile, pr.item.uniqueid), (.team, pr.team)}

def Team.references (team : Team) : Set Reference := {(.team, team.item.uniqueid)}

def GangZoneItem.references (zone : GangZoneItem) : Set Reference :=
  {(.team, zone.owner), (.team, zone.warinfo.attacker), (.waypoint, zone.spawnpoint)}

def Property.references (prop : Property) : Set Reference := {(.profile, prop.owner)}

def PickupClass.references : PickupClass → Set Reference
  | teleportTrigger waypoint => {(.waypoint, waypoint)}
  | _ => ∅

def EffectiveItem.references (item : EffectiveItem) : Set Reference := item.cls.references

namespace Server

/-- What the documents and the objects refer to. -/
def references (s : Server) : Set Reference :=
  Documents.references s.database.docs ∪ Map.mentions Profile.references s.profiles ∪
    Map.mentions Team.references s.teams.members ∪ Map.mentions GangZoneItem.references s.zones ∪
    Map.mentions Property.references s.properties ∪
    Map.mentions EffectiveItem.references s.pickups

/-- What may be referred to. -/
def known (s : Server) : Set Reference := Documents.known s.database.docs

/-- Failures are noticed, and every reference resolves. -/
structure Resolved (held : Set Reference) (s : Server) : Prop where
  reliable : s.database.Reliable
  resolves : Resolves references known held s

variable {s t : Server} {held held' : Set Reference}

theorem known_of_documentId {c : Collection} {doc : Document} {id : OID}
    (hdoc : doc ∈ s.database.docs c) (hid : documentId doc = some id) : (c, id) ∈ s.known :=
  .inr (List.mem_map.mpr ⟨doc, hdoc, hid⟩)

theorem known_unset (s : Server) (c : Collection) : (c, OID.unset) ∈ s.known := .inl rfl

theorem references_of_document {c : Collection} {doc : Document} (hdoc : doc ∈ s.database.docs c) :
    documentReferences c doc ⊆ s.references :=
  fun _ hr => .inl (.inl (.inl (.inl (.inl ⟨c, doc, hdoc, hr⟩))))

theorem references_of_profile {p : ℤ} {pr : Profile} (h : s.profiles.lookup p = some pr) :
    pr.references ⊆ s.references :=
  fun _ hr => .inl (.inl (.inl (.inl (.inr ⟨p, pr, h, hr⟩))))

theorem references_of_team {o : OID} {team : Team} (h : s.teams.members.lookup o = some team) :
    team.references ⊆ s.references := fun _ hr => .inl (.inl (.inl (.inr ⟨o, team, h, hr⟩)))

theorem references_of_zone {z : ℤ} {zone : GangZoneItem} (h : s.zones.lookup z = some zone) :
    zone.references ⊆ s.references := fun _ hr => .inl (.inl (.inr ⟨z, zone, h, hr⟩))

theorem references_of_property {o : OID} {prop : Property} (h : s.properties.lookup o = some prop) :
    prop.references ⊆ s.references := fun _ hr => .inl (.inr ⟨o, prop, h, hr⟩)

namespace Resolved

theorem take (h : s.Resolved held) (hknown : held' ⊆ s.known) : s.Resolved (held ∪ held') :=
  ⟨h.reliable, h.resolves.take hknown⟩

theorem takeStored (h : s.Resolved held) (hstored : held' ⊆ s.references) :
    s.Resolved (held ∪ held') := ⟨h.reliable, h.resolves.takeStored hstored⟩

theorem takeUnset (h : s.Resolved held) : s.Resolved (held ∪ {r | r.2 = OID.unset}) :=
  h.take fun _ => .inl

theorem drop (h : s.Resolved held) (hsub : held' ⊆ held) : s.Resolved held' :=
  ⟨h.reliable, h.resolves.drop hsub⟩

theorem dropAll (h : s.Resolved (held ∪ held')) : s.Resolved held := h.drop Set.subset_union_left

/-- Nothing known is forgotten, and every part stores what it stored, what was in hand or what is
known now. -/
theorem step {new : Set Reference} (h : s.Resolved held) (hreliable : t.database.Reliable)
    (hknown : s.known ⊆ t.known) (hnew : new ⊆ held ∪ t.known)
    (hdocs : Documents.references t.database.docs ⊆ Documents.references s.database.docs ∪ new)
    (hprofiles : Map.mentions Profile.references t.profiles ⊆
      Map.mentions Profile.references s.profiles ∪ new)
    (hteams : Map.mentions Team.references t.teams.members ⊆
      Map.mentions Team.references s.teams.members ∪ new)
    (hzones : Map.mentions GangZoneItem.references t.zones ⊆
      Map.mentions GangZoneItem.references s.zones ∪ new)
    (hproperties : Map.mentions Property.references t.properties ⊆
      Map.mentions Property.references s.properties ∪ new)
    (hpickups : Map.mentions EffectiveItem.references t.pickups ⊆
      Map.mentions EffectiveItem.references s.pickups ∪ new) : t.Resolved held := by
  refine ⟨hreliable, h.resolves.step hknown ?_⟩
  rintro r (((((hr | hr) | hr) | hr) | hr) | hr)
  · exact (hdocs hr).imp (fun hr => .inl (.inl (.inl (.inl (.inl hr))))) (hnew ·)
  · exact (hprofiles hr).imp (fun hr => .inl (.inl (.inl (.inl (.inr hr))))) (hnew ·)
  · exact (hteams hr).imp (fun hr => .inl (.inl (.inl (.inr hr)))) (hnew ·)
  · exact (hzones hr).imp (fun hr => .inl (.inl (.inr hr))) (hnew ·)
  · exact (hproperties hr).imp (fun hr => .inl (.inr hr)) (hnew ·)
  · exact (hpickups hr).imp .inr (hnew ·)

/-- The parts that hold references are the same. -/
theorem of_same (h : s.Resolved held) (hdatabase : t.database = s.database)
    (hprofiles : t.profiles = s.profiles) (hteams : t.teams.members = s.teams.members)
    (hzones : t.zones = s.zones) (hproperties : t.properties = s.properties)
    (hpickups : t.pickups = s.pickups) : t.Resolved held := by
  refine h.step (hdatabase ▸ h.reliable) ?_ Set.subset_union_left ?_ ?_ ?_ ?_ ?_ ?_
  · rw [known, known, hdatabase]
  · exact hdatabase ▸ Set.subset_union_left
  · exact hprofiles ▸ Set.subset_union_left
  · exact hteams ▸ Set.subset_union_left
  · exact hzones ▸ Set.subset_union_left
  · exact hproperties ▸ Set.subset_union_left
  · exact hpickups ▸ Set.subset_union_left

/-- The profiles changed. -/
theorem profiles {m : Map ℤ Profile} (h : s.Resolved held)
    (hm : Map.mentions Profile.references m ⊆ Map.mentions Profile.references s.profiles ∪ held) :
    Resolved held { s with profiles := m } :=
  h.step h.reliable subset_rfl Set.subset_union_left Set.subset_union_left hm
    Set.subset_union_left Set.subset_union_left Set.subset_union_left Set.subset_union_left

/-- The teams changed. -/
theorem teams {m : TeamManager} (h : s.Resolved held)
    (hm : Map.mentions Team.references m.members ⊆
      Map.mentions Team.references s.teams.members ∪ held) :
    Resolved held { s with teams := m } :=
  h.step h.reliable subset_rfl Set.subset_union_left Set.subset_union_left Set.subset_union_left hm
    Set.subset_union_left Set.subset_union_left Set.subset_union_left

/-- The zones changed. -/
theorem zones {m : Map ℤ GangZoneItem} (h : s.Resolved held)
    (hm : Map.mentions GangZoneItem.references m ⊆
      Map.mentions GangZoneItem.references s.zones ∪ held) : Resolved held { s with zones := m } :=
  h.step h.reliable subset_rfl Set.subset_union_left Set.subset_union_left Set.subset_union_left
    Set.subset_union_left hm Set.subset_union_left Set.subset_union_left

/-- The properties changed. -/
theorem properties {m : Map OID Property} (h : s.Resolved held)
    (hm : Map.mentions Property.references m ⊆
      Map.mentions Property.references s.properties ∪ held) :
    Resolved held { s with properties := m } :=
  h.step h.reliable subset_rfl Set.subset_union_left Set.subset_union_left Set.subset_union_left
    Set.subset_union_left Set.subset_union_left hm Set.subset_union_left

/-- The pickups changed. -/
theorem pickups {m : Map ℤ EffectiveItem} (h : s.Resolved held)
    (hm : Map.mentions EffectiveItem.references m ⊆
      Map.mentions EffectiveItem.references s.pickups ∪ held) :
    Resolved held { s with pickups := m } :=
  h.step h.reliable subset_rfl Set.subset_union_left Set.subset_union_left Set.subset_union_left
    Set.subset_union_left Set.subset_union_left Set.subset_union_left hm

end Resolved
end Server

/-! ## Writes to the documents -/

section Writes
variable {docs : Documents} {c : Collection} {id : OID} {m : Modifier} {doc d d' : Document}
  {held : Set Reference}

theorem documentReferences_of_links (h : c.links = []) : documentReferences c doc = ∅ :=
  Set.eq_empty_of_forall_notMem fun _ ⟨_, hk, _⟩ => absurd hk (h ▸ List.not_mem_nil)

theorem documentReferences_nil : documentReferences c [] = ∅ :=
  Set.eq_empty_of_forall_notMem fun _ ⟨_, _, h⟩ => by simp [Doc.field?] at h

/-- What a document and its id refer to. -/
def selfReferences (c : Collection) (doc : Document) : Set Reference :=
  documentReferences c doc ∪ {r | r.1 = c ∧ documentId doc = some r.2}

theorem selfReferences_nil : selfReferences c [] = ∅ := by
  rw [selfReferences, documentReferences_nil, Set.empty_union]
  exact Set.eq_empty_of_forall_notMem fun _ ⟨_, h⟩ => by simp [documentId, Doc.field?] at h

theorem references_insert : Documents.references ((Effect.insert c doc).write docs) ⊆
    docs.references ∪ documentReferences c doc := by
  rintro r ⟨c', d, hd, hr⟩
  by_cases hc : c' = c
  · subst hc
    rcases @Effect.write_insert_self docs c' doc with heq | heq
    · exact .inl ⟨c', d, heq ▸ hd, hr⟩
    · rw [heq, List.mem_append, List.mem_singleton] at hd
      rcases hd with hold | rfl
      · exact .inl ⟨c', d, hold, hr⟩
      · exact .inr hr
  · rw [Effect.write_insert_of_ne hc] at hd
    exact .inl ⟨c', d, hd, hr⟩

/-- An update of a document of a collection that stores at most references in hand. -/
class Modifier.Refers (c : Collection) (m : Modifier) (held : Set Reference) : Prop where
  references : ∀ {d d' : Document}, d.setAll m = some d' →
    documentReferences c d' ⊆ documentReferences c d ∪ held

theorem mem_updateFirst {q : Document → Bool} {l : List Document}
    (h : d ∈ Database.updateFirst q d' l) : d ∈ l ∨ d = d' := by
  induction l with
  | nil => exact .inl h
  | cons x l ih =>
    rw [Database.updateFirst] at h
    split at h
    · exact (List.mem_cons.mp h).elim .inr fun h => .inl (List.mem_cons_of_mem _ h)
    · rcases List.mem_cons.mp h with rfl | h
      · exact .inl (List.mem_cons_self ..)
      · exact (ih h).imp_left (List.mem_cons_of_mem _)

theorem references_update (hm : m.Refers c held) :
    Documents.references ((Effect.update c id m).write docs) ⊆ docs.references ∪ held := by
  rintro r ⟨c', d, hd, hr⟩
  change d ∈ (Database.update { docs := docs } c id m).docs c' at hd
  rw [Database.update_docs] at hd
  cases hset : (Database.stored { docs := docs } c id).bind fun d => d.setAll m with
  | none => exact .inl ⟨c', d, by rwa [hset] at hd, hr⟩
  | some d' =>
    obtain ⟨old, hfind, hset'⟩ := Option.bind_eq_some_iff.mp hset
    rw [hset] at hd
    by_cases hc : c' = c
    · subst hc
      simp only [Function.update_self] at hd
      rcases mem_updateFirst hd with hold | rfl
      · exact .inl ⟨c', d, hold, hr⟩
      · exact (hm.references hset' hr).imp_left fun hr =>
          ⟨c', old, List.mem_of_find?_eq_some hfind, hr⟩
    · simp only [Function.update_of_ne hc] at hd
      exact .inl ⟨c', d, hd, hr⟩

theorem references_remove : Documents.references ((Effect.remove c id).write docs) ⊆
    docs.references := by
  rintro r ⟨c', d, hd, hr⟩
  refine ⟨c', d, ?_, hr⟩
  by_cases hc : c' = c
  · subst hc
    change d ∈ Function.update docs c' _ c' at hd
    rw [Function.update_self] at hd
    exact List.mem_of_mem_filter hd
  · rwa [Effect.write_remove_of_ne hc] at hd

/-- Nothing is referred to from a profile. -/
instance : m.Refers .profile held :=
  ⟨fun _ => (documentReferences_of_links rfl).subset.trans (Set.empty_subset _)⟩

instance {v : Bson Field} : Modifier.Refers .property [([.lastdraw], v)] held where
  references hset r hr := by
    obtain ⟨k, hk, hid⟩ := hr
    refine .inl ⟨k, hk, ?_⟩
    obtain ⟨rfl, -⟩ : k = .owner ∧ r.1 = .profile := by simpa [Collection.links] using hk
    rwa [Doc.field?_setAll_of_ne hset (by simp)] at hid

/-- A new owner that is in hand. -/
theorem Modifier.refers_owner {owner : OID}
    (h : ∀ c', (.owner, c') ∈ c.links → (c', owner) ∈ held) :
    Modifier.Refers c [([.owner], .oid owner.data)] held := ⟨fun {d d'} hset r hr => by
  obtain ⟨k, hk, hid⟩ := hr
  by_cases howner : k = .owner
  · subst howner
    obtain rfl : d' = d.setField .owner (.oid owner.data) := by
      rw [Doc.setAll_singleton, Doc.setAt_singleton] at hset
      exact (Option.some.inj hset).symm
    rw [Doc.field?_setField, if_pos rfl] at hid
    obtain ⟨c', id⟩ := r
    obtain rfl : owner = id := congrArg OID.mk (Option.some.inj hid)
    exact .inr (h c' hk)
  · refine .inl ⟨k, hk, ?_⟩
    rwa [Doc.field?_setAll_of_ne hset (by simp [howner])] at hid⟩

end Writes

/-! ## What stores no references -/

section Changes
set_option synthInstance.maxSize 3000
open Server
variable {s t : Server} {held : Set Reference} {α τ : Type} {c : Collection} {id : OID}
  {m : Modifier} {doc : Document} {e : Effect} {q : Document → Bool}

/-- The kinds of change that store no references. -/
def Kind.leavesReferences : Kind → Bool
  | database => false
  | insertProfile _ => false
  | profileItem => false
  | profileTeam => false
  | insertTeam => false
  | adjustTeam => false
  | zones => false
  | zoneData => false
  | pickups => false
  | properties => false
  | _ => true

theorem Kind.mentions_profiles {k : Kind} (h : k.change s t) (hk : k.leavesReferences = true) :
    Map.mentions Profile.references t.profiles ⊆ Map.mentions Profile.references s.profiles := by
  by_cases hw : k.writesProfiles = false
  · rw [(frame h).profiles hw]
  · cases k <;> simp_all only [Kind.leavesReferences, Kind.writesProfiles, not_true_eq_false,
      Bool.false_eq_true]
    case eraseProfile p =>
      obtain rfl := h
      exact Map.mentions_erase
    all_goals
      obtain ⟨_, _, rfl⟩ := h
      exact Map.mentions_adjust_same fun _ => rfl

theorem Kind.mentions_teams {k : Kind} (h : k.change s t) (hk : k.leavesReferences = true) :
    Map.mentions Team.references t.teams.members ⊆
      Map.mentions Team.references s.teams.members := by
  by_cases hw : k.writesTeams = false
  · rw [(frame h).teams hw]
  · cases k <;> simp_all only [Kind.leavesReferences, Kind.writesTeams, not_true_eq_false,
      Bool.false_eq_true]
    case teamIds =>
      obtain ⟨_, rfl⟩ := h
      exact subset_rfl
    case eraseTeam o =>
      obtain ⟨_, -, rfl⟩ := h
      exact Map.mentions_erase
    case clearTeams =>
      obtain rfl := h
      exact Map.mentions_empty.subset.trans (Set.empty_subset _)
    case teamRoster =>
      obtain ⟨_, _, rfl⟩ := h
      exact Map.mentions_adjust_same fun _ => rfl

/-- A change of such a kind keeps the references. -/
theorem Kind.resolved {k : Kind} (h : k.change s t) (hk : k.leavesReferences = true)
    (hs : s.Resolved held) : t.Resolved held := by
  have hframe := frame h
  have hdatabase := hframe.database (by rintro rfl; cases hk)
  refine hs.step (hdatabase ▸ hs.reliable) ?_ Set.subset_union_left
    (hdatabase ▸ Set.subset_union_left) ((mentions_profiles h hk).trans Set.subset_union_left)
    ((mentions_teams h hk).trans Set.subset_union_left) ?_ ?_ ?_
  · rw [known, known, hdatabase]
  · rw [hframe.zones (by rintro rfl; cases hk) (by rintro rfl; cases hk)]
    exact Set.subset_union_left
  · rw [hframe.properties (by rintro rfl; cases hk)]
    exact Set.subset_union_left
  · rw [hframe.pickups (by rintro rfl; cases hk)]
    exact Set.subset_union_left

/-- A program that stores no references. -/
theorem keeps_resolved_of_stays {K : List Kind} {x : Game α} (hx : Stays K x)
    (hK : ∀ k ∈ K, k.leavesReferences = true) : Keeps (Resolved held) x :=
  hx.keeps fun k hk _ _ hab ha => Kind.resolved hab (hK k hk) ha

/-- The kinds of change around the references. -/
abbrev apartFromReferences : List Kind :=
  [.output, .readConfig, .samp, .sampMoney, .sampZones, .streamer, .createTimer .zone,
   .createTimer .profile, .createTimer .race, .createTimer .nothing, .destroyTimer, .rearmTimer,
   .counters, .config, .profileLoaded, .profileSignIn, .profileKills, .profileRole, .profileVars,
   .profileRace, .profileGame, .profileMoney, .teamIds, .teamRoster, .clearTeams, .areas, .races,
   .reload .team, .reload .gangzone, .reload .property,
   .setVar .raceCreate, .setVar .raceJoined, .setVar .gzCreate, .setVar .propertyCreation,
   .setVar .propertyLastviewtime, .setVar .propertyLastviewed]

theorem keeps_resolved_apart {x : Game α} (hx : Stays apartFromReferences x) :
    Keeps (Resolved held) x := keeps_resolved_of_stays hx (by simp [Kind.leavesReferences])

instance (priority := low) keeps_resolved {x : Game α} [hx : Stays apartFromReferences x] :
    Keeps (Resolved held) x := keeps_resolved_apart hx

instance : Keeps (Resolved held) (emit e) :=
  keeps_of_wp fun _ h => h.of_same rfl rfl rfl rfl rfl rfl

/-- A method that stores no references around its object. -/
instance (priority := low) keeps_resolved_method {x : Method τ α}
    [hx : MethodStays apartFromReferences x] :
    Keeps (fun q : τ × Server => q.2.Resolved held) x := by
  refine keeps_of_wp fun q hq => ?_
  have hresolved : ∀ r : τ × Server, Path Kind.change apartFromReferences q.2 r.2 →
      r.2.Resolved held := fun r hr => hr.invariant (fun k hk _ _ hab ha => Kind.resolved hab
        (by revert k; simp [Kind.leavesReferences]) ha) hq
  exact wp_mono (hx.path q) (fun _ r hr => hresolved r (path_of_methodPath hr))
    (fun _ r hr => hresolved r (path_of_methodPath hr))

theorem resolved_droppable : Droppable Resolved := fun _ _ _ hsub h => h.drop hsub

theorem selfReferences_known (h : s.Resolved held) (hdoc : doc ∈ s.database.docs c) :
    selfReferences c doc ⊆ s.known := by
  rintro ⟨c', id⟩ (hr | ⟨hc, hid⟩)
  · exact h.resolves.stored (references_of_document hdoc hr)
  · obtain rfl : c' = c := hc
    exact known_of_documentId hdoc hid

/-- The unset reference is always in hand. -/
theorem keeps_resolved_unset {x : Game α}
    (hx : Keeps (Resolved (held ∪ {r | r.2 = OID.unset})) x) : Keeps (Resolved held) x :=
  keeps_of_wp fun _ hs => wp_mono (hx.wp_of_keeps hs.takeUnset) (fun _ _ h => h.dropAll)
    (fun _ _ h => h.dropAll)

/-! ## The client -/

/-- The documents changed. -/
theorem Server.Resolved.stored {db : Database} {trace : List Effect} (h : s.Resolved held)
    (hreliable : db.Reliable)
    (hids : ∀ c, Documents.ids s.database.docs c <+: Documents.ids db.docs c)
    (hdocs : Documents.references db.docs ⊆ Documents.references s.database.docs ∪ held) :
    Resolved held { s with database := db, trace := trace } :=
  h.step hreliable (fun r hr => hr.imp_right fun hmem => (hids r.1).subset hmem)
    Set.subset_union_left hdocs Set.subset_union_left Set.subset_union_left Set.subset_union_left
    Set.subset_union_left Set.subset_union_left

/-- The next operation meets its fault. -/
theorem Server.Resolved.met {trace : List Effect} (h : s.Resolved held) :
    Resolved held { s with database := s.database.next, trace := trace } :=
  h.stored h.reliable.next (fun _ => List.prefix_rfl) Set.subset_union_left

instance : Keeps (Resolved held) nextFault := keeps_of_wp fun _ h => by
  rw [wp_nextFault]
  exact ⟨fun _ _ => h.met, fun _ => h.met⟩

instance : Keeps (Resolved held) (issue e) := keeps_of_wp fun _ h => by
  rw [wp_issue]
  exact ⟨fun _ _ => h.met, fun _ => h.met⟩

/-- A write that met a fault was made or not. -/
theorem Server.Resolved.written {write : Database → Database} (h : s.Resolved held)
    (hdocs : (write s.database.next).docs = e.write s.database.docs)
    (hfaults : (write s.database.next).faults = s.database.next.faults)
    (hids : ∀ c, Documents.ids s.database.docs c <+: Documents.ids (e.write s.database.docs) c)
    (hreferences : Documents.references (e.write s.database.docs) ⊆
      Documents.references s.database.docs ∪ held) :
    ((s.issued e).setDatabase (s.database.next.written write s.database.fault)).Resolved held := by
  have happlied : Resolved held
      { s with database := write s.database.next, trace := e :: s.trace } :=
    h.stored (h.reliable.next.of_faults hfaults) (hdocs ▸ hids) (hdocs ▸ hreferences)
  cases s.database.fault with
  | error text =>
    exact h.stored (h.reliable.next.of_faults rfl) (fun _ => List.prefix_rfl) Set.subset_union_left
  | none => exact happlied
  | throws exn => exact happlied
  | vanished => exact happlied

/-- A document is inserted whose references are in hand. -/
theorem keeps_resolved_insert (hdoc : documentReferences c doc ⊆ held) :
    Keeps (Resolved held) (insert c doc) := keeps_of_wp fun s h => by
  have hfaults : (s.database.next.insert c doc).faults = s.database.next.faults := by
    rw [Database.insert]
    split <;> rfl
  rw [wp_insert]
  refine ⟨fun _ _ => h.met, fun _ => h.written Database.docs_insert hfaults
    (fun _ => Effect.prefix_insert.map _) (references_insert.trans ?_)⟩
  exact Set.union_subset_union_right _ hdoc

instance [hm : m.LeavesId] [hr : m.Refers c held] : Keeps (Resolved held) (update c id m) :=
  keeps_of_wp fun s h => by
    have hupdated : s.database.next.updated c id m s.database.fault =
        s.database.next.written (fun db => db.update c id m) s.database.fault := by
      have hsound := h.reliable.fault
      cases hf : s.database.fault <;> first | rfl | simp [hf, Fault.isSound] at hsound
    rw [wp_update]
    refine ⟨fun _ _ => h.met, fun _ => ?_⟩
    rw [Database.afterUpdate, hupdated]
    refine h.written Database.docs_update (Database.faults_update ..) (fun c' => ?_)
      (references_update hr)
    rw [Effect.ids_update]

/-- Nothing refers to a gang zone. -/
theorem not_zone_of_mem_references {r : Reference} (h : r ∈ s.references) : r.1 ≠ .gangzone := by
  rcases h with (((((⟨c, doc, -, k, hk, -⟩ | ⟨_, pr, -, hr⟩) | ⟨_, team, -, hr⟩) |
    ⟨_, zone, -, hr⟩) | ⟨_, prop, -, hr⟩) | ⟨_, item, -, hr⟩)
  · cases c <;> simp_all [Collection.links]
    rcases hk with ⟨-, hc⟩ | ⟨-, hc⟩ <;> simp [hc]
  · rcases hr with rfl | rfl <;> simp
  · obtain rfl := hr
    simp
  · rcases hr with rfl | rfl | rfl <;> simp
  · obtain rfl := hr
    simp
  · rw [EffectiveItem.references] at hr
    cases hcls : item.cls <;> simp_all [PickupClass.references]

/-- With nothing in hand, the document of a zone may go. -/
instance : Keeps (Resolved ∅) (remove .gangzone id) := keeps_of_wp fun s h => by
  have hremoved : ∀ trace, Resolved ∅
      { s with database := s.database.next.remove .gangzone id, trace := trace } := by
    refine fun trace => ⟨h.reliable.next, fun r hr => ?_, Set.empty_subset _⟩
    have hremove : Documents.references (s.database.next.remove .gangzone id).docs ⊆
        Documents.references s.database.docs := references_remove
    have hold : r ∈ s.references := hr.imp_left (Or.imp_left (Or.imp_left (Or.imp_left
      (Or.imp_left fun hr => hremove hr))))
    refine (h.resolves.stored hold).imp_right fun hmem => ?_
    have hdocs : (s.database.next.remove .gangzone id).docs r.1 = s.database.docs r.1 :=
      Effect.write_remove_of_ne (not_zone_of_mem_references hold)
    change some r.2 ∈ ((s.database.next.remove .gangzone id).docs r.1).map documentId
    rwa [hdocs]
  simp only [remove, wp_bind, wp_issue]
  refine ⟨fun _ _ => h.met, fun _ => ?_⟩
  cases hfault : s.database.fault with
  | error text =>
    exact h.stored (h.reliable.next.of_faults rfl) (fun _ => List.prefix_rfl) Set.subset_union_left
  | _ => exact hremoved _

/-- What is found is a document, or there is none. -/
instance yields_findOne : Yields Resolved held (selfReferences c) (findOne c q) := ⟨fun s h => by
  rw [wp_findOne]
  refine ⟨fun _ _ => h.met, fun _ => ?_⟩
  rw [h.reliable.afterFind, h.reliable.found]
  refine h.met.take ?_
  split
  · exact selfReferences_nil.subset.trans (Set.empty_subset _)
  · cases hfind : (s.database.docs c).find? q with
    | none => exact selfReferences_nil.subset.trans (Set.empty_subset _)
    | some doc => exact selfReferences_known h.met (List.mem_of_find?_eq_some hfind)⟩

instance : Keeps (Resolved held) (findOne c q) := yields_findOne.keeps resolved_droppable

/-- A loop over the documents of a collection, whose references are in hand. -/
theorem keeps_resolved_fetchAll {body : Document → Game Unit}
    (hbody : ∀ doc held, selfReferences c doc ⊆ held → Keeps (Resolved held) (body doc)) :
    Keeps (Resolved held) (fetchAllFromDatabase c body) := by
  refine within_bind (j := fun _ => within_bind (j := fun _ => keeps_of_wp fun s hs => ?_))
  let all : Set Reference := {r | ∃ doc ∈ s.database.docs c, r ∈ selfReferences c doc}
  have hall : s.Resolved (held ∪ all) :=
    hs.take fun r ⟨doc, hdoc, hr⟩ => selfReferences_known hs hdoc hr
  rw [wp_bind, wp_gets]
  refine wp_mono (wp_forEach (J := fun _ t => t.Resolved (held ∪ all)) _ hall
    fun doc hdoc t ht => ?_) (fun _ _ h => h.dropAll) (fun _ _ h => h.dropAll)
  have hkeeps : Keeps (Resolved (held ∪ all)) (body doc) :=
    hbody doc _ fun r hr => .inr ⟨doc, hdoc, hr⟩
  exact (within_bind (j := fun _ => hkeeps)).wp_of_keeps ht

/-! ## `SaveableItem` -/

/-- What an item refers to. -/
def SaveableItem.references (item : SaveableItem) (c : Collection) : Set Reference :=
  {(c, item.uniqueid)} ∪ documentReferences c item.rawdata

theorem SaveableItem.references_document {item : SaveableItem} (hraw : item.rawdata = doc)
    (hid : documentId doc = some item.uniqueid) : item.references c ⊆ selfReferences c doc := by
  rintro r (rfl | hr)
  · exact .inr ⟨rfl, hid⟩
  · exact .inl (hraw ▸ hr)

/-- An object and the state around it, where what the object refers to is known. -/
abbrev ResolvedWith (f : τ → Set Reference) (held : Set Reference) (q : τ × Server) : Prop :=
  q.2.Resolved (held ∪ f q.1)

section ResolvedWith
variable {f : τ → Set Reference}

/-- What a method leaves to the state around its object keeps what the object refers to. -/
instance keeps_resolvedWith_shared {x : Game α} [hx : ∀ held, Keeps (Resolved held) x] :
    Keeps (ResolvedWith f held) (shared x) := keeps_of_wp fun q hq => by
  rw [wp_shared]
  exact (hx _).wp_of_keeps hq

/-- A write to the object that refers to nothing else. -/
theorem keeps_resolvedWith_assign {g : τ → τ} (h : ∀ a, f (g a) ⊆ f a) :
    Keeps (ResolvedWith f held) (assign g : Method τ Unit) := keeps_of_wp fun _ hq =>
  hq.drop (Set.union_subset_union_right _ (h _))

/-- A method of a part of the object keeps what the object refers to. -/
theorem keeps_resolvedWith_part {ρ : Type} {g : ρ → Set Reference} {get : τ → ρ} {put : ρ → τ → τ}
    {x : Method ρ α} (hget : ∀ a, g (get a) ⊆ f a) (hput : ∀ a b, f (put b a) ⊆ f a ∪ g b)
    (hx : ∀ held', held ⊆ held' → Keeps (ResolvedWith g held') x) :
    Keeps (ResolvedWith f held) (part get put x) := keeps_of_wp fun q hq => by
  have hall : ResolvedWith g (held ∪ f q.1) (get q.1, q.2) :=
    Server.Resolved.take hq ((hget q.1).trans (Set.subset_union_right.trans hq.resolves.inHand))
  have hstore : ∀ t : ρ × Server, ResolvedWith g (held ∪ f q.1) t →
      ResolvedWith f held (put t.1 q.1, t.2) := fun t ht => Server.Resolved.drop ht <| by
    rw [Set.union_assoc]
    exact Set.union_subset_union_right _ (hput q.1 t.1)
  rw [wp_part]
  exact wp_mono ((hx _ Set.subset_union_left).wp_of_keeps hall) (fun _ => hstore) (fun _ => hstore)

/-- An object is stored back with references that are known. -/
theorem keeps_resolved_focus {get : Server → Option τ} {put : τ → Server → Server}
    {x : Method τ α} (hget : ∀ s a, get s = some a → f a ⊆ s.references)
    (hput : ∀ a s, s.Resolved (held ∪ f a) → (put a s).Resolved held)
    (hx : Keeps (ResolvedWith f held) x) : Keeps (Resolved held) (focus get put x) :=
  keeps_of_wp fun s hs => by
    rw [wp_focus]
    intro a ha
    exact wp_mono (hx.wp_of_keeps (s := (a, s)) (hs.takeStored (hget s a ha)))
      (fun _ q hq => hput q.1 q.2 hq) (fun _ q hq => hput q.1 q.2 hq)

end ResolvedWith

namespace SaveableItem

instance : Keeps (Resolved held) getLastError := by
  unfold getLastError
  infer_instance

theorem references_new : references {} c ⊆ {r | r.2 = OID.unset} := by
  rintro r (rfl | hr)
  · rfl
  · exact absurd hr (by simp [documentReferences_nil])

instance yields_unsaved : Yields Resolved held (references · c) (unsaved c) :=
  .after inferInstance fun _ => ⟨fun _ hs => hs.take fun _ hr => .inl (references_new hr)⟩

/-- An item that is given a document refers to it. -/
theorem yields_initData {item : SaveableItem} (hdoc : selfReferences c doc ⊆ held) :
    Yields Resolved held (fun r : Unit × SaveableItem => r.2.references c)
      (withLocal item (initData doc)) := ⟨fun s hs => by
  rw [wp_withLocal]
  refine wp_mono wp_initData (fun _ q hq => ?_) (fun _ q hq => hq ▸ hs)
  obtain ⟨hraw, hid, hserver⟩ := hq
  rw [hserver]
  exact hs.take ((references_document hraw hid).trans (hdoc.trans hs.resolves.inHand))⟩

/-- A fetched item refers to its document, or to nothing. -/
instance yields_fetch : Yields Resolved held (references · c) (fetch c q) := by
  refine .after inferInstance fun _ => yields_findOne.bind resolved_droppable fun raw =>
    ⟨fun s hs => ?_⟩
  rw [wp_ite]
  split
  · exact hs.take fun _ hr => .inl (references_new hr)
  · rw [wp_bind, wp_orRaise]
    exact ⟨fun id hid => hs.take ((references_document rfl hid).trans
      (Set.subset_union_right.trans hs.resolves.inHand)), fun _ => hs⟩

instance : Keeps (Resolved held) (fetch c q) := yields_fetch.keeps resolved_droppable

instance : Keeps (fun q : SaveableItem × Server => q.2.Resolved held) (refetch c) := by
  unfold refetch
  infer_instance

instance : Keeps (ResolvedWith (references · c) held) (refetch c) := keeps_of_wp fun q hq => by
  obtain ⟨item, s⟩ := q
  rw [refetch, wp_bind, wp_self, wp_bind, wp_raiseIf]
  split
  · exact hq
  rw [wp_bind, wp_shared]
  refine wp_mono (yields_findOne.wp_yields s hq) (fun raw t ht => ?_) (fun _ _ h => h)
  have hread : ResolvedWith (references · c) held ({ item with rawdata := raw }, t) := by
    refine Server.Resolved.drop ht ?_
    rintro r (hr | rfl | hr)
    · exact .inl (.inl hr)
    · exact .inl (.inr (.inl rfl))
    · exact .inr (.inl hr)
  rw [wp_bind, wp_assign]
  refine (?_ : Keeps (ResolvedWith (references · c) held) _).wp_of_keeps hread
  infer_instance

/-- A document that was inserted without an error is there. -/
theorem wp_insert_checked (h : s.Resolved held) (hdoc : documentReferences c doc ⊆ held) :
    wp (do
        insert c doc
        getLastError)
      (fun e t => t.Resolved held ∧
        (e = [] → ∀ id, documentId doc = some id → (c, id) ∈ t.known))
      (fun _ t => t.Resolved held) s := by
  have hkeeps : Keeps (Resolved held) (do
      insert c doc
      getLastError) := within_bind (i := keeps_resolved_insert hdoc)
  have hinserted : wp (do
        insert c doc
        getLastError)
      (fun e t => e = [] → ∀ id, documentId doc = some id → (c, id) ∈ t.known)
      (fun _ _ => True) s := by
    simp only [wp_bind, wp_insert, wp_getLastError, implies_true, true_and]
    intro hthrow _ herror id hid
    have hdocs := (Database.docs_afterInsert h.reliable hthrow herror hid).2
    have hmem : doc ∈ (s.database.afterInsert c doc).docs c := by
      rw [hdocs]
      exact List.mem_append_right _ (List.mem_singleton_self doc)
    exact known_of_documentId hmem hid
  exact wp_mono (wp_and (hkeeps.wp_of_keeps h) hinserted) (fun _ _ h => h) (fun _ _ h => h.1)

theorem keeps_resolvedWith_create {fetch : Bool} (hdoc : documentReferences c doc ⊆ held) :
    Keeps (ResolvedWith (references · c) held) (create c doc fetch) := keeps_of_wp fun q hq => by
  obtain ⟨item, s⟩ := q
  rw [create, wp_bind, wp_self, wp_bind, wp_raiseIf]
  split
  case isTrue => exact hq
  case isFalse hempty =>
  have hinsert := wp_insert_checked hq (hdoc.trans Set.subset_union_left)
  rw [wp_bind] at hinsert
  rw [wp_bind, wp_shared]
  refine wp_mono hinsert (fun _ t ht => ?_) (fun _ _ h => h)
  rw [wp_bind, wp_shared]
  refine wp_mono ht (fun e t ht => ?_) (fun _ _ h => h)
  rw [wp_bind, wp_raiseIf]
  split
  case isTrue => exact ht.1
  case isFalse herror =>
  rw [wp_bind, wp_orRaise]
  refine ⟨fun id hid => ?_, fun _ => ht.1⟩
  have hknown : (c, id) ∈ t.known := ht.2 (by simpa using herror) id hid
  have hcreated : ResolvedWith (references · c) held ({ item with uniqueid := id }, t) := by
    refine (ht.1.drop Set.subset_union_left).take ?_
    rintro r (rfl | hr)
    · exact hknown
    · exact ht.1.resolves.inHand (.inr (.inr hr))
  rw [wp_bind, wp_assign]
  refine (?_ : Keeps (ResolvedWith (references · c) held) _).wp_of_keeps hcreated
  infer_instance

instance {refresh : Bool} [m.LeavesId] [hm : ∀ held', m.Refers c (held ∪ held')] :
    Keeps (ResolvedWith (references · c) held) (update c m refresh) := keeps_of_wp fun q hq => by
  obtain ⟨item, s⟩ := q
  have hwrite : Keeps (Resolved (held ∪ item.references c)) (FreshCity.update c item.uniqueid m) :=
    inferInstance
  rw [update, wp_bind, wp_self, wp_bind, wp_raiseIf]
  split
  · exact hq
  rw [wp_bind, wp_shared]
  refine wp_mono (hwrite.wp_of_keeps hq) (fun _ t ht => ?_) (fun _ _ h => h)
  refine (?_ : Keeps (ResolvedWith (references · c) held) _).wp_of_keeps (s := (item, t)) ht
  infer_instance

/-! Around an item the references resolve, whatever it refers to itself. -/

theorem keeps_resolved_create {fetch : Bool} (hdoc : documentReferences c doc ⊆ held) :
    Keeps (fun q : SaveableItem × Server => q.2.Resolved held) (create c doc fetch) := by
  have hinsert : Keeps (Resolved held) (insert c doc) := keeps_resolved_insert hdoc
  unfold create
  infer_instance

instance {refresh : Bool} [m.LeavesId] [m.Refers c held] :
    Keeps (fun q : SaveableItem × Server => q.2.Resolved held) (update c m refresh) := by
  unfold update
  infer_instance

instance : Keeps (fun q : SaveableItem × Server => q.2.Resolved ∅) (destroy .gangzone) := by
  unfold destroy
  infer_instance

end SaveableItem

end Changes
end FreshCity
