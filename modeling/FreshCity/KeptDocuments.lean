import FreshCity.Imperative.Run
import FreshCity.Journal
import FreshCity.Stored

/-!
# The documents that stay

The gamemode never deletes a document but that of a gang zone, and updates only profiles, gang
zones and properties. The other documents stay as they were inserted.
-/
namespace FreshCity
open Imperative Prog

/-! ## What one write does -/

namespace Effect
variable {docs : Documents} {c c' : Collection} {id : OID} {m : Modifier} {doc : Document}

theorem write_insert_of_ne (h : c' ≠ c) : (insert c doc).write docs c' = docs c' := by
  simp only [write, Database.insert, Database.setError, Database.setDocs]
  split
  · rfl
  · exact Function.update_of_ne h ..

theorem write_insert_self : (insert c doc).write docs c = docs c ∨
    (insert c doc).write docs c = docs c ++ [doc] := by
  simp only [write, Database.insert, Database.setError, Database.setDocs]
  split
  · exact .inl rfl
  · exact .inr (Function.update_self ..)

/-- An insertion appends at most. -/
theorem prefix_insert : docs c' <+: (insert c doc).write docs c' := by
  by_cases h : c' = c
  · subst h
    rcases @write_insert_self docs c' doc with heq | heq
    · rw [heq]
    · rw [heq]
      exact List.prefix_append ..
  · rw [write_insert_of_ne h]

theorem write_update_of_ne (h : c' ≠ c) : (update c id m).write docs c' = docs c' := by
  change (Database.update { docs := docs } c id m).docs c' = docs c'
  rw [Database.update_docs]
  split
  · exact Function.update_of_ne h ..
  · rfl

theorem write_remove_of_ne (h : c' ≠ c) : (remove c id).write docs c' = docs c' :=
  Function.update_of_ne h ..

end Effect

/-- The ids of the documents of a collection, in their order. -/
def Documents.ids (docs : Documents) (c : Collection) : List (Option OID) := (docs c).map documentId

namespace Database

theorem documentId_setAll {m : Modifier} {d d' : Document} [hm : m.LeavesId]
    (h : d.setAll m = some d') : documentId d' = documentId d := by
  rw [documentId, documentId, Doc.field?_setAll_of_ne h hm.other]

theorem map_updateFirst {β : Type} {f : Document → β} {q : Document → Bool} {d d' : Document}
    {l : List Document} (hfind : l.find? q = some d) (h : f d' = f d) :
    (updateFirst q d' l).map f = l.map f := by
  induction l with
  | nil => rfl
  | cons x l ih =>
    rw [updateFirst]
    split
    case isTrue hx =>
      rw [List.find?_cons_of_pos hx] at hfind
      obtain rfl := Option.some.inj hfind
      rw [List.map_cons, List.map_cons, h]
    case isFalse hx =>
      rw [List.find?_cons_of_neg hx] at hfind
      rw [List.map_cons, List.map_cons, ih hfind]

end Database

/-- An update keeps the ids. -/
theorem Effect.ids_update {docs : Documents} {c c' : Collection} {id : OID} {m : Modifier}
    [hm : m.LeavesId] : Documents.ids ((update c id m).write docs) c' = docs.ids c' := by
  change ((Database.update { docs := docs } c id m).docs c').map documentId = _
  rw [Database.update_docs, Documents.ids]
  cases hd : (Database.stored { docs := docs } c id).bind fun d => d.setAll m with
  | none => rfl
  | some d' =>
    obtain ⟨d, hfind, hset⟩ := Option.bind_eq_some_iff.mp hd
    by_cases h : c' = c
    · subst h
      simp only [Function.update_self]
      exact Database.map_updateFirst hfind (Database.documentId_setAll hset)
    · simp only [Function.update_of_ne h]

namespace Server

/-- No two documents have one id. -/
def UniqueIds (docs : List Document) : Prop :=
  ∀ d ∈ docs, ∀ d' ∈ docs, ∀ id, documentId d = some id → documentId d' = some id → d = d'

theorem uniqueIds_of_nodup {docs : List Document} (h : (docs.map documentId).Nodup) : UniqueIds docs :=
  fun _ hd _ hd' _ hid hid' => List.inj_on_of_nodup_map h hd hd' (hid.trans hid'.symm)

theorem find?_byId {docs later : List Document} {doc : Document} {id : OID} (hids : UniqueIds docs)
    (hdoc : doc ∈ docs) (hid : documentId doc = some id) :
    (docs ++ later).find? (byId id) = some doc := by
  have hsome : (docs.find? (byId id)).isSome := by
    rw [List.find?_isSome]
    exact ⟨doc, hdoc, by simp [byId, hid]⟩
  obtain ⟨found, hfound⟩ := Option.isSome_iff_exists.mp hsome
  have hbyId : documentId found = some id := by simpa [byId] using List.find?_some hfound
  rw [List.find?_append, hfound, hids found (List.mem_of_find?_eq_some hfound) doc hdoc id hbyId hid]
  rfl

end Server

/-! ## What one event does -/

/-- What holds of the kind of a change holds of what it records. -/
theorem Kind.forall_trace {P : Kind → Prop} {k : Kind} {s t : Server} (h : k.change s t) (hk : P k)
    (hs : ∀ x ∈ s.trace, P x.kind) : ∀ x ∈ t.trace, P x.kind := by
  by_cases hw : k.writesTrace = false
  · rw [(frame h).trace hw]
    exact hs
  · cases k
    all_goals first
      | exact absurd rfl hw
      | (obtain ⟨x, hx, rfl⟩ := h; exact List.forall_mem_cons.mpr ⟨hx ▸ hk, hs⟩)

/-- The response that deletes the document of a gang zone. -/
def Event.deletesZone : Event → Bool
  | dialogResponse _ dialogid _ _ _ => decide (dialog dialogid = some .gangZoneRemove)
  | _ => false

section Footprint
variable {e : Event} {c : Collection}

/-- Only these documents are updated. -/
theorem update_mem_footprint (h : .update c ∈ e.footprint) :
    c = .profile ∨ c = .gangzone ∨ c = .property := by
  cases e
  case playerCommandText p cmdtext =>
    simp [Event.footprint, CommandId.all, Command.footprint] at h
  case dialogResponse p dialogid response listitem inputtext =>
    cases hd : Event.dialog dialogid with
    | none => simp [Event.footprint, hd] at h
    | some d => cases d <;> simp_all [Event.footprint, Dialog.footprint]
  case timer =>
    have hc : c = .gangzone ∨ c = .profile := by simpa [Event.footprint] using h
    exact hc.elim (fun h => .inr (.inl h)) .inl
  all_goals simp_all [Event.footprint]

/-- Only gang zones are removed, and only by the response for it. -/
theorem remove_mem_footprint (h : .remove c ∈ e.footprint) :
    c = .gangzone ∧ e.deletesZone = true := by
  cases e
  case playerCommandText p cmdtext =>
    simp [Event.footprint, CommandId.all, Command.footprint] at h
  case dialogResponse p dialogid response listitem inputtext =>
    cases hd : Event.dialog dialogid with
    | none => simp [Event.footprint, hd] at h
    | some d => cases d <;> simp_all [Event.footprint, Dialog.footprint, Event.deletesZone]
  all_goals simp [Event.footprint] at h

end Footprint

namespace Server
variable {s t u : Server} {e : Event} {env : Env} {c : Collection} {i : Event × Env}
  {is : List (Event × Env)}

/-- An event records outputs of its own kinds only. -/
theorem step_trace (h : s.step (e, env) = some t) : ∀ x ∈ t.trace, x.kind ∈ e.footprint :=
  step_invariant (I := fun u => ∀ x ∈ u.trace, x.kind ∈ e.footprint) h
    (fun _ hk _ _ hab ha => Kind.forall_trace hab hk ha) (by simp [begin])

/-- Documents that an event neither updates nor removes stay, and new ones come after them. -/
theorem step_prefix (hstay : Fault.vanished ∉ env.faults) (h : s.step (e, env) = some t)
    (hupdate : .update c ∉ e.footprint) (hremove : .remove c ∉ e.footprint) :
    s.database.docs c <+: t.database.docs c := by
  refine (step_journaled hstay h).replays.preserves
    (I := fun docs => s.database.docs c <+: docs c) (fun x hx docs hdocs => ?_) List.prefix_rfl
  have hkind := step_trace h x hx
  cases x with
  | insert c' doc => exact hdocs.trans Effect.prefix_insert
  | update c' id m =>
    rw [Effect.write_update_of_ne (by rintro rfl; exact hupdate hkind)]
    exact hdocs
  | remove c' id =>
    rw [Effect.write_remove_of_ne (by rintro rfl; exact hremove hkind)]
    exact hdocs
  | _ => exact hdocs

/-- Documents that an event does not remove keep their ids and their order. -/
theorem step_ids_prefix (hstay : Fault.vanished ∉ env.faults) (h : s.step (e, env) = some t)
    (hremove : .remove c ∉ e.footprint) :
    Documents.ids s.database.docs c <+: Documents.ids t.database.docs c := by
  have hjournaled := step_journaled hstay h
  refine hjournaled.replays.preserves
    (I := fun docs => Documents.ids s.database.docs c <+: Documents.ids docs c)
    (fun x hx docs hdocs => ?_) List.prefix_rfl
  have hkind := step_trace h x hx
  have hleaves := hjournaled.leavesId x hx
  cases x with
  | insert c' doc => exact hdocs.trans (Effect.prefix_insert.map _)
  | update c' id m =>
    have : m.LeavesId := hleaves
    rw [Effect.ids_update]
    exact hdocs
  | remove c' id =>
    have hsame : (Effect.remove c' id).write docs c = docs c :=
      Effect.write_remove_of_ne (by rintro rfl; exact hremove hkind)
    simpa only [Documents.ids, hsame] using hdocs
  | _ => exact hdocs

/-- What stays of the documents from one state to another, if zones may have been removed. -/
structure DocumentsStay (removed : Bool) (s t : Server) : Prop where
  whole : ∀ c, c ≠ .profile → c ≠ .gangzone → c ≠ .property →
    s.database.docs c <+: t.database.docs c
  ids : ∀ c, removed = false ∨ c ≠ .gangzone →
    Documents.ids s.database.docs c <+: Documents.ids t.database.docs c

theorem DocumentsStay.trans {r r' : Bool} (h : DocumentsStay r s t) (h' : DocumentsStay r' t u) :
    DocumentsStay (r || r') s u := by
  refine ⟨fun c hp hz ho => (h.whole c hp hz ho).trans (h'.whole c hp hz ho), fun c hc => ?_⟩
  rw [Bool.or_eq_false_iff] at hc
  exact (h.ids c (hc.imp_left And.left)).trans (h'.ids c (hc.imp_left And.right))

theorem step_documentsStay (hstay : Fault.vanished ∉ env.faults) (h : s.step (e, env) = some t) :
    DocumentsStay e.deletesZone s t := by
  refine ⟨fun c hp hz ho => step_prefix hstay h (fun hu => ?_) (fun hr => ?_), fun c hc =>
    step_ids_prefix hstay h fun hr => ?_⟩
  · rcases update_mem_footprint hu with rfl | rfl | rfl
    · exact hp rfl
    · exact hz rfl
    · exact ho rfl
  · exact hz (remove_mem_footprint hr).1
  · obtain ⟨rfl, hremoves⟩ := remove_mem_footprint hr
    rcases hc with hc | hc
    · rw [hremoves] at hc
      cases hc
    · exact hc rfl

theorem run_documentsStay {is : List (Event × Env)} (hstay : ∀ i ∈ is, Fault.vanished ∉ i.2.faults)
    (hrun : Run.final Server.step s is = some t) :
    DocumentsStay (is.any fun i => i.1.deletesZone) s t := by
  induction is generalizing s with
  | nil =>
    obtain rfl : s = t := Option.some.inj hrun
    exact ⟨fun _ _ _ _ => List.prefix_rfl, fun _ _ => List.prefix_rfl⟩
  | cons i is ih =>
    rw [Run.final_cons, Option.bind_eq_some_iff] at hrun
    obtain ⟨u, hu, hrest⟩ := hrun
    rw [List.forall_mem_cons] at hstay
    exact (step_documentsStay hstay.1 hu).trans (ih hstay.2 hrest)

end Server

/-- However a run goes on, teams, waypoints, teleport triggers and races are never changed or lost,
profiles and properties never lost, and gang zones only by the response that removes one. -/
theorem documents_stay (s t : Server) (is : List (Event × Env))
    (hstay : ∀ i ∈ is, Fault.vanished ∉ i.2.faults) (hrun : Run.final Server.step s is = some t) :
    Server.DocumentsStay (is.any fun i => i.1.deletesZone) s t :=
  Server.run_documentsStay hstay hrun

namespace Demo

/-- A player registers, and creates a waypoint. -/
def founding : List (Event × Env) :=
  quietly [.gameModeInit, .playerConnect 0, .dialogResponse 0 27 1 0 (ascii "password"),
    .dialogResponse 0 15 1 0 (ascii "home")]

end Demo

/-- The teams of the first load are still there. -/
theorem documents_stay_founding : ∃ t, Run.final Server.step Demo.initial Demo.founding = some t ∧
    Server.DocumentsStay false Demo.initial t ∧ (t.database.docs .waypoint).length = 1 := by
  have hrun : ((Run.final Server.step Demo.initial Demo.founding).map fun t =>
      (t.database.docs .waypoint).length) = some 1 := by decide +kernel
  obtain ⟨t, ht, hlength⟩ := Option.map_eq_some_iff.mp hrun
  exact ⟨t, ht, documents_stay Demo.initial t Demo.founding (by simp [Demo.founding, Demo.quietly,
    Demo.env]) ht, hlength⟩

end FreshCity
