import FreshCity.KeptDocuments
import FreshCity.Registration

/-!
# Where a title leads

A waypoint is created under a title and looked for by its title. The first waypoint of a title is
the one that is found, so a title leads to the same place for ever.
-/
namespace FreshCity
open Imperative Prog

/-! ## The natives of an event -/

/-- The native an output is a call of. -/
def Effect.native? : Effect → Option Native
  | native n => some n
  | _ => none

/-- The natives that were called, in their order. -/
def Server.natives (s : Server) : List Native := s.trace.reverse.filterMap Effect.native?

/-- The calls that take a player to a place, with the vehicle the player drives. -/
def Coordinate5D.arrival (place : Coordinate5D) (env : Env) (p : ℤ) : List Native :=
  [.setPlayerVirtualWorld p place.virtualworld, .setPlayerInterior p place.interior,
    .setPlayerPos p ⟨place.x, place.y, place.z⟩, .setPlayerFacingAngle p place.facingangle] ++
  if env.seat p = 0 then
    [.setVehicleVirtualWorld (env.vehicle p) place.virtualworld,
      .linkVehicleToInterior (env.vehicle p) place.interior,
      .setVehiclePos (env.vehicle p) ⟨place.x, place.y, place.z⟩,
      .putPlayerInVehicle p (env.vehicle p) 0]
  else []

section Natives
variable {s : Server} {e : Effect} {p : ℤ} {l : List Native}

theorem natives_record : Server.natives { s with trace := e :: s.trace } =
    s.natives ++ e.native?.toList := by
  cases h : e.native? <;> simp [Server.natives, h]

theorem wp_performTeleport_natives (w : Waypoint) : wp (w.performTeleport p)
    (fun _ t => t.natives = s.natives ++ w.waypoint.arrival s.env p) (fun _ _ => False) s := by
  simp only [Waypoint.performTeleport, Waypoint.applyToPlayer, Waypoint.applyToVehicle, native, emit,
    wp_bind, wp_modify, wp_gets, wp_when, Waypoint.pos, Coordinate5D.arrival]
  split
  case isTrue => simp [Server.natives, Effect.native?]
  case isFalse => simp [Server.natives, Effect.native?]

/-- What a callback reports is not a native. -/
theorem wp_reported_natives {callback : Reporter} {x : Game Unit}
    (h : wp x (fun _ t => t.natives = l) (fun _ t => t.natives = l) s) :
    wp (reported p callback x) (fun _ t => t.natives = l) (fun _ _ => False) s := by
  rw [reported, wp_handle]
  refine wp_mono h (fun _ _ ht => ht) fun _ t ht => ?_
  exact natives_record.trans ((List.append_nil _).trans ht)

end Natives

/-! ## The waypoint of a title -/

/-- The waypoint that a document describes. -/
def Waypoint.Describes (doc : Document) (place : Coordinate5D) : Prop :=
  ∀ s, Waypoint.loadData doc s = .ok place s

/-- The waypoint that is read from a document, if every field is there. -/
def Waypoint.decode (doc : Document) : Option Coordinate5D := do
  let xy ← (doc.field? .xy).bind Bson.asArray
  let x ← xy[0]?.bind Bson.asNumber
  let y ← xy[1]?.bind Bson.asNumber
  let z ← (doc.field? .z).bind Bson.asNumber
  let world ← readInt (doc.field? .world)
  let interior ← readInt (doc.field? .interior)
  let facing ← (doc.field? .facing).bind Bson.asNumber
  pure ⟨x, y, z, world, interior, facing⟩

theorem Waypoint.describes_of_decode {doc : Document} {place : Coordinate5D}
    (h : decode doc = some place) : Describes doc place := by
  simp only [decode, Option.pure_def, Option.bind_eq_bind, Option.bind_eq_some_iff] at h
  obtain ⟨xy, ⟨a, ha, hxy⟩, x, ⟨b, hb, hx⟩, y, ⟨c, hc, hy⟩, z, ⟨d, hd, hz⟩, world, hworld, interior,
    hinterior, facing, ⟨e, he, hfacing⟩, hplace⟩ := h
  obtain rfl := Option.some.inj hplace
  intro s
  simp [loadData, rethrowAs, check, elementAt, handle_apply, bind_apply, ha, hxy, hb, hx, hc, hy, hd,
    hz, hworld, hinterior, he, hfacing]

theorem Waypoint.describes_document {w : Waypoint} {id creator : OID} {title : Text} :
    Describes (w.document id creator title) w.waypoint := by
  intro s
  simp [loadData, rethrowAs, check, elementAt, handle_apply, bind_apply, document, Doc.field?,
    Bson.asArray, Bson.asNumber]

theorem Waypoint.byText_document {w : Waypoint} {id creator : OID} {title : Text} :
    byText [.title] title (w.document id creator title) = true :=
  decide_eq_true rfl

namespace Server

/-- The document that is found under a title. -/
def titled (s : Server) (title : Text) : Option Document :=
  (s.database.docs .waypoint).find? (byText [.title] (s.platform.gbkToUTF8 title))

/-- A title leads to a place: the waypoint that is found under it is there. -/
structure LeadsTo (title : Text) (place : Coordinate5D) (s : Server) : Prop where
  found : ∃ doc, s.titled title = some doc ∧ (documentId doc).isSome ∧
    Waypoint.Describes doc place

variable {s t : Server} {e : Event} {env : Env} {title : Text} {place : Coordinate5D}

theorem step_platform (h : s.step (e, env) = some t) : t.platform = s.platform :=
  step_view h fun _ _ _ _ hab => (Kind.frame hab).platform

/-- Waypoints that come later do not change where a title leads. -/
theorem LeadsTo.step (h : s.LeadsTo title place) (hstay : Fault.vanished ∉ env.faults)
    (hstep : s.step (e, env) = some t) : t.LeadsTo title place := by
  obtain ⟨doc, hfound, hid, hdescribes⟩ := h.found
  refine ⟨doc, ?_, hid, hdescribes⟩
  obtain ⟨later, hlater⟩ := (step_documentsStay hstay hstep).whole .waypoint (by decide) (by decide)
    (by decide)
  rw [titled] at hfound ⊢
  rw [step_platform hstep, ← hlater, List.find?_append, hfound, Option.some_or]

theorem LeadsTo.run {is : List (Event × Env)} (h : s.LeadsTo title place)
    (hstay : ∀ i ∈ is, Fault.vanished ∉ i.2.faults)
    (hrun : Run.final Server.step s is = some t) : t.LeadsTo title place := by
  induction is generalizing s with
  | nil =>
    obtain rfl : s = t := Option.some.inj hrun
    exact h
  | cons i is ih =>
    rw [Run.final_cons, Option.bind_eq_some_iff] at hrun
    obtain ⟨u, hu, hrest⟩ := hrun
    rw [List.forall_mem_cons] at hstay
    exact ih (h.step hstay.1 hu) hstay.2 hrest

/-! ## Going there -/

/-- A search that finds the waypoint of a place, if the database answers. -/
def Fetches (s : Server) (x : Game Waypoint) (place : Coordinate5D) : Prop :=
  wp x (fun w t => w.waypoint = place ∧ t.env = s.env ∧ t.natives = s.natives ∧
      (s.config.collection .waypoint && !s.database.fault.isThrow) = true)
    (fun _ t => t.natives = s.natives ∧
      (s.config.collection .waypoint && !s.database.fault.isThrow) = false) s

/-- The document that a query finds first is fetched and read. -/
theorem fetches_of_find {q : Document → Bool} {doc : Document} {id : OID}
    (hdoc : (s.database.docs .waypoint).find? q = some doc) (hid : documentId doc = some id)
    (hdescribes : Waypoint.Describes doc place) (hstay : Fault.vanished ∉ s.database.faults) :
    s.Fetches (do
      let item ← SaveableItem.fetch .waypoint q
      let waypoint ← Waypoint.loadData item.rawdata
      pure { item := item, waypoint := waypoint }) place := by
  have hkept : s.database.fault ≠ .vanished := Database.fault_ne_vanished hstay
  have hnonempty : doc.isEmpty = false := by
    cases doc with
    | nil => simp [documentId, Doc.field?] at hid
    | cons _ _ => rfl
  simp only [Fetches, SaveableItem.fetch, configCollection, wp_bind, wp_gets, wp_raiseIf, wp_findOne]
  by_cases hconfig : s.config.collection .waypoint = true
  · simp only [hconfig, Bool.not_true, Bool.false_eq_true, if_false, Bool.true_and,
      Bool.not_eq_true', Bool.not_eq_false']
    refine ⟨fun exn hexn => ⟨natives_record.trans (List.append_nil _), by simp [hexn, Fault.isThrow]⟩,
      fun hthrow => ?_⟩
    have hfinds : s.database.found .waypoint q = doc := by
      simp [Database.found, Database.afterFind, hthrow, hkept, Database.next, hdoc]
    rw [hfinds, hnonempty]
    simp only [Bool.false_eq_true, if_false, hid, wp_bind, wp_orRaise, wp_pure]
    refine ⟨fun id' hid' => ?_, by simp⟩
    rw [wp_of_ok (hdescribes _)]
    exact ⟨rfl, rfl, natives_record.trans (List.append_nil _), hthrow⟩
  · simp [hconfig]

theorem LeadsTo.fetches (h : s.LeadsTo title place) (hstay : Fault.vanished ∉ s.database.faults) :
    s.Fetches (Waypoint.ofTitle title) place := by
  obtain ⟨doc, hfound, hid, hdescribes⟩ := h.found
  obtain ⟨id, hid⟩ := Option.isSome_iff_exists.mp hid
  have hdoc : (s.database.docs .waypoint).find?
      (byText [.title] (s.platform.gbkToUTF8 title)) = some doc := hfound
  rw [Fetches, Waypoint.ofTitle, wp_bind, wp_gets]
  exact fetches_of_find hdoc hid hdescribes hstay

/-- The place that is found is gone to, if the database answers. -/
theorem wp_goTo {q : ℤ} {x : Game Waypoint} (h : s.Fetches x place) {l : List Native}
    (hl : l = s.natives ++ if (s.config.collection .waypoint && !s.database.fault.isThrow) = true then
      place.arrival s.env q else []) :
    wp (do
      let point ← x
      point.performTeleport q) (fun _ t => t.natives = l) (fun _ t => t.natives = l) s := by
  rw [wp_bind]
  refine wp_mono h (fun w t ht => ?_) (fun _ t ht => ?_)
  · obtain ⟨hplace, henv, hnatives, hanswers⟩ := ht
    refine wp_mono (wp_performTeleport_natives w) (fun _ u hu => ?_) (fun _ _ hf => hf.elim)
    rw [hu, hl, if_pos hanswers, hplace, henv, hnatives]
  · rw [ht.1, hl, if_neg (by simp [ht.2]), List.append_nil]

end Server

/-- The player who asks to be taken to the waypoint of a title, and the title. -/
def Event.asksFor (platform : Platform) : Event → Option (ℤ × Text)
  | playerCommandText p cmdtext =>
    ((scanCommand platform cmdtext).filter fun c =>
      decide (CommandId.ofName c.1 = some .teleportMain) && !c.2.isEmpty).map fun c => (p, c.2)
  | dialogResponse p dialogid response _ inputtext =>
    if dialog dialogid = some .teleportUse ∧ response = 1 ∧ inputtext ≠ [] then some (p, inputtext)
    else none
  | _ => none

/-- Only the command has a check of its own. -/
def Event.admits (pr : Profile) : Event → Bool
  | playerCommandText _ _ => CommandId.teleportMain.accepts pr
  | _ => true

/-- Whether who asks is let through, and the database answers. -/
def Server.answers (s : Server) (env : Env) (p : ℤ) (e : Event) : Bool :=
  (s.profiles.lookup p).any (fun pr => e.admits pr) && s.config.collection .waypoint &&
    !(env.faults.headD .none).isThrow

/-- The checks let a player through or throw, just as `accepts` says. -/
theorem CommandId.wp_require_iff {c : CommandId} {player : Profile} {s : Server}
    {Q : Unit → Server → Prop} {E : Exn → Server → Prop} (hQ : c.accepts player = true → Q () s)
    (hE : c.accepts player = false → ∀ e, E e s) : wp (c.require player) Q E s := by
  by_cases hflags : c.flags = 0
  · have hno : ∀ req ∈ [needRegistered, needSignedIn, donotRegistered, donotSignedIn],
        matchReq c.flags req = false := by simp [hflags, matchReq, needRegistered, needSignedIn,
          donotRegistered, donotSignedIn]
    simp only [require, hflags, ne_eq, not_true_eq_false, wp_bind, wp_when, wp_raiseIf, if_false]
    split
    · exact hE (by grind [accepts]) _
    · exact hQ (by grind [accepts])
  · simp only [require, ne_eq, hflags, not_false_eq_true, wp_bind, wp_when, wp_raiseIf, if_true]
    repeat' split
    all_goals first
      | exact hE (by grind [accepts]) _
      | exact hQ (by grind [accepts])

namespace Server
variable {s t : Server} {e : Event} {env : Env} {title : Text} {place : Coordinate5D} {q : ℤ}

/-- Nothing is called for a player who is not let through. -/
theorem natives_refused {l : List Native} (h : ∀ pr, s.profiles.lookup q = some pr →
    e.admits pr = false) (hl : l = if s.answers env q e = true then place.arrival env q else []) :
    (s.begin env).natives = l := by
  have hrefused : s.answers env q e = false := by
    cases hpr : s.profiles.lookup q with
    | none => simp [answers, hpr]
    | some pr => simp [answers, hpr, h pr hpr]
  rw [hl, hrefused]
  rfl

/-- What is done with the profile of a player decides, and nothing is called for who has none. -/
theorem wp_profileMgr_natives {k : Profile → Game Unit} {l : List Native}
    (hl : l = if s.answers env q e = true then place.arrival env q else [])
    (h : ∀ pr, s.profiles.lookup q = some pr →
      wp (k pr) (fun _ t => t.natives = l) (fun _ t => t.natives = l) (s.begin env)) :
    wp (profileMgr q >>= k) (fun _ t => t.natives = l) (fun _ t => t.natives = l)
      (s.begin env) := by
  simp only [profileMgr, getItem, wp_bind, wp_gets, wp_orRaise]
  refine ⟨h, fun hnone => natives_refused (fun pr hpr => ?_) hl⟩
  cases hnone.symm.trans hpr

/-- A player who is let through is taken to the place, if the database answers. -/
theorem wp_goTo_begin {pr : Profile} {x : Game Waypoint} {l : List Native}
    (h : (s.begin env).Fetches x place) (hpr : s.profiles.lookup q = some pr)
    (hadmits : e.admits pr = true)
    (hl : l = if s.answers env q e = true then place.arrival env q else []) :
    wp (do
      let point ← x
      point.performTeleport q) (fun _ t => t.natives = l) (fun _ t => t.natives = l)
      (s.begin env) := by
  have hanswers : s.answers env q e = (s.config.collection .waypoint &&
      !(env.faults.headD .none).isThrow) := by simp [answers, hpr, hadmits]
  refine wp_goTo h ?_
  rw [hl, hanswers]
  rfl

/-- The command takes a player there who passes its check. -/
theorem wp_cmdMgrExec_natives {p : ℤ} {cmdtext cmd : Text} {l : List Native}
    (hfetches : (s.begin env).Fetches (Waypoint.ofTitle title) place)
    (hname : CommandId.ofName cmd = some .teleportMain) (hnonempty : title ≠ [])
    (hl : l = if s.answers env p (.playerCommandText p cmdtext) = true then
      place.arrival env p else []) :
    wp (cmdMgrExec p cmd title) (fun _ t => t.natives = l) (fun _ t => t.natives = l)
      (s.begin env) := by
  rw [cmdMgrExec, wp_bind, wp_orRaise]
  refine ⟨fun c hc => ?_, fun hnone => by cases hname.symm.trans hnone⟩
  obtain rfl := Option.some.inj (hname.symm.trans hc)
  refine wp_profileMgr_natives hl fun pr hpr => ?_
  rw [wp_bind]
  refine CommandId.wp_require_iff (fun haccepts => ?_) fun hrefuses _ =>
    natives_refused (fun pr' hpr' => ?_) hl
  · simp only [Command.run, Command.teleportMain, hnonempty, ne_eq, not_false_eq_true, if_true]
    exact wp_goTo_begin (e := .playerCommandText p cmdtext) hfetches hpr haccepts hl
  · obtain rfl := Option.some.inj (hpr.symm.trans hpr')
    exact hrefuses

/-- The dialog takes everybody there who answers it. -/
theorem wp_dialogMgrExec_natives {p dialogid response listitem : ℤ} {l : List Native}
    (hfetches : (s.begin env).Fetches (Waypoint.ofTitle title) place)
    (hdialog : Event.dialog dialogid = some .teleportUse) (hnonempty : title ≠ [])
    (hl : l = if s.answers env p (.dialogResponse p dialogid response listitem title) = true then
      place.arrival env p else []) :
    wp (dialogMgrExec p true dialogid listitem title) (fun _ t => t.natives = l)
      (fun _ t => t.natives = l) (s.begin env) := by
  have hfilter : (DialogId.ofNumber dialogid).filter DialogId.isRegistered = some .teleportUse :=
    hdialog
  rw [dialogMgrExec, hfilter, wp_bind, wp_orRaise]
  refine ⟨fun d hd => ?_, fun hnone => by cases hnone⟩
  obtain rfl := Option.some.inj hd
  rw [Bool.or_true, wp_when, if_pos rfl]
  refine wp_profileMgr_natives hl fun pr hpr => ?_
  rw [Dialog.callback, Dialog.teleportUse, if_neg (by simpa using hnonempty)]
  exact wp_goTo_begin hfetches hpr rfl hl

/-- What a run of an event that asks for a title calls, from the state it begins in. -/
theorem wp_asksFor (h : s.LeadsTo title place) (hstay : Fault.vanished ∉ env.faults)
    (hask : e.asksFor s.platform = some (q, title)) {l : List Native}
    (hl : l = if s.answers env q e = true then place.arrival env q else []) :
    wp e.run (fun _ t => t.natives = l) (fun _ t => t.natives = l) (s.begin env) := by
  have hfetches : (s.begin env).Fetches (Waypoint.ofTitle title) place :=
    LeadsTo.fetches (s := s.begin env) ⟨h.found⟩ hstay
  cases e
  case playerCommandText p cmdtext =>
    simp only [Event.asksFor, Option.map_eq_some_iff, Option.filter_eq_some_iff, Prod.mk.injEq,
      Bool.and_eq_true, decide_eq_true_eq, Bool.not_eq_true'] at hask
    obtain ⟨⟨cmd, line⟩, ⟨hscan, hname, hline⟩, rfl, rfl⟩ := hask
    have hnonempty : line ≠ [] := by simpa using hline
    have hscan' : scanCommand (s.begin env).platform cmdtext = some (cmd, line) := hscan
    simp only [Event.run, discard, onPlayerCommandText, wp_bind, wp_gets, hscan', wp_orUndefined,
      Option.some.injEq, forall_eq']
    exact wp_mono (wp_reported_natives (wp_cmdMgrExec_natives hfetches hname hnonempty hl))
      (fun _ _ ht => ht) (fun _ _ hf => hf.elim)
  case dialogResponse p dialogid response listitem inputtext =>
    simp only [Event.asksFor, Option.ite_none_right_eq_some, Option.some.injEq, Prod.mk.injEq] at hask
    obtain ⟨⟨hdialog, rfl, hnonempty⟩, rfl, rfl⟩ := hask
    simp only [Event.run, discard, onDialogResponse, decide_true, wp_bind]
    exact wp_mono (wp_reported_natives (wp_dialogMgrExec_natives hfetches hdialog hnonempty hl))
      (fun _ _ ht => ht) (fun _ _ hf => hf.elim)
  all_goals cases hask

/-! ## Creating a waypoint -/

/-- The player was told that the waypoint of a title is created. -/
def Announces (p : ℤ) (title : Text) (s : Server) : Prop :=
  .message p (.teleportCreated title) ∈ s.trace

theorem not_announces_record {p : ℤ} {x : Effect} (h : ¬s.Announces p title)
    (hx : x ≠ .message p (.teleportCreated title)) :
    ¬Announces p title { s with trace := x :: s.trace } := by
  rintro (_ | ⟨_, hmem⟩)
  · exact hx rfl
  · exact h hmem

/-- A waypoint is created without a word, as the last document of its collection. -/
theorem wp_create_silent {w : Waypoint} {creator : OID} {p : ℤ} (h : s.database.Reliable)
    (hsilent : ¬s.Announces p title) (hw : w.item.isEmpty = true) :
    wp (w.create title creator) (fun _ t => t.platform = s.platform ∧ ∃ id,
        t.database.docs .waypoint = s.database.docs .waypoint ++
          [w.document id creator (s.platform.gbkToUTF8 title)])
      (fun _ t => ¬t.Announces p title) s := by
  simp only [Waypoint.create, genOID, SaveableItem.create, wp_bind, wp_gets, wp_modify, wp_pure,
    wp_withLocal, wp_self, wp_raiseIf, wp_shared, wp_insert, wp_getLastError, wp_orRaise, wp_assign,
    hw, Bool.not_true, Bool.false_eq_true, if_false]
  have hissued : ∀ doc, ¬Announces p title (s.issued (.insert .waypoint doc)) :=
    fun doc => not_announces_record hsilent (by simp)
  refine ⟨fun exn hexn => hissued _, fun hthrow => ⟨fun exn hexn => hissued _, fun hreport => ?_⟩⟩
  split
  case isTrue => exact hissued _
  case isFalse herror =>
    refine ⟨fun id hid => ⟨rfl, (s.env.genoid s.genoids).val, ?_⟩, fun _ => hissued _⟩
    have herror' : (s.database.afterInsert .waypoint (w.document (s.env.genoid s.genoids).val creator
        (s.platform.gbkToUTF8 title))).lasterror.getD [] = [] := by
      simpa [setDatabase] using herror
    exact (Database.docs_afterInsert h hthrow herror' hid).2

/-- A player who is told that a waypoint is created under a new title can be taken there. -/
theorem wp_teleportCreate {p : ℤ} (h : s.database.Reliable) (hsilent : ¬s.Announces p title)
    (hnew : s.titled title = none) : wp (Dialog.teleportCreate p title)
    (fun _ t => t.Announces p title → t.LeadsTo title (Profile.detailedPos s.env p))
    (fun _ t => ¬t.Announces p title) s := by
  simp only [Dialog.teleportCreate, Waypoint.ofTarget, SaveableItem.unsaved, configCollection,
    showDialog, emit, wp_ite, wp_bind, wp_gets, wp_raiseIf, wp_pure, Profile.ref, wp_orUndefined]
  split
  case isTrue =>
    split
    case isTrue => exact fun hannounces => absurd hannounces hsilent
    case isFalse => exact fun hannounces => absurd hannounces (not_announces_record hsilent (by simp))
  case isFalse =>
    split
    case isTrue => exact hsilent
    case isFalse =>
      intro pr hpr
      refine wp_mono (wp_create_silent h hsilent rfl) (fun _ t ht _ => ?_) (fun _ _ he => he)
      obtain ⟨hplatform, id, hdocs⟩ := ht
      have hfound : t.titled title = some (Waypoint.document
          { item := {}, waypoint := Profile.detailedPos s.env p } id pr.item.uniqueid
          (s.platform.gbkToUTF8 title)) := by
        rw [titled] at hnew
        rw [titled, hplatform, hdocs, List.find?_append, hnew, Option.none_or,
          List.find?_cons_of_pos Waypoint.byText_document]
      exact ⟨_, hfound, rfl, Waypoint.describes_document⟩

/-- What a run of the response by which a waypoint is created leaves. -/
theorem step_creates {p dialogid response listitem : ℤ}
    (hdialog : Event.dialog dialogid = some .teleportCreate)
    (hsound : ∀ f ∈ env.faults, f.isSound = true) (hnew : s.titled title = none)
    (h : s.step (.dialogResponse p dialogid response listitem title, env) = some t)
    (hannounced : t.Announces p title) : t.LeadsTo title (Profile.detailedPos env p) := by
  refine of_step (P := fun t => t.Announces p title → t.LeadsTo title (Profile.detailedPos env p)) h
    ?_ hannounced
  have hnothing : ¬(s.begin env).Announces p title := by simp [Announces, begin]
  simp only [Event.run, discard, onDialogResponse, reported, wp_bind, wp_handle]
  have hexec : wp (dialogMgrExec p (decide (response = 1)) dialogid listitem title)
      (fun _ t => t.Announces p title → t.LeadsTo title (Profile.detailedPos env p))
      (fun _ t => ¬t.Announces p title) (s.begin env) := by
    have hfilter : (DialogId.ofNumber dialogid).filter DialogId.isRegistered = some .teleportCreate :=
      hdialog
    simp only [dialogMgrExec, hfilter, profileMgr, getItem, wp_bind, wp_orRaise, wp_when, wp_gets]
    refine ⟨fun d hd => ?_, fun hnone => by cases hnone⟩
    obtain rfl := Option.some.inj hd
    split
    case isTrue => exact ⟨fun _ _ => wp_teleportCreate hsound hnothing hnew, fun _ => hnothing⟩
    case isFalse => exact fun hannounces => absurd hannounces hnothing
  refine wp_mono hexec (fun _ _ ht => ht) fun exn u hu => ?_
  refine fun hannounces => absurd hannounces (not_announces_record hu ?_)
  cases exn <;> simp [Dialog.exceptionMessage]

end Server

/-- A player who is told that a waypoint is created under a new title has made a title that leads
there for ever. Whoever asks for it later, by the command or in the dialog, is taken to the place
where the player stood, if the checks let them through and the database answers. -/
theorem titles_lead_back (s t u v : Server) (p q dialogid response listitem : ℤ) (title : Text)
    (env env' : Env) (is : List (Event × Env)) (e : Event)
    (hdialog : Event.dialog dialogid = some .teleportCreate) (hnew : s.titled title = none)
    (hsound : ∀ f ∈ env.faults, f.isSound = true)
    (hcreate : s.step (.dialogResponse p dialogid response listitem title, env) = some t)
    (hannounced : t.Announces p title) (hstay : ∀ i ∈ is, Fault.vanished ∉ i.2.faults)
    (hrun : Run.final Server.step t is = some u)
    (hask : e.asksFor u.platform = some (q, title))
    (hstay' : Fault.vanished ∉ env'.faults) (hgo : u.step (e, env') = some v) :
    v.natives = if u.answers env' q e = true then (Profile.detailedPos env p).arrival env' q
      else [] :=
  have hleads := (Server.step_creates hdialog hsound hnew hcreate hannounced).run hstay hrun
  Server.of_step hgo (Server.wp_asksFor hleads hstay' hask rfl)

namespace Demo

/-- A place far away, where a player stands. -/
def abroad : Env := { env with pos := fun _ => ⟨1, 2, 3⟩, world := fun _ => 4 }

/-- The waypoint was announced to player 0. -/
def announcesHome (t : Server) : Bool := t.trace.any fun
  | .message p (.teleportCreated title) => decide (p = 0) && decide (title = ascii "home")
  | _ => false

theorem announces_of_announcesHome {t : Server} (h : announcesHome t = true) :
    t.Announces 0 (ascii "home") := by
  obtain ⟨x, hx, hhome⟩ := List.any_eq_true.mp h
  split at hhome
  · obtain ⟨hp, htitle⟩ := Bool.and_eq_true_iff.mp hhome
    rw [decide_eq_true_eq] at hp htitle
    subst hp htitle
    exact hx
  · cases hhome

end Demo

/-- Another player comes and creates a waypoint of the same title elsewhere. -/
theorem titles_lead_back_home : ∃ u v : Server,
    u.step (.playerCommandText 0 (ascii "/tp home"), Demo.env) = some v ∧
    v.natives = (Profile.detailedPos Demo.abroad 0).arrival Demo.env 0 := by
  have hrun : ((Run.final Server.step Demo.initial (Demo.quietly [.gameModeInit, .playerConnect 0,
      .dialogResponse 0 27 1 0 (ascii "password")])).bind fun s =>
      (s.step (.dialogResponse 0 15 1 0 (ascii "home"), Demo.abroad)).bind fun t =>
      (Run.final Server.step t (Demo.quietly [.playerConnect 1,
        .dialogResponse 1 15 1 0 (ascii "home")])).bind fun u =>
      (u.step (.playerCommandText 0 (ascii "/tp home"), Demo.env)).map fun _ =>
        (s.titled (ascii "home")).isNone && Demo.announcesHome t &&
          decide (Event.asksFor u.platform (.playerCommandText 0 (ascii "/tp home")) =
            some (0, ascii "home")) &&
          u.answers Demo.env 0 (.playerCommandText 0 (ascii "/tp home"))) = some true := by
    decide +kernel
  simp only [Option.bind_eq_some_iff, Option.map_eq_some_iff, Bool.and_eq_true, decide_eq_true_eq,
    Option.isNone_iff_eq_none] at hrun
  obtain ⟨s, hs, t, ht, u, hu, v, hv, ⟨⟨hnew, hannounced⟩, hasks⟩, hanswers⟩ := hrun
  refine ⟨u, v, hv, ?_⟩
  have hback := titles_lead_back s t u v 0 0 15 1 0 (ascii "home") Demo.abroad Demo.env _ _ rfl hnew
    (by simp [Demo.abroad, Demo.env]) ht (Demo.announces_of_announcesHome hannounced)
    (by simp [Demo.quietly, Demo.env]) hu hasks (by simp [Demo.env]) hv
  rw [hback, if_pos hanswers]

end FreshCity
