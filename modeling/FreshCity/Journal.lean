import FreshCity.Imperative.Around
import FreshCity.Imperative.Journal
import FreshCity.Registration
import FreshCity.Views

/-!
# The documents and the journal of the writes

Every write to the database is recorded before it is tried. So the documents after a callback
are those before it, with some of the recorded writes made.
-/
namespace FreshCity
open Imperative Prog

/-- The documents of all collections. -/
abbrev Documents : Type := Collection → List Document

/-- What a recorded write makes of the documents when it is made. -/
def Effect.write (e : Effect) (docs : Documents) : Documents :=
  let db : Database := { docs := docs }
  match e with
  | insert c doc => (db.insert c doc).docs
  | update c id m => (db.update c id m).docs
  | remove c id => (db.remove c id).docs
  | _ => docs

namespace Database
variable {db : Database} {c : Collection} {id : OID} {m : Modifier} {doc : Document}

theorem docs_insert : (db.insert c doc).docs = (Effect.insert c doc).write db.docs := by
  simp only [Effect.write, insert, setError, setDocs]
  split <;> rfl

theorem docs_update : (db.update c id m).docs = (Effect.update c id m).write db.docs := by
  simp only [Effect.write, update, setError, setDocs]
  split
  · rfl
  · split <;> rfl

theorem docs_remove : (db.remove c id).docs = (Effect.remove c id).write db.docs := rfl

end Database

/-- A modifier that writes other fields than `_id`. -/
class Modifier.LeavesId (m : Modifier) : Prop where
  other : ∀ w ∈ m, ∃ k path, w.1 = k :: path ∧ Field._id ≠ k

/-- An update leaves the id of its document alone. -/
def Effect.LeavesId : Effect → Prop
  | update _ _ m => m.LeavesId
  | _ => True

/-- No document goes but by a removal, documents keep their ids, and the documents are a replay
of the trace. -/
structure Server.Journaled (docs : Documents) (s : Server) : Prop where
  stay : Fault.vanished ∉ s.database.faults
  leavesId : ∀ e ∈ s.trace, e.LeavesId
  replays : Replays Effect.write docs s.trace s.database.docs

section Journal
set_option synthInstance.maxSize 3000
open Server
variable {s t : Server} {docs : Documents} {α τ : Type} {c : Collection} {id : OID}
  {m : Modifier} {doc : Document} {e : Effect} {q : Document → Bool}

/-- What does not touch the database leaves at most more entries. -/
theorem Server.Journaled.record (h : s.Journaled docs) (hdatabase : t.database = s.database)
    (htrace : t.trace = s.trace ∨ ∃ e, e.LeavesId ∧ t.trace = e :: s.trace) :
    t.Journaled docs := by
  rcases htrace with heq | ⟨e, he, heq⟩
  · exact ⟨hdatabase ▸ h.stay, heq ▸ h.leavesId, heq ▸ hdatabase ▸ h.replays⟩
  · refine ⟨hdatabase ▸ h.stay, ?_, heq ▸ hdatabase ▸ h.replays.skipped e⟩
    rw [heq]
    exact List.forall_mem_cons.mpr ⟨he, h.leavesId⟩

/-- The kinds of change that neither touch the database nor record an update. -/
def Kind.leavesDatabase : Kind → Bool
  | database => false
  | update _ => false
  | _ => true

theorem Effect.leavesId_of_kind (h : e.kind.leavesDatabase = true) : e.LeavesId := by
  cases e <;> first | exact True.intro | cases h

/-- A change of such a kind keeps the journal. -/
theorem Kind.journaled {k : Kind} (h : k.change s t) (hk : k.leavesDatabase = true)
    (hs : s.Journaled docs) : t.Journaled docs := by
  refine hs.record ((frame h).database (by rintro rfl; cases hk)) ?_
  by_cases hw : k.writesTrace = false
  · exact .inl ((frame h).trace hw)
  · cases k
    all_goals first
      | exact absurd rfl hw
      | (obtain ⟨e, he, rfl⟩ := h; exact .inr ⟨e, Effect.leavesId_of_kind (he ▸ hk), rfl⟩)

/-- A program that does not touch the database. -/
theorem keeps_journaled_of_stays {K : List Kind} {x : Game α} (hx : Stays K x)
    (hK : ∀ k ∈ K, k.leavesDatabase = true) : Keeps (Journaled docs) x :=
  hx.keeps fun k hk _ _ hab ha => Kind.journaled hab (hK k hk) ha

/-! ## The client -/

theorem Database.fault_ne_vanished {db : Database} (h : Fault.vanished ∉ db.faults) :
    db.fault ≠ .vanished := by
  intro heq
  cases hfaults : db.faults with
  | nil => simp [fault, hfaults] at heq
  | cons f fs =>
    have hf : f = .vanished := by simpa [fault, hfaults] using heq
    exact h (by simp [hfaults, hf])

/-- The next operation meets its fault, and the document it is about is there. -/
theorem Server.Journaled.meets (h : s.Journaled docs) :
    s.database.fault ≠ .vanished ∧ (s.setDatabase s.database.next).Journaled docs := by
  obtain ⟨hstay, hleaves, hreplays⟩ := h
  exact ⟨Database.fault_ne_vanished hstay, fun hmem => hstay (List.mem_of_mem_tail hmem), hleaves,
    hreplays⟩

theorem Server.Journaled.issued (h : s.Journaled docs) (he : e.LeavesId) :
    (s.issued e).Journaled docs :=
  ⟨h.meets.2.stay, List.forall_mem_cons.mpr ⟨he, h.leavesId⟩, h.replays.skipped e⟩

instance : Keeps (Journaled docs) nextFault := keeps_of_wp fun _ h => by
  rw [wp_nextFault]
  exact ⟨fun _ _ => h.meets.2, fun _ => h.meets.2⟩

theorem keeps_journaled_issue (he : e.LeavesId) : Keeps (Journaled docs) (issue e) :=
  keeps_of_wp fun _ h => by
    rw [wp_issue]
    exact ⟨fun _ _ => h.issued he, fun _ => h.issued he⟩

instance : Keeps (Journaled docs) (issue (.queryAll c)) := keeps_journaled_issue True.intro

/-- A write that met a fault was made or not. -/
theorem Server.Journaled.written {write : Database → Database} (h : s.Journaled docs)
    (he : e.LeavesId) (hdocs : (write s.database.next).docs = e.write s.database.docs)
    (hfaults : (write s.database.next).faults = s.database.next.faults) :
    ((s.issued e).setDatabase (s.database.next.written write s.database.fault)).Journaled
      docs := by
  have hissued := h.issued he
  have happlied : (s.issued e).setDatabase (write s.database.next) |>.Journaled docs :=
    ⟨hfaults ▸ hissued.stay, hissued.leavesId, hdocs ▸ h.replays.applied e⟩
  cases s.database.fault with
  | error text => exact ⟨hissued.stay, hissued.leavesId, hissued.replays⟩
  | none => exact happlied
  | throws exn => exact happlied
  | vanished => exact happlied

instance : Keeps (Journaled docs) (insert c doc) := keeps_of_wp fun s h => by
  have hfaults : (s.database.next.insert c doc).faults = s.database.next.faults := by
    rw [Database.insert]
    split <;> rfl
  rw [wp_insert]
  exact ⟨fun _ _ => h.issued True.intro, fun _ => h.written True.intro Database.docs_insert hfaults⟩

instance [hm : m.LeavesId] : Keeps (Journaled docs) (update c id m) := keeps_of_wp fun s h => by
  have hfaults : (s.database.next.update c id m).faults = s.database.next.faults := by
    rw [Database.update]
    split
    · rfl
    · split <;> rfl
  have hupdated : s.database.next.updated c id m s.database.fault =
      s.database.next.written (fun db => db.update c id m) s.database.fault := by
    have hfault := h.meets.1
    cases hf : s.database.fault <;> first | rfl | exact absurd hf hfault
  rw [wp_update]
  refine ⟨fun _ _ => h.issued hm, fun _ => ?_⟩
  rw [Database.afterUpdate, hupdated]
  exact h.written hm Database.docs_update hfaults

instance : Keeps (Journaled docs) (remove c id) := keeps_of_wp fun s h => by
  simp only [remove, wp_bind, wp_issue]
  exact ⟨fun _ _ => h.issued True.intro, fun _ => h.written True.intro Database.docs_remove rfl⟩

instance : Keeps (Journaled docs) (findOne c q) := keeps_of_wp fun s h => by
  simp only [findOne, wp_bind, wp_issue]
  refine ⟨fun _ _ => h.issued True.intro, fun _ => ?_⟩
  rw [when_false h.meets.1]
  exact h.issued True.intro

/-! ## The modifiers -/

theorem Modifier.leavesId_singleton {k : Field} {path : List Field} {v : Bson Field}
    (h : Field._id ≠ k) : Modifier.LeavesId [(k :: path, v)] :=
  ⟨List.forall_mem_singleton.mpr ⟨k, path, rfl, h⟩⟩

instance {v : Bson Field} : Modifier.LeavesId [([.owner], v)] :=
  Modifier.leavesId_singleton Field.noConfusion

instance {v : Bson Field} : Modifier.LeavesId [([.lastdraw], v)] :=
  Modifier.leavesId_singleton Field.noConfusion

instance {path : List Field} {v : Bson Field} : Modifier.LeavesId [(.archive :: path, v)] :=
  Modifier.leavesId_singleton Field.noConfusion

instance {env : Env} {p : ℤ} {pr : Profile} : (Profile.syncModifier env p pr).LeavesId := by
  refine ⟨fun w hw => ⟨.archive, w.1.tail, ?_, Field.noConfusion⟩⟩
  revert w
  simp [Profile.syncModifier]

/-! ## What uses the client -/

/-- The kinds of change that do not touch the database. -/
abbrev apartFromDatabase : List Kind :=
  [.output, .readConfig, .samp, .sampMoney, .sampZones, .streamer, .createTimer .zone,
   .createTimer .profile, .createTimer .race, .createTimer .nothing, .destroyTimer, .rearmTimer,
   .counters, .config, .profileItem, .profileLoaded, .profileSignIn, .profileTeam, .profileKills,
   .profileRole, .profileVars, .profileRace, .profileGame, .profileMoney, .teamIds, .insertTeam,
   .teamRoster, .clearTeams, .zones, .zoneData, .areas, .pickups, .properties, .races,
   .setVar .raceCreate, .setVar .raceJoined, .setVar .gzCreate, .setVar .propertyCreation,
   .setVar .propertyLastviewtime, .setVar .propertyLastviewed]

theorem keeps_journaled_apart {x : Game α} (hx : Stays apartFromDatabase x) :
    Keeps (Journaled docs) x := keeps_journaled_of_stays hx (by simp [Kind.leavesDatabase])

instance (priority := low) keeps_journaled {x : Game α} [hx : Stays apartFromDatabase x] :
    Keeps (Journaled docs) x := keeps_journaled_apart hx

/-- A method that does not touch the database. -/
instance (priority := low) keeps_journaled_method {x : Method τ α}
    [hx : MethodStays apartFromDatabase x] :
    Keeps (fun q : τ × Server => q.2.Journaled docs) x := by
  refine keeps_of_wp fun q hq => ?_
  have hjournaled : ∀ r : τ × Server, Path Kind.change apartFromDatabase q.2 r.2 →
      r.2.Journaled docs := fun r hr => hr.invariant (fun k hk _ _ hab ha => Kind.journaled hab
        (by revert k; simp [Kind.leavesDatabase]) ha) hq
  exact wp_mono (hx.path q) (fun _ r hr => hjournaled r (path_of_methodPath hr))
    (fun _ r hr => hjournaled r (path_of_methodPath hr))

/-- An object is stored back without a write to the database. -/
theorem keeps_journaled_focus {get : Server → Option τ} {put : τ → Server → Server}
    {x : Method τ α} (hput : ∀ a s, (put a s).database = s.database ∧ (put a s).trace = s.trace)
    (hx : Keeps (fun q : τ × Server => q.2.Journaled docs) x) :
    Keeps (Journaled docs) (focus get put x) :=
  keeps_focus_around (fun a s h => h.record (hput a s).1 (.inl (hput a s).2)) hx

instance {body : Document → Game Unit} [∀ doc, Keeps (Journaled docs) (body doc)] :
    Keeps (Journaled docs) (fetchAllFromDatabase c body) := by
  unfold fetchAllFromDatabase
  infer_instance

namespace SaveableItem

instance : Keeps (Journaled docs) getLastError := by
  unfold getLastError
  infer_instance

instance : Keeps (Journaled docs) (fetch c q) := by
  unfold fetch
  infer_instance

instance : Keeps (fun q : SaveableItem × Server => q.2.Journaled docs) (refetch c) := by
  unfold refetch
  infer_instance

instance {fetch : Bool} :
    Keeps (fun q : SaveableItem × Server => q.2.Journaled docs) (create c doc fetch) := by
  unfold create
  infer_instance

instance {refresh : Bool} [m.LeavesId] :
    Keeps (fun q : SaveableItem × Server => q.2.Journaled docs) (update c m refresh) := by
  unfold SaveableItem.update
  infer_instance

instance : Keeps (fun q : SaveableItem × Server => q.2.Journaled docs) (destroy c) := by
  unfold destroy
  infer_instance

end SaveableItem

section Profiles
variable {p : ℤ} {logname password : Text}

instance {x : Method SaveableItem α} [Keeps (fun q : SaveableItem × Server => q.2.Journaled docs) x] :
    Keeps (Journaled docs) (Profile.withItem p x) :=
  keeps_journaled_focus (fun _ _ => ⟨rfl, rfl⟩) inferInstance

instance : Keeps (Journaled docs) (Profile.construct logname) := by
  unfold Profile.construct
  infer_instance

instance : Keeps (Journaled docs) (Profile.sync p) := by
  unfold Profile.sync
  infer_instance

instance : Keeps (Journaled docs) (Profile.create p logname password) := by
  unfold Profile.create
  infer_instance

instance {nickname : Text} : Keeps (Journaled docs) (Profile.setNickname p nickname) := by
  unfold Profile.setNickname
  infer_instance

end Profiles

/-! ## Objects -/

instance {title : Text} : Keeps (Journaled docs) (Waypoint.ofTitle title) := by
  unfold Waypoint.ofTitle
  infer_instance

instance : Keeps (Journaled docs) (Waypoint.ofId id) := by
  unfold Waypoint.ofId
  infer_instance

instance {w : Waypoint} {title : Text} {creator : OID} :
    Keeps (Journaled docs) (w.create title creator) := by
  unfold Waypoint.create
  infer_instance

instance {leader : OID} {name : Text} {color teamid : ℤ} :
    Keeps (Journaled docs) (Team.create leader name color teamid) := by
  unfold Team.create
  infer_instance

section Zones
variable {z : ℤ} {zone : GangZoneItem}

instance {x : Method SaveableItem α} [Keeps (fun q : SaveableItem × Server => q.2.Journaled docs) x] :
    Keeps (Journaled docs) (GangZoneItem.withItem z x) :=
  keeps_journaled_focus (fun _ _ => ⟨rfl, rfl⟩) inferInstance

instance {name : Text} {owner spawnpoint : OID} {min max : CoordinatePlane}
    {trigger : Coordinate3D} :
    Keeps (Journaled docs) (GangZoneItem.ofNew name owner min max spawnpoint trigger) := by
  unfold GangZoneItem.ofNew GangZoneItem.construct
  infer_instance

instance {causedbytimeout : Bool} :
    Keeps (Journaled docs) (GangZoneItem.endWar z causedbytimeout) := by
  unfold GangZoneItem.endWar GangZoneItem.announceWinner GangZoneItem.setOwner
  infer_instance

instance : Keeps (Journaled docs) (GangZoneItem.destroy z) := by
  unfold GangZoneItem.destroy
  infer_instance

instance : Keeps (Journaled docs) GangZoneManager.loadAllFromDatabase := by
  have hreload : Keeps (Journaled docs) (emit (.reload .gangzone)) :=
    keeps_journaled_of_stays (stays_emit (K := [.reload .gangzone]) (.reload .gangzone) _ rfl)
      (by simp [Kind.leavesDatabase])
  unfold GangZoneManager.loadAllFromDatabase
  infer_instance

end Zones

section Properties
variable {o : OID} {p : ℤ}

instance {x : Method SaveableItem α} [Keeps (fun q : SaveableItem × Server => q.2.Journaled docs) x] :
    Keeps (Journaled docs) (Property.withItem o x) :=
  keeps_journaled_focus (fun _ _ => ⟨rfl, rfl⟩) inferInstance

instance {name : Text} {pos : Coordinate3D} {profit value : ℤ} :
    Keeps (Journaled docs) (Property.ofNew name pos profit value) := by
  unfold Property.ofNew
  infer_instance

instance {owner : OID} : Keeps (Journaled docs) (Property.writeOwner o owner) := by
  unfold Property.writeOwner
  infer_instance

instance {money : ℤ} : Keeps (Journaled docs) (Profile.giveMoney p money) := keeps_journaled

instance : Keeps (Journaled docs) (Property.withProperty o Property.reloadMarker) :=
  keeps_journaled

instance : Keeps (Journaled docs) (Property.draw o p) := by
  unfold Property.draw
  infer_instance

instance : Keeps (Journaled docs) (Property.purchase o p) := by
  unfold Property.purchase
  infer_instance

instance : Keeps (Journaled docs) (Property.sell o p) := by
  unfold Property.sell
  infer_instance

instance : Keeps (Journaled docs) PropertyManager.loadAllFromDatabase := by
  have hreload : Keeps (Journaled docs) (emit (.reload .property)) :=
    keeps_journaled_of_stays (stays_emit (K := [.reload .property]) (.reload .property) _ rfl)
      (by simp [Kind.leavesDatabase])
  unfold PropertyManager.loadAllFromDatabase
  infer_instance

end Properties

instance {name : Text} {starter : ℤ} : Keeps (Journaled docs) (Racing.ofName name starter) := by
  unfold Racing.ofName
  infer_instance

instance : Keeps (fun q : Racing × Server => q.2.Journaled docs) Racing.create := by
  unfold Racing.create
  infer_instance

instance {team : Team} : Keeps (Journaled docs) (TeamManager.addMember team) := by
  have hinsert : Keeps (Journaled docs) (modify fun s => { s with teams := { s.teams with
      members := s.teams.members.insert team.item.uniqueid team } } : Game Unit) :=
    keeps_of_wp fun _ h => ⟨h.stay, h.leavesId, h.replays⟩
  unfold TeamManager.addMember
  infer_instance

instance : Keeps (Journaled docs) TeamManager.loadAllFromDatabase := by
  have hreload : Keeps (Journaled docs) (emit (.reload .team)) :=
    keeps_journaled_of_stays (stays_emit (K := [.reload .team]) (.reload .team) _ rfl)
      (by simp [Kind.leavesDatabase])
  unfold TeamManager.loadAllFromDatabase
  infer_instance

/-! ## The callbacks -/

instance {waypoint : OID} {pos : Coordinate3D} :
    Keeps (Journaled docs) (createTeleportTrigger waypoint pos) := by
  unfold createTeleportTrigger
  infer_instance

instance : Keeps (Journaled docs) loadAllTeleportTriggerFromDatabase := by
  unfold loadAllTeleportTriggerFromDatabase
  infer_instance

instance {p : ℤ} : Keeps (Journaled docs) (profileMgrAdd p) := by
  have hinsert : ∀ pr, Keeps (Journaled docs)
      (modify fun s => { s with profiles := s.profiles.insert p pr } : Game Unit) :=
    fun _ => keeps_of_wp fun _ h => ⟨h.stay, h.leavesId, h.replays⟩
  unfold profileMgrAdd
  infer_instance

instance : Keeps (Journaled docs) loadGameMode := by
  have hweather : Keeps (Journaled docs) (createTimer .changeWeather 300000 true) :=
    keeps_journaled_apart (stays_createTimer .nothing rfl)
  have htime : Keeps (Journaled docs) (createTimer .changeTime 60000 true) :=
    keeps_journaled_apart (stays_createTimer .nothing rfl)
  unfold loadGameMode
  infer_instance

/-- Every handler of a dialog keeps the journal. -/
theorem keeps_journaled_callback (p listitem : ℤ) (inputtext : Text) (d : DialogId) :
    Keeps (Journaled docs) (Dialog.callback p listitem inputtext d) := by
  by_cases hd : ∀ k ∈ Dialog.footprint p d, k.leavesDatabase = true
  · exact keeps_journaled_of_stays (Dialog.stays_callback p listitem inputtext d) hd
  cases d
  case racingStartName =>
    change Keeps _ (Dialog.racingStartName p inputtext)
    unfold Dialog.racingStartName
    infer_instance
  case propertyCreateProfit =>
    change Keeps _ (Dialog.propertyCreateProfit p inputtext)
    unfold Dialog.propertyCreateProfit Dialog.modifyPropertyCreation
    infer_instance
  case propertySold =>
    change Keeps _ (Dialog.propertySold p listitem)
    unfold Dialog.propertySold
    refine within_bind (j := fun o => within_bind (j := fun _ => ?_))
    split <;> infer_instance
  case propertyOnSale =>
    change Keeps _ (Dialog.propertyOnSale p)
    unfold Dialog.propertyOnSale
    infer_instance
  case serverMain =>
    change Keeps _ (Dialog.serverMain listitem)
    unfold Dialog.serverMain
    split <;> infer_instance
  case teleportMain =>
    change Keeps _ (Dialog.teleportMain p listitem)
    unfold Dialog.teleportMain Dialog.teleportViewNearby
    split <;> infer_instance
  case teleportCreate =>
    change Keeps _ (Dialog.teleportCreate p inputtext)
    unfold Dialog.teleportCreate
    infer_instance
  case teleportUse =>
    change Keeps _ (Dialog.teleportUse p inputtext)
    unfold Dialog.teleportUse
    infer_instance
  case teleportNearby =>
    change Keeps _ (Dialog.teleportNearby p inputtext)
    unfold Dialog.teleportNearby
    infer_instance
  case teleportCreateTrigger =>
    change Keeps _ (Dialog.teleportCreateTrigger p inputtext)
    unfold Dialog.teleportCreateTrigger
    infer_instance
  case gangZoneCreateProcess =>
    change Keeps _ (Dialog.gangZoneCreateProcess p listitem)
    unfold Dialog.gangZoneCreateProcess Dialog.finishCreation Dialog.modifyCreation
    refine within_bind (j := fun o => within_bind (j := fun _ => ?_))
    split <;> infer_instance
  case gangZoneRemove =>
    change Keeps _ (Dialog.gangZoneRemove p inputtext)
    unfold Dialog.gangZoneRemove scanZone
    infer_instance
  case gangZoneChooseToSpawn =>
    change Keeps _ (Dialog.gangZoneChooseToSpawn p inputtext)
    unfold Dialog.gangZoneChooseToSpawn scanZone
    infer_instance
  case profileSettingNickname =>
    change Keeps _ (Dialog.profileSettingNickname p inputtext)
    unfold Dialog.profileSettingNickname
    infer_instance
  case profileSetting =>
    change Keeps _ (Dialog.profileSetting p listitem)
    unfold Dialog.profileSetting
    split <;> infer_instance
  case profileRegister =>
    change Keeps _ (Dialog.profileRegister p inputtext)
    unfold Dialog.profileRegister Dialog.tryRegister
    infer_instance
  all_goals exact absurd (by simp [Dialog.footprint, Kind.leavesDatabase]) hd

/-- Every command keeps the journal. -/
theorem keeps_journaled_command (p : ℤ) (cmdline : Text) (c : CommandId) :
    Keeps (Journaled docs) (Command.run p cmdline c) := by
  by_cases hc : ∀ k ∈ Command.footprint c, k.leavesDatabase = true
  · exact keeps_journaled_of_stays (Command.stays_run p cmdline c) hc
  cases c
  case teleportMain =>
    change Keeps _ (Command.teleportMain p cmdline)
    unfold Command.teleportMain
    infer_instance
  case importProperty =>
    have himport : ∀ platform line pos, Keeps (Journaled docs) (Command.importAt platform line pos) := by
      intro platform line pos
      unfold Command.importAt
      infer_instance
    change Keeps _ (Command.importProperty cmdline)
    unfold Command.importProperty Command.importLine
    infer_instance
  case createRaceDone =>
    have hfocus : Keeps (Journaled docs) (Command.withRaceCreate p Racing.create) :=
      within_bind (j := fun _ => keeps_journaled_focus (fun _ _ => ⟨rfl, rfl⟩) inferInstance)
    change Keeps _ (Command.createRaceDone p)
    unfold Command.createRaceDone
    infer_instance
  all_goals exact absurd (by simp [Command.footprint, Kind.leavesDatabase]) hc

/-- The callback of every timer keeps the journal. -/
theorem keeps_journaled_timer (c : TimerCallback) : Keeps (Journaled docs) c.run := by
  by_cases hc : ∀ k ∈ c.footprint, k.leavesDatabase = true
  · exact keeps_journaled_of_stays c.stays_run hc
  cases c
  case endTurfWar => unfold TimerCallback.run; infer_instance
  case turfWarWaitTimeout => unfold TimerCallback.run; infer_instance
  case autoSaveProfile => unfold TimerCallback.run; infer_instance
  all_goals exact absurd (by simp [TimerCallback.footprint, Kind.leavesDatabase]) hc

/-- Every event keeps the journal. -/
theorem keeps_journaled_event (e : Event) : Keeps (Journaled docs) e.run := by
  have hout : ∀ a b, Kind.output.change a b → a.Journaled docs → b.Journaled docs :=
    fun _ _ h ha => Kind.journaled h rfl ha
  by_cases he : ∀ k ∈ e.footprint, k.leavesDatabase = true
  · exact keeps_journaled_of_stays e.stays_run he
  cases e
  case gameModeInit =>
    exact keeps_of_wp fun s h => wp_gameModeInit hout h fun u hu =>
      Within.wp_of_keeps inferInstance hu
  case playerConnect p =>
    have hteam : Keeps (Journaled docs) (setPlayerTeam p noTeam) :=
      keeps_journaled_of_stays (K := [.output, .sampTeam p]) inferInstance
        (by simp [Kind.leavesDatabase])
    have hgreet : Keeps (Journaled docs) (greet p) := keeps_journaled
    have hsignedin : Keeps (Journaled docs) (Profile.setSignedIn p false) := keeps_journaled
    change Keeps _ (discard (onPlayerConnect p))
    unfold discard onPlayerConnect connectPlayer startSession
    infer_instance
  case playerDisconnect p reason =>
    have hend : Keeps (Journaled docs) (endSession p) :=
      keeps_journaled_of_stays (K := [.output, .sampTeam p, .profileTeam, .teamRoster, .streamer,
        .destroyTimer, .eraseProfile p]) inferInstance
        (by simp [Kind.leavesDatabase])
    change Keeps _ (discard (onPlayerDisconnect p reason))
    unfold discard onPlayerDisconnect disconnectPlayer
    infer_instance
  case playerCommandText p cmdtext =>
    exact keeps_of_wp fun s h => wp_commandText hout h fun _ _ line c _ _ _ _ =>
      (keeps_journaled_command p line c).wp_of_keeps h
  case dialogResponse p dialogid response listitem inputtext =>
    exact keeps_of_wp fun s h => wp_dialogResponse hout h fun _ d _ _ _ =>
      (keeps_journaled_callback p listitem inputtext d).wp_of_keeps h
  case pickUpPickup p =>
    have heffect : ∀ cls : PickupClass, Keeps (Journaled docs) (cls.effect p) := by
      intro cls
      cases cls <;> unfold PickupClass.effect <;> infer_instance
    change Keeps _ (discard (onPlayerPickUpPickup p))
    unfold discard onPlayerPickUpPickup reported PickupManager.exec
    infer_instance
  case timer handle =>
    refine keeps_of_wp fun s h => wp_fireTimer.mpr ⟨fun _ => h, fun tm _ => ?_⟩
    have hrearmed : (s.rearmed tm).Journaled docs := by
      obtain ⟨timers, heq⟩ := s.rearmed_eq tm
      exact heq ▸ ⟨h.stay, h.leavesId, h.replays⟩
    exact (keeps_journaled_timer tm.callback).wp_of_keeps hrearmed
  case teamAdd leader name color =>
    change Keeps _ (discard (TeamManager.add leader name color))
    unfold discard TeamManager.add
    infer_instance
  all_goals exact absurd (by simp [Event.footprint, Kind.leavesDatabase]) he

end Journal

/-- After an event in which no document vanishes, the documents are a replay of the trace. -/
theorem Server.step_journaled {s t : Server} {e : Event} {env : Env}
    (hstay : Fault.vanished ∉ env.faults) (h : s.step (e, env) = some t) :
    t.Journaled s.database.docs :=
  of_step h ((keeps_journaled_event e).wp_of_keeps ⟨hstay, by simp [begin], .start⟩)

end FreshCity
