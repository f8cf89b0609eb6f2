import FreshCity.Profile

/-!
# Teams and `TeamManager`

A team is kept under its object id and holds an in-game number it got from the
manager's allocator. Membership is written in three places: the profile's team,
the team's online players and the team number SA-MP has for the player.
-/
namespace FreshCity
open Imperative Prog

/-- The number of a player without a team. -/
def noTeam : ℤ := 255

/-! ## `IdentifierAllocator` -/

namespace IdentifierAllocator

/-- `Get`: a returned id if there is one, else the next, else 0. -/
def get (a : IdentifierAllocator) : ℤ × IdentifierAllocator :=
  match a.returned with
  | id :: ids => (id, { a with returned := ids })
  | [] => if a.count = a.max then (0, a) else (a.count + 1, { a with count := a.count + 1 })

/-- `Return`. -/
def return_ (a : IdentifierAllocator) (id : ℤ) : IdentifierAllocator :=
  { a with returned := id :: a.returned }

end IdentifierAllocator

/-! ## `Team` -/

/-- `TeamMgr[t]`. -/
def teamMgr (t : OID) : Game Team := do
  let member ← gets (·.teams.members.lookup t)
  getItem member

namespace Team

/-- A team the caller holds a reference to. -/
def ref (t : OID) : Game Team := do
  let member ← gets (·.teams.members.lookup t)
  orUndefined member

def modifyTeam (t : OID) (g : Team → Team) : Game Unit :=
  modify fun s => { s with teams := { s.teams with members := s.teams.members.adjust t g } }

def inGame (team : Team) (p : ℤ) : Bool := decide (p ∈ team.onlineplayers)

/-- `Team::HasOnlineMember`. -/
def hasOnlineMember (team : Team) : Bool := !team.onlineplayers.keys.isEmpty

/-- `Team::__LoadData`. -/
def loadData : Method Team Unit := do
  let team ← self
  let platform ← shared (gets (·.platform))
  let name ← check ((team.item.rawdata.field? .name).bind Bson.asString)
  assign fun t => { t with name := platform.utf8ToGBK name }
  let color ← check (readInt (team.item.rawdata.field? .color))
  assign fun t => { t with color := color }
  let leader ← check ((team.item.rawdata.field? .leader).bind Bson.asOid)
  assign fun t => { t with leader := ⟨leader⟩ }

/-- The constructor that is given the document. -/
def ofData (data : Document) (teamid : ℤ) : Game Team := do
  let item ← SaveableItem.unsaved .team
  let (_, item) ← withLocal item (SaveableItem.initData data)
  Prod.snd <$> withLocal { item := item, ingameteamid := teamid } loadData

/-- The document `Team::Create` inserts. -/
def document (id : OID) (name : Text) (leader : OID) (color : ℤ) : Document :=
  [(._id, .oid id.data),
   (.name, .string name),
   (.leader, .oid leader.data),
   (.color, .int color)]

/-- The constructor of a new team, and `Team::Create`. -/
def create (leader : OID) (name : Text) (color teamid : ℤ) : Game Team := do
  let item ← SaveableItem.unsaved .team
  let platform ← gets (·.platform)
  let id ← genOID
  let doc := document id (platform.gbkToUTF8 name) leader color
  let (_, item) ← withLocal item (SaveableItem.create .team doc false)
  pure { item := item, name := name, leader := leader, ingameteamid := teamid, color := color }

/-- Nobody is in a team that was just constructed. -/
theorem wp_create_new {leader : OID} {name : Text} {color teamid : ℤ} (s : Server) :
    wp (create leader name color teamid) (fun team _ => team.onlineplayers = ∅) (fun _ _ => True)
      s :=
  wp_last fun _ _ => wp_last fun _ _ => wp_last fun _ _ => wp_last fun _ _ => by simp

theorem wp_ofData_new {data : Document} {teamid : ℤ} (s : Server) :
    wp (ofData data teamid) (fun team _ => team.onlineplayers = ∅) (fun _ _ => True) s := by
  refine wp_last fun _ _ => wp_last fun _ _ => ?_
  simp [loadData, check]

/-- `Team::Join`. -/
def join (t : OID) (p : ℤ) : Game Unit := do
  let team ← ref t
  let pr ← Profile.ref p
  raiseIf (team.inGame p) (.runtimeError .alreadyOnThisTeam)
  raiseIf pr.team.isSet (.runtimeError .alreadyOnAnotherTeam)
  setPlayerTeam p team.ingameteamid
  Profile.modifyTeam p fun _ => team.item.uniqueid
  sendClientMessage p (.joinedTeam team.name)
  modifyTeam t fun team => { team with
    onlineplayers := team.onlineplayers.insert p pr.item.uniqueid }

/-- `Team::Quit`. -/
def quit (t : OID) (p : ℤ) : Game Unit := do
  let team ← ref t
  raiseIf (!team.inGame p) (.runtimeError .notOnThisTeam)
  setPlayerTeam p noTeam
  Profile.modifyTeam p fun _ => OID.unset
  sendClientMessage p (.quitTeam team.name)
  modifyTeam t fun team => { team with onlineplayers := team.onlineplayers.erase p }

/-- A method of the `SaveableItem` a registered team is. -/
def withItem {α : Type} (t : OID) (x : Method SaveableItem α) : Game α :=
  focus (fun s => (s.teams.members.lookup t).map (·.item))
    (fun it s => { s with teams := { s.teams with
      members := s.teams.members.adjust t fun team => { team with item := it } } }) x

/-- `Team::SetName`. -/
def setName (t : OID) (name : Text) : Game Unit := do
  let platform ← gets (·.platform)
  withItem t (SaveableItem.update .team [([.name], .string (platform.gbkToUTF8 name))] false)
  modifyTeam t fun team => { team with name := name }

/-- `Team::SetColor`. -/
def setColor (t : OID) (color : ℤ) : Game Unit := do
  withItem t (SaveableItem.update .team [([.color], .int color)] false)
  modifyTeam t fun team => { team with color := color }

end Team

/-! ## `TeamManager` -/

namespace TeamManager

/-- `_idgen.Get`. -/
def getId : Game ℤ := do
  let id ← gets (·.teams.idgen.get.1)
  modify fun s => { s with teams := { s.teams with idgen := s.teams.idgen.get.2 } }
  pure id

/-- `_idgen.Return`. -/
def returnId (id : ℤ) : Game Unit :=
  modify fun s => { s with teams := { s.teams with idgen := s.teams.idgen.return_ id } }

/-- `ItemManager::Add`. -/
def addMember (team : Team) : Game Bool := do
  let s ← gets id
  if team.item.uniqueid ∈ s.teams.members then pure false
  else
    modify fun s => { s with teams := { s.teams with
      members := s.teams.members.insert team.item.uniqueid team } }
    pure true

/-- `TeamManager::Add`. -/
def add (leader : OID) (name : Text) (color : ℤ) : Game Bool := do
  let id ← getId
  let team ← Team.create leader name color id
  addMember team

/-- `TeamManager::Remove`. The iterator is used before anything is checked. -/
def remove (t : OID) : Game Bool := do
  let team ← Team.ref t
  let s ← gets id
  if team.item.uniqueid ∈ s.teams.members then
    modify fun s => { s with teams := { s.teams with
      members := s.teams.members.erase team.item.uniqueid } }
    returnId team.ingameteamid
    pure true
  else pure false

/-- `_members.clear`. -/
def clear : Game Unit := modify fun s => { s with teams := { s.teams with members := ∅ } }

/-- `TeamManager::LoadAllFromDatabase`. -/
def loadAllFromDatabase : Game Unit := do
  emit (.reload .team)
  let members ← gets (·.teams.members.values)
  forEach (fun team => returnId team.ingameteamid) members
  clear
  fetchAllFromDatabase .team fun doc => do
    let id ← getId
    let team ← Team.ofData doc id
    let _ ← addMember team
    pure ()

end TeamManager

/-! ## Footprints -/

section Footprints
set_option synthInstance.maxSize 1000
variable {K : List Kind} {p : ℤ} {t : OID}

instance : Stays K (teamMgr t) := within_bind

namespace Team

instance : Stays K (ref t) := within_bind

instance : MethodStays K loadData := by unfold loadData; infer_instance

instance {d : Document} {id : ℤ} : Stays K (ofData d id) := by unfold ofData; infer_instance

instance {leader : OID} {name : Text} {color id : ℤ} [Listed .counters K] [Listed .output K]
    [Listed .database K] [Listed (.insert .team) K] : Stays K (create leader name color id) := by
  unfold create; infer_instance

instance {g : Team → Team} [Listed .adjustTeam K] : Stays K (modifyTeam t g) :=
  stays_modify .adjustTeam fun _ => ⟨_, _, rfl⟩

instance {g : Team → Map ℤ OID} [Listed .teamRoster K] :
    Stays K (modifyTeam t fun team => { team with onlineplayers := g team }) :=
  stays_modify .teamRoster fun _ => ⟨_, _, rfl⟩

section Teams
variable [Listed .output K]

section Membership
variable [Listed (.sampTeam p) K] [Listed .profileTeam K] [Listed .teamRoster K]

instance : Stays K (join t p) := by unfold join; infer_instance

instance : Stays K (quit t p) := by unfold quit; infer_instance

end Membership

variable [Listed .adjustTeam K]

instance {α : Type} {x : Method SaveableItem α} [h : MethodStays K x] : Stays K (withItem t x) :=
  stays_focus .adjustTeam (fun it _ => ⟨t, fun team => { team with item := it }, rfl⟩) h

variable [Listed .database K] [Listed (.update .team) K]

instance {n : Text} : Stays K (setName t n) := by unfold setName; infer_instance

instance {c : ℤ} : Stays K (setColor t c) := by unfold setColor; infer_instance

end Teams
end Team

namespace TeamManager

/-- A team that nobody is in is added under its id. -/
theorem stays_addMember [hi : Listed .insertTeam K] {team : Team} (hnew : team.onlineplayers = ∅) :
    Stays K (addMember team) := by
  refine ⟨fun s => ?_⟩
  simp only [addMember, wp_bind, wp_gets, wp_ite, wp_pure, wp_modify, id_eq]
  split
  · exact Imperative.Path.refl
  · exact Imperative.Path.single hi.mem ⟨team, hnew, ‹_›, rfl⟩

variable [Listed .teamIds K]

instance : Stays K getId :=
  (within_gets _).bind fun _ =>
    (stays_modify .teamIds fun _ => ⟨_, rfl⟩).bind fun _ => within_pure _

instance {id : ℤ} : Stays K (returnId id) := stays_modify .teamIds fun _ => ⟨_, rfl⟩

instance [Listed .clearTeams K] : Stays K clear := stays_modify .clearTeams fun _ => rfl

instance [h : Listed (.eraseTeam t) K] : Stays K (remove t) := by
  have hids : Kind.teamIds ∈ K := Listed.mem
  refine ⟨fun s => ?_⟩
  simp only [remove, Team.ref, returnId, wp_bind, wp_gets, wp_orUndefined, wp_ite, wp_modify,
    wp_pure, id_eq]
  intro team hteam
  split
  · exact (Imperative.Path.single h.mem ⟨team, hteam, rfl⟩).trans (.single hids ⟨_, rfl⟩)
  · exact Imperative.Path.refl

variable [Listed .insertTeam K]
variable [Listed .output K] [Listed .database K]

instance {leader : OID} {name : Text} {color : ℤ} [Listed .counters K] [Listed (.insert .team) K] :
    Stays K (add leader name color) :=
  within_bind (j := fun _ => Within.bind_of inferInstance (fun s => Team.wp_create_new s)
    fun _ hnew => stays_addMember hnew)

instance [Listed (.reload .team) K] [Listed .clearTeams K] : Stays K loadAllFromDatabase := by
  have hload : ∀ doc, Stays K (do
      let id ← getId
      let team ← Team.ofData doc id
      let _ ← addMember team
      pure ()) := fun doc => within_bind (j := fun _ => Within.bind_of inferInstance
    (fun s => Team.wp_ofData_new s) fun _ hnew => (stays_addMember hnew).bind fun _ => within_pure _)
  exact (stays_emit (.reload .team) _ rfl).bind fun _ => inferInstance

end TeamManager
end Footprints
end FreshCity
