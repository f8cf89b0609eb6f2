import FreshCity.Waypoint
import FreshCity.Sha256

/-!
# Profiles and `ProfileManager`

A profile is found by the id of its player. A method reaches the other members
of its profile through the manager; the writes of a method that throws stay.
-/
namespace FreshCity
open Imperative Prog

/-- `ItemManager::Get`. -/
abbrev getItem {α : Type} (member : Option α) : Game α :=
  orRaise (.runtimeError .objectDoesntExist) member

/-- `ProfileMgr[p]`. -/
def profileMgr (p : ℤ) : Game Profile := do
  let member ← gets (·.profiles.lookup p)
  getItem member

namespace Profile

/-- A profile the caller holds a reference to. -/
def ref (p : ℤ) : Game Profile := do
  let member ← gets (·.profiles.lookup p)
  orUndefined member

/-! ## Writes to one member -/

def modifyItem (p : ℤ) (g : Profile → SaveableItem) : Game Unit :=
  modify fun s => { s with profiles := s.profiles.adjust p fun q => { q with item := g q } }

def modifyAuth (p : ℤ) (g : Profile → AuthData) : Game Unit :=
  modify fun s => { s with profiles := s.profiles.adjust p fun q => { q with auth := g q } }

def modifyTeam (p : ℤ) (g : Profile → OID) : Game Unit :=
  modify fun s => { s with profiles := s.profiles.adjust p fun q => { q with team := g q } }

def modifyKills (p : ℤ) (g : Profile → KillCounter) : Game Unit :=
  modify fun s => { s with profiles := s.profiles.adjust p fun q => { q with killcounter := g q } }

def modifyRole (p : ℤ) (g : Profile → Option Role) : Game Unit :=
  modify fun s => { s with profiles := s.profiles.adjust p fun q => { q with role := g q } }

def modifyGame (p : ℤ) (g : Profile → GameData) : Game Unit :=
  modify fun s => { s with profiles := s.profiles.adjust p fun q => { q with gamedata := g q } }

/-- `SetVar` and `DelVar`, for the variables other than `race_joined`. -/
def modifyVars (p : ℤ) (g : Profile → PVars) : Game Unit :=
  modify fun s => { s with profiles := s.profiles.adjust p fun q =>
    { q with pvars := { g q with raceJoined := q.pvars.raceJoined } } }

/-- `SetVar` and `DelVar` of `race_joined`. -/
def modifyRace (p : ℤ) (g : Profile → Option ℤ) : Game Unit :=
  modify fun s => { s with profiles := s.profiles.adjust p fun q =>
    { q with pvars := { q.pvars with raceJoined := g q } } }

/-! ## Player variables -/

/-- `SetVar` of a variable other than `race_joined`. -/
def setVar (p : ℤ) (k : VarKey) (f : PVars → PVars) : Game Unit := do
  emit (.setVar p k)
  modifyVars p fun q => f q.pvars

/-- `GetVar`. -/
def getVar {α : Type} (p : ℤ) (f : PVars → Option α) : Game α := do
  let pr ← ref p
  orRaise (.runtimeError .keyDoesntExist) (f pr.pvars)

/-- `HasVar`. -/
def hasVar {α : Type} (p : ℤ) (f : PVars → Option α) : Game Bool := do
  let pr ← ref p
  pure (f pr.pvars).isSome

/-- `DelVar` of a variable other than `race_joined`. -/
def delVar (p : ℤ) (f : PVars → PVars) : Game Unit := modifyVars p fun q => f q.pvars

/-! ## Loading -/

/-- `Profile::_LoadMemberData`. -/
def loadMemberData : Method Profile Unit := rethrowAs .invalidPlayerProfile do
  let pr ← self
  let platform ← shared (gets (·.platform))
  let hash ← check ((pr.item.rawdata.at? [.auth, .password]).bind Bson.asString)
  assign fun q => { q with auth := { q.auth with passwordhash := hash } }
  let archive ← check ((pr.item.rawdata.at? [.archive, .gtasa]).bind asObj)
  assign fun q => { q with gamearchive := archive }
  let deleted ← check ((pr.item.rawdata.at? [.auth, .deleted]).bind Bson.asBool)
  assign fun q => { q with auth := { q.auth with deleted := deleted } }
  let nickname ← check ((Doc.at? archive [.reginfo, .nickname]).bind Bson.asString)
  assign fun q => { q with gamedata := { q.gamedata with
    nickname := platform.utf8ToGBK nickname } }
  let level ← check (readInt (Doc.field? archive .mgmtlevel))
  assign fun q => { q with auth := { q.auth with adminlevel := level } }
  let banned ← check ((Doc.field? archive .banned).bind Bson.asBool)
  assign fun q => { q with auth := { q.auth with banned := banned } }

/-- `_LoadMemberData` of a registered profile. -/
def load (p : ℤ) : Game Unit :=
  focus (fun s => s.profiles.lookup p)
    (fun pr s => { s with profiles := s.profiles.adjust p fun q => q.takeLoaded pr }) loadMemberData

/-- A method of the `SaveableItem` a registered profile is. -/
def withItem {α : Type} (p : ℤ) (x : Method SaveableItem α) : Game α :=
  focus (fun s => (s.profiles.lookup p).map (·.item))
    (fun it s => { s with profiles := s.profiles.adjust p fun q => { q with item := it } }) x

/-- The constructor that looks for the player's name. -/
def construct (logname : Text) : Game Profile := do
  let platform ← gets (·.platform)
  let item ← SaveableItem.fetch .profile (byText [.auth, .logname] (platform.gbkToUTF8 logname))
  let addr ← allocate
  let pr : Profile := { item := item, addr := addr }
  if item.isEmpty then pure pr
  else Prod.snd <$> withLocal pr loadMemberData

theorem wp_loadMemberData_isNew {pr : Profile} (h : pr.IsNew) (s : Server) :
    wp loadMemberData (fun _ q => q.1.IsNew) (fun _ _ => True) (pr, s) := by
  simp only [loadMemberData, rethrowAs, check, wp_handle, wp_bind, wp_self, wp_shared, wp_gets,
    wp_orRaise, wp_assign, wp_ite, wp_raise, ite_self, implies_true, and_true]
  intros
  exact ⟨h.team, h.signedin, h.autosavetimer, h.raceJoined, h.money⟩

/-- A constructed profile is new. -/
theorem wp_construct_isNew (logname : Text) (s : Server) :
    wp (construct logname) (fun pr _ => pr.IsNew) (fun _ _ => True) s := by
  simp only [construct, allocate, wp_bind, wp_gets]
  refine wp_mono (wp_true _) (fun item t _ => ?_) (fun _ _ _ => trivial)
  have hnew : ∀ a, ({ item := item, addr := a } : Profile).IsNew := fun a => by constructor <;> rfl
  split
  · exact hnew _
  · simpa using wp_loadMemberData_isNew (hnew _) _

/-- The destructor. The variables and the role go with the profile. -/
def destruct (pr : Profile) : Game Unit := do
  when (pr.auth.autosavetimer ≠ 0) (destroyTimer pr.auth.autosavetimer)
  forEach destroyDynamicObject (pr.role.bind (·.obj)).toList

/-! ## Money, score and colour -/

def setColor (p color : ℤ) : Game Unit := do
  modifyGame p fun q => { q.gamedata with color := color }
  setPlayerColor p color

def giveMoney (p money : ℤ) : Game Unit := do
  let platform ← gets (·.platform)
  modifyGame p fun q => { q.gamedata with money := platform.int (q.gamedata.money + money) }
  resetPlayerMoney p
  let pr ← ref p
  givePlayerMoney p pr.gamedata.money

def setScore (p score : ℤ) : Game Unit := do
  modifyGame p fun q => { q.gamedata with score := score }
  setPlayerScore p score

def giveScore (p score : ℤ) : Game Unit := do
  let platform ← gets (·.platform)
  let pr ← ref p
  setScore p (platform.int (pr.gamedata.score + score))

/-- `Profile::ApplyDataToPlayer`. -/
def applyDataToPlayer (p : ℤ) : Game Unit := do
  let pr ← ref p
  when pr.gamearchive.isEmpty (load p)
  rethrowAs .incompleteGamingRecord do
    let pr ← ref p
    let attr ← check ((pr.gamearchive.field? .attribute).bind asObj)
    let color ← check (readInt (Doc.field? attr .color))
    setColor p color
    let style ← check (readInt (Doc.field? attr .fightingstyle))
    native (.setPlayerFightingStyle p style)
    let money ← check (readInt (Doc.field? attr .money))
    giveMoney p money
    let score ← check (readInt (Doc.field? attr .score))
    giveScore p score

/-! ## Saving -/

/-- `GetPlayerWeaponData` over the 13 slots, without the empty ones. -/
def weapons (env : Env) (p : ℤ) : List (ℤ × ℤ) :=
  ((List.range 13).map (env.weapon p)).filter fun w => w.1 ≠ 0

/-- The `$set` of `Profile::Sync`. -/
def syncModifier (env : Env) (p : ℤ) (pr : Profile) : Modifier :=
  let attr k := [Field.archive, .gtasa, .attribute, k]
  let geo k := [Field.archive, .gtasa, .geo, k]
  [(attr .health, .number (env.health p)),
   (attr .armour, .number (env.armour p)),
   (attr .weapon, .array ((weapons env p).map fun w =>
      .object [(.id, .int w.1), (.ammo, .int w.2)])),
   (attr .skin, .int (env.skin p)),
   (attr .color, .int pr.gamedata.color),
   (attr .fightingstyle, .int (env.fightingStyle p)),
   (attr .money, .int pr.gamedata.money),
   (attr .score, .int pr.gamedata.score),
   (geo .coordinate, .array [.number (env.pos p).x, .number (env.pos p).y]),
   (geo .height, .number (env.pos p).z),
   (geo .direction, .number (env.facing p)),
   (geo .interior, .int (env.interior p)),
   (geo .world, .int (env.world p))]

/-- `Profile::Sync`. -/
def sync (p : ℤ) : Game Unit := do
  let env ← gets (·.env)
  let pr ← ref p
  withItem p (SaveableItem.update .profile (syncModifier env p pr) true)
  load p

/-- The document `Profile::Create` inserts. -/
def document (id : OID) (logname nickname digest ip : Text) (now : ℤ) : Document :=
  [(._id, .oid id.data),
   (.auth, .object
     [(.logname, .string logname),
      (.password, .string digest),
      (.ip, .string ip),
      (.time, .date now),
      (.deleted, .bool false)]),
   (.archive, .object
     [(.gtasa, .object
       [(.reginfo, .object
         [(.nickname, .string nickname),
          (.time, .date now),
          (.ip, .string ip)]),
        (.banned, .bool false),
        (.mgmtlevel, .int 0)])])]

/-- `Profile::Create`. -/
def create (p : ℤ) (logname password : Text) : Game Unit := do
  let env ← gets (·.env)
  let platform ← gets (·.platform)
  let id ← genOID
  let digest ← orUndefined (getPasswordDigest (platform.gbkToUTF8 password))
  withItem p (SaveableItem.create .profile
    (document id logname (platform.gbkToUTF8 logname) digest (env.ip p) env.time) true)
  sync p

/-- `Profile::AuthPassword`. -/
def authPassword (platform : Platform) (pr : Profile) (input : Text) : Option Bool :=
  (getPasswordDigest (platform.gbkToUTF8 input)).map fun digest => digest = pr.auth.passwordhash

/-- `Profile::SetPassword`. -/
def setPassword (p : ℤ) (newpassword : Text) : Game Unit := do
  raiseIf newpassword.isEmpty (.runtimeError .blankPassword)
  let platform ← gets (·.platform)
  let hash ← orUndefined (getPasswordDigest (platform.gbkToUTF8 newpassword))
  withItem p (SaveableItem.update .profile [([.auth, .password], .string hash)] false)
  modifyAuth p fun q => { q.auth with passwordhash := hash }

/-- `Profile::SetAdminLevel`. -/
def setAdminLevel (p level : ℤ) : Game Unit := do
  withItem p (SaveableItem.update .profile [([.archive, .gtasa, .mgmtlevel], .int level)] false)
  modifyAuth p fun q => { q.auth with adminlevel := level }

/-- `Profile::SetBanned`. -/
def setBanned (p : ℤ) (banned : Bool) : Game Unit := do
  withItem p (SaveableItem.update .profile [([.archive, .gtasa, .banned], .bool banned)] false)
  modifyAuth p fun q => { q.auth with banned := banned }

/-- `Profile::SetNickname`. -/
def setNickname (p : ℤ) (nickname : Text) : Game Unit := do
  let platform ← gets (·.platform)
  let nick := platform.gbkToUTF8 nickname
  withItem p (SaveableItem.update .profile
    [([.archive, .gtasa, .reginfo, .nickname], .string nick)] false)
  modifyGame p fun q => { q.gamedata with nickname := nick }

/-- `Profile::SetSignedIn`. -/
def setSignedIn (p : ℤ) (signedin : Bool) : Game Unit := do
  modifyAuth p fun q => { q.auth with signedin := signedin }
  let pr ← ref p
  when (signedin ∧ pr.auth.autosavetimer = 0) do
    let minutes ← configInt .autosave
    let platform ← gets (·.platform)
    let timer ← createTimer (.autoSaveProfile pr.addr) (dword (platform.int (minutes * 60000))) true
    modifyAuth p fun q => { q.auth with autosavetimer := timer }

/-! ## Playing -/

/-- `Profile::KillCounter`. -/
def killCounter (p : ℤ) : Game ℤ := do
  let interval ← configInt .killinterval
  let now ← gets (·.env.time)
  modifyKills p fun q =>
    { lastkill := now
      counter := if q.killcounter.counter ≠ 0 ∧ now - q.killcounter.lastkill > interval then 1
        else q.killcounter.counter + 1 }
  let pr ← ref p
  pure pr.killcounter.counter

def setRole (p : ℤ) (role : Role) : Game Unit := do
  let pr ← ref p
  modifyRole p fun _ => some role
  forEach destroyDynamicObject (pr.role.bind (·.obj)).toList

/-- `Profile::GetRole`. -/
def getRole (p : ℤ) : Game Role := do
  let pr ← ref p
  orRaise (.runtimeError .noRole) pr.role

/-- `Profile::GiveHealth`. Health is limited to 100. -/
def giveHealth (p : ℤ) (health : ℚ) : Game Unit := do
  let env ← gets (·.env)
  native (.setPlayerHealth p (if 100 - env.health p > health then env.health p + health else 100))

def playSound (p sound : ℤ) : Game Unit := do
  let env ← gets (·.env)
  native (.playerPlaySound p sound (env.pos p))

def detailedPos (env : Env) (p : ℤ) : Coordinate5D :=
  ⟨(env.pos p).x, (env.pos p).y, (env.pos p).z, env.world p, env.interior p, env.facing p⟩

end Profile

/-! ## `ProfileManager` -/

/-- `ProfileManager::Add`. A new profile is dropped again if there is one already. -/
def profileMgrAdd (p : ℤ) : Game Bool := do
  let env ← gets (·.env)
  let pr ← Profile.construct (env.name p)
  let s ← gets id
  if p ∈ s.profiles then
    pr.destruct
    pure false
  else
    modify fun s => { s with profiles := s.profiles.insert p pr }
    pure true

/-- `ProfileManager::Remove`. -/
def profileMgrRemove (p : ℤ) : Game Unit := do
  let member ← gets (·.profiles.lookup p)
  modify fun s => { s with profiles := s.profiles.erase p }
  forEach Profile.destruct member.toList

/-! ## Footprints -/

section Footprints
set_option synthInstance.maxSize 1000
variable {K : List Kind} {p : ℤ} {pr : Profile}

instance : Stays K (profileMgr p) := within_bind

namespace Profile

instance : Stays K (ref p) := within_bind

instance {g : Profile → SaveableItem} [Listed .profileItem K] : Stays K (modifyItem p g) :=
  stays_modify .profileItem fun _ => ⟨_, _, rfl⟩

instance {g : Profile → AuthData} [Listed .profileSignIn K] : Stays K (modifyAuth p g) :=
  stays_modify .profileSignIn fun _ => ⟨_, _, rfl⟩

instance {g : Profile → OID} [Listed .profileTeam K] : Stays K (modifyTeam p g) :=
  stays_modify .profileTeam fun _ => ⟨_, _, rfl⟩

instance {g : Profile → KillCounter} [Listed .profileKills K] : Stays K (modifyKills p g) :=
  stays_modify .profileKills fun _ => ⟨_, _, rfl⟩

instance {g : Profile → Option Role} [Listed .profileRole K] : Stays K (modifyRole p g) :=
  stays_modify .profileRole fun _ => ⟨_, _, rfl⟩

instance {g : Profile → ℤ} [Listed .profileMoney K] :
    Stays K (modifyGame p fun q => { q.gamedata with money := g q }) :=
  stays_modify .profileMoney fun _ => ⟨_, _, rfl⟩

instance {g : Profile → ℤ} [Listed .profileGame K] :
    Stays K (modifyGame p fun q => { q.gamedata with score := g q }) :=
  stays_modify .profileGame fun _ => ⟨p, fun q => { q.gamedata with score := g q }, rfl⟩

instance {g : Profile → ℤ} [Listed .profileGame K] :
    Stays K (modifyGame p fun q => { q.gamedata with color := g q }) :=
  stays_modify .profileGame fun _ => ⟨p, fun q => { q.gamedata with color := g q }, rfl⟩

instance {g : Profile → Text} [Listed .profileGame K] :
    Stays K (modifyGame p fun q => { q.gamedata with nickname := g q }) :=
  stays_modify .profileGame fun _ => ⟨p, fun q => { q.gamedata with nickname := g q }, rfl⟩

instance {g : Profile → PVars} [Listed .profileVars K] : Stays K (modifyVars p g) :=
  stays_modify .profileVars fun _ => ⟨_, _, rfl⟩

instance {g : Profile → Option ℤ} [Listed .profileRace K] : Stays K (modifyRace p g) :=
  stays_modify .profileRace fun _ => ⟨_, _, rfl⟩

instance {k : VarKey} {f : PVars → PVars} [Listed (.setVar k) K] [Listed .profileVars K] :
    Stays K (setVar p k f) :=
  (stays_emit (.setVar k) _ rfl).bind fun _ => inferInstance

instance {α : Type} {f : PVars → Option α} : Stays K (getVar p f) := within_bind

instance {α : Type} {f : PVars → Option α} : Stays K (hasVar p f) := within_bind

instance {f : PVars → PVars} [Listed .profileVars K] : Stays K (delVar p f) := by
  unfold delVar; infer_instance

instance : MethodStays K loadMemberData := by
  unfold loadMemberData; infer_instance

instance [Listed .profileLoaded K] : Stays K (load p) :=
  stays_focus .profileLoaded (fun _ _ => ⟨_, _, rfl⟩) inferInstance

instance {α : Type} {x : Method SaveableItem α} [Listed .profileItem K] [h : MethodStays K x] :
    Stays K (withItem p x) :=
  stays_focus .profileItem (fun it _ => ⟨p, fun _ => it, rfl⟩) h

section Natives
variable [Listed .output K]

instance {m : ℤ} [Listed .sampMoney K] [Listed .profileMoney K] : Stays K (giveMoney p m) := by
  unfold giveMoney; infer_instance

section Samp
variable [Listed .samp K] [Listed .profileGame K]

instance {c : ℤ} : Stays K (setColor p c) := by unfold setColor; infer_instance

instance {n : ℤ} : Stays K (setScore p n) := by unfold setScore; infer_instance

instance {n : ℤ} : Stays K (giveScore p n) := by unfold giveScore; infer_instance

variable [Listed .sampMoney K] [Listed .profileMoney K]

instance [Listed .profileLoaded K] : Stays K (applyDataToPlayer p) := by
  unfold applyDataToPlayer; infer_instance

end Samp

section Database
variable [Listed .database K]

instance {name : Text} [Listed .counters K] : Stays K (construct name) := by
  unfold construct; infer_instance

variable [Listed (.update .profile) K] [Listed .profileItem K]

instance [Listed .profileLoaded K] : Stays K (sync p) := by
  unfold sync; infer_instance

instance {n : Text} [Listed .profileGame K] : Stays K (setNickname p n) := by
  unfold setNickname; infer_instance

instance {n w : Text} [Listed (.insert .profile) K] [Listed .counters K] [Listed .profileLoaded K] :
    Stays K (create p n w) := by
  unfold create; infer_instance

end Database

instance [Listed .destroyTimer K] [Listed .streamer K] : Stays K pr.destruct := by
  unfold destruct; infer_instance

instance {b : Bool} [Listed .profileSignIn K] [Listed (.createTimer .profile) K] :
    Stays K (setSignedIn p b) := by
  have htimer : ∀ (a : ℕ) (d : ℤ), Stays K (createTimer (.autoSaveProfile a) d true) :=
    fun _ _ => stays_createTimer .profile rfl
  unfold setSignedIn; infer_instance

instance {h : ℚ} : Stays K (giveHealth p h) := by unfold giveHealth; infer_instance

instance {n : ℤ} : Stays K (playSound p n) := by unfold playSound; infer_instance

end Natives

instance [Listed .profileKills K] : Stays K (killCounter p) := by
  unfold killCounter; infer_instance

instance {r : Role} [Listed .profileRole K] [Listed .streamer K] : Stays K (setRole p r) := by
  unfold setRole; infer_instance

instance : Stays K (getRole p) := within_bind

end Profile

section Manager
variable [Listed .output K] [Listed .destroyTimer K] [Listed .streamer K]

instance [Listed .database K] [Listed .counters K] [h : Listed (.insertProfile p) K] :
    Stays K (profileMgrAdd p) := by
  refine within_bind (j := fun env => Within.bind_of inferInstance
    (fun s => Profile.wp_construct_isNew _ s) fun pr hnew => ⟨fun s => ?_⟩)
  simp only [wp_bind, wp_gets, id_eq, wp_ite, wp_modify, wp_pure]
  split
  · exact (inferInstance : Stays K pr.destruct).path s
  · exact Path.single h.mem ⟨pr, hnew, ‹_›, rfl⟩

instance [Listed (.eraseProfile p) K] : Stays K (profileMgrRemove p) :=
  (within_gets _).bind fun _ =>
    (stays_modify (.eraseProfile p) fun _ => rfl).bind fun _ => inferInstance

end Manager
end Footprints
end FreshCity
