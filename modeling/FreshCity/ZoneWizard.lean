import FreshCity.ZoneCreation

/-!
# The wizard for gang zones

The wizard collects its data from two callbacks, in any order, and keeps a bit for each step. What
it holds is what happened since the last name was given: the first two clicks, and the last choice
of a point to spawn at and of a trigger.
-/
namespace FreshCity
open Imperative Prog Run

/-! ## What happened -/

/-- What a player did that has to do with the wizard. -/
inductive Mark where
  | named (name : Text)
  | clicked (corner : CoordinatePlane)
  | spawned (pos : Coordinate5D)
  | triggered (pos : Coordinate3D)
  | ended
  deriving DecidableEq

namespace Mark

def corner? : Mark → Option CoordinatePlane
  | clicked corner => some corner
  | _ => none

def spawn? : Mark → Option Coordinate5D
  | spawned pos => some pos
  | _ => none

def trigger? : Mark → Option Coordinate3D
  | triggered pos => some pos
  | _ => none

/-- The last name and what happened since, the last first, if nothing was over since then. -/
def session : List Mark → Option (Text × List Mark)
  | [] => none
  | named name :: _ => some (name, [])
  | ended :: _ => none
  | m :: log => (session log).map fun x => (x.1, m :: x.2)

/-- The clicks, the first first. -/
def clicks (marks : List Mark) : List CoordinatePlane := marks.reverse.filterMap corner?

/-- The last choice of a point to spawn at. -/
def spawn (marks : List Mark) : Option Coordinate5D := marks.findSome? spawn?

/-- The last choice of a trigger. -/
def trigger (marks : List Mark) : Option Coordinate3D := marks.findSome? trigger?

/-- Since the last name there were two clicks, a choice of a point and one of a trigger. -/
def complete (log : List Mark) : Bool :=
  (session log).any fun x =>
    decide (2 ≤ (clicks x.2).length) && (spawn x.2).isSome && (trigger x.2).isSome

end Mark

/-- What one player does to create a zone, and anything else. -/
inductive WizardOp where
  | clickMap (corner : CoordinatePlane)
  | submitName (listitem : ℤ) (name : Text)
  | choose (listitem : ℤ) (inputtext : Text)
  | meanwhile (t : Server)

namespace WizardOp

/-- The callback of an operation, or a step that leaves the player's wizard alone. -/
def step (p : ℤ) (s : Server) (i : WizardOp × Env) : Option Server :=
  match i.1 with
  | clickMap corner => s.step (.clickMap p corner, i.2)
  | submitName listitem name => s.step (.dialogResponse p 20 1 listitem name, i.2)
  | choose listitem inputtext => s.step (.dialogResponse p 21 1 listitem inputtext, i.2)
  | meanwhile t => if t.creationOf p = s.creationOf p then some t else none

/-- A zone was registered. -/
def creates (s t : Server) : Bool := t.zones.keys.any fun z => decide (z ∉ s.zones)

/-- The log with what an operation adds to it. -/
def note (p : ℤ) (s : Server) (log : List Mark) (i : WizardOp × Env) (t : Server) : List Mark :=
  match i.1 with
  | clickMap corner => .clicked corner :: log
  | submitName _ name => if name.isEmpty then log else .named name :: log
  | choose 0 _ => .spawned (Profile.detailedPos i.2 p) :: log
  | choose 1 _ => .triggered (i.2.pos p) :: log
  | choose 2 _ => if creates s t then .ended :: log else log
  | choose 3 _ => .ended :: log
  | _ => log

/-- All lookups and writes of a last choice succeed. -/
def succeeds (p : ℤ) (s : Server) (i : WizardOp × Env) : Bool :=
  match i.1 with
  | choose 2 inputtext => i.2.faults.all Fault.isSound &&
      ((Event.dialogResponse p 21 1 2 inputtext).finishes s).all fun f =>
        (s.begin i.2).creates f.2.1 f.2.2
  | _ => true

/-- A zone with this name is stored and registered: its rectangle is the smallest that contains
two points, and the point to spawn at and the trigger are these. -/
def CreatesZone (s : Server) (name : Text) (first second : CoordinatePlane) (spawn : Coordinate5D)
    (trigger : Coordinate3D) (t : Server) : Prop :=
  ∃ (lower upper : CoordinatePlane) (id point owner creator : OID) (title : Text) (zone : GangZoneItem),
    lower = ⟨min first.x second.x, min first.y second.y⟩ ∧
    upper = ⟨max first.x second.x, max first.y second.y⟩ ∧
    lower.x ≤ upper.x ∧ lower.y ≤ upper.y ∧
    zone.zone ∉ s.zones ∧ t.zones = s.zones.insert zone.zone zone ∧
    zone.item.rawdata = GangZoneItem.document id (s.platform.gbkToUTF8 name) owner lower upper point
      trigger ∧
    t.database.docs .gangzone = s.database.docs .gangzone ++ [zone.item.rawdata] ∧
    t.database.docs .waypoint = s.database.docs .waypoint ++
      [Waypoint.document { waypoint := spawn } point creator title]

/-- The last choice creates a zone exactly if the log is complete, and then the one that the log
describes. No other operation of the player does. -/
def CreatesAsMarked (w : Server × List Mark) (i : WizardOp × Env) (u : Server × List Mark) : Prop :=
  match i.1 with
  | choose 2 _ => (creates w.1 u.1 = true ↔ Mark.complete w.2 = true) ∧
      ∀ name marks first second rest spawn trigger, Mark.session w.2 = some (name, marks) →
        Mark.clicks marks = first :: second :: rest → Mark.spawn marks = some spawn →
        Mark.trigger marks = some trigger → CreatesZone w.1 name first second spawn trigger u.1
  | meanwhile _ => True
  | _ => creates w.1 u.1 = false

end WizardOp

/-! ## The bits of the steps -/

/-- A bit for each step. -/
def stepBits (min max spawnpoint trigger : Bool) : BitVec 32 :=
  (if min then Dialog.createMin else 0) ||| (if max then Dialog.createMax else 0) |||
    (if spawnpoint then Dialog.createSpawnpoint else 0) |||
    (if trigger then Dialog.createTrigger else 0)

section Bits
variable (a b c d : Bool)

theorem stepBits_min : stepBits a b c d &&& Dialog.createMin = Dialog.createMin ↔ a = true := by
  revert a b c d
  decide

theorem stepBits_max : stepBits a b c d &&& Dialog.createMax = Dialog.createMax ↔ b = true := by
  revert a b c d
  decide

theorem stepBits_eq : stepBits a b c d = 15 ↔ (a && b && c && d) = true := by
  revert a b c d
  decide

theorem stepBits_or_min : stepBits a b c d ||| Dialog.createMin = stepBits true b c d := by
  revert a b c d
  decide

theorem stepBits_or_max : stepBits a b c d ||| Dialog.createMax = stepBits a true c d := by
  revert a b c d
  decide

theorem stepBits_or_spawnpoint :
    stepBits a b c d ||| Dialog.createSpawnpoint = stepBits a b true d := by
  revert a b c d
  decide

theorem stepBits_or_trigger : stepBits a b c d ||| Dialog.createTrigger = stepBits a b c true := by
  revert a b c d
  decide

end Bits

/-! ## What the wizard holds -/

namespace GangZoneCreationInfo

/-- The data after a click. -/
def clicked (d : GangZoneCreationInfo) (corner : CoordinatePlane) : GangZoneCreationInfo :=
  if d.step &&& Dialog.createMin ≠ Dialog.createMin then
    { d with min := corner, step := d.step ||| Dialog.createMin }
  else if d.step &&& Dialog.createMax ≠ Dialog.createMax then
    { d with max := corner, step := d.step ||| Dialog.createMax }
  else d

/-- The data after a choice, if the wizard is not over. -/
def chosen (env : Env) (p listitem : ℤ) (d : GangZoneCreationInfo) : Option GangZoneCreationInfo :=
  match listitem with
  | 0 => some { d with
      spawnpoint := Profile.detailedPos env p, step := d.step ||| Dialog.createSpawnpoint }
  | 1 => some { d with trigger := env.pos p, step := d.step ||| Dialog.createTrigger }
  | 3 => none
  | _ => some d

/-- The data hold what the marks say. -/
structure Holds (d : GangZoneCreationInfo) (marks : List Mark) : Prop where
  step : d.step = stepBits (decide (1 ≤ (Mark.clicks marks).length))
    (decide (2 ≤ (Mark.clicks marks).length)) (Mark.spawn marks).isSome (Mark.trigger marks).isSome
  min : ∀ c ∈ (Mark.clicks marks)[0]?, d.min = c
  max : ∀ c ∈ (Mark.clicks marks)[1]?, d.max = c
  spawnpoint : ∀ pos ∈ Mark.spawn marks, d.spawnpoint = pos
  trigger : ∀ pos ∈ Mark.trigger marks, d.trigger = pos

variable {d : GangZoneCreationInfo} {marks : List Mark} {corner : CoordinatePlane} {env : Env} {p : ℤ}

theorem Holds.new {name : Text} : Holds { name := name } [] where
  step := rfl
  min _ h := nomatch h
  max _ h := nomatch h
  spawnpoint _ h := nomatch h
  trigger _ h := nomatch h

theorem clicks_cons_clicked :
    Mark.clicks (.clicked corner :: marks) = Mark.clicks marks ++ [corner] := by
  simp [Mark.clicks, Mark.corner?]

/-- What is no click adds none. -/
theorem clicks_cons {m : Mark} (h : m.corner? = none) :
    Mark.clicks (m :: marks) = Mark.clicks marks := by
  simp [Mark.clicks, List.filterMap_append, h]

/-- Only the first two clicks count. -/
theorem Holds.click (h : d.Holds marks) : (d.clicked corner).Holds (.clicked corner :: marks) := by
  have hspawn : Mark.spawn (.clicked corner :: marks) = Mark.spawn marks := rfl
  have htrigger : Mark.trigger (.clicked corner :: marks) = Mark.trigger marks := rfl
  have hstep := h.step
  have hmin := h.min
  have hmax := h.max
  rw [clicked]
  cases hclicks : Mark.clicks marks with
  | nil =>
    rw [hclicks] at hstep
    have hopen : d.step &&& Dialog.createMin ≠ Dialog.createMin := by
      rw [hstep, Ne, stepBits_min]
      simp
    rw [if_pos hopen]
    refine ⟨?_, ?_, ?_, h.spawnpoint, h.trigger⟩
    · rw [clicks_cons_clicked, hclicks, hspawn, htrigger, hstep, stepBits_or_min]
      rfl
    · rw [clicks_cons_clicked, hclicks]
      exact fun c hc => Option.some.inj hc
    · rw [clicks_cons_clicked, hclicks]
      exact fun c hc => nomatch hc
  | cons first clicks =>
    rw [hclicks] at hstep hmin hmax
    have hdone : ¬d.step &&& Dialog.createMin ≠ Dialog.createMin := by
      rw [hstep, Ne, stepBits_min]
      simp
    rw [if_neg hdone]
    have hmin' : ∀ c ∈ (Mark.clicks (.clicked corner :: marks))[0]?, d.min = c := by
      rw [clicks_cons_clicked, hclicks]
      exact hmin
    cases clicks with
    | nil =>
      have hopen : d.step &&& Dialog.createMax ≠ Dialog.createMax := by
        rw [hstep, Ne, stepBits_max]
        simp
      rw [if_pos hopen]
      refine ⟨?_, hmin', ?_, h.spawnpoint, h.trigger⟩
      · rw [clicks_cons_clicked, hclicks, hspawn, htrigger, hstep, stepBits_or_max]
        rfl
      · rw [clicks_cons_clicked, hclicks]
        exact fun c hc => Option.some.inj hc
    | cons second clicks =>
      have hdone' : ¬d.step &&& Dialog.createMax ≠ Dialog.createMax := by
        rw [hstep, Ne, stepBits_max]
        simp
      rw [if_neg hdone']
      refine ⟨?_, hmin', ?_, h.spawnpoint, h.trigger⟩
      · rw [clicks_cons_clicked, hclicks, hspawn, htrigger, hstep]
        simp
      · rw [clicks_cons_clicked, hclicks]
        exact hmax

/-- The last choice of a point counts. -/
theorem Holds.spawn {pos : Coordinate5D} (h : d.Holds marks) :
    Holds { d with spawnpoint := pos, step := d.step ||| Dialog.createSpawnpoint }
      (.spawned pos :: marks) where
  step := by
    rw [clicks_cons rfl, h.step, stepBits_or_spawnpoint]
    rfl
  min := by
    rw [clicks_cons rfl]
    exact h.min
  max := by
    rw [clicks_cons rfl]
    exact h.max
  spawnpoint _ hpos := Option.some.inj hpos
  trigger := h.trigger

/-- The last choice of a trigger counts. -/
theorem Holds.choose_trigger {pos : Coordinate3D} (h : d.Holds marks) :
    Holds { d with trigger := pos, step := d.step ||| Dialog.createTrigger }
      (.triggered pos :: marks) where
  step := by
    rw [clicks_cons rfl, h.step, stepBits_or_trigger]
    rfl
  min := by
    rw [clicks_cons rfl]
    exact h.min
  max := by
    rw [clicks_cons rfl]
    exact h.max
  spawnpoint := h.spawnpoint
  trigger _ hpos := Option.some.inj hpos

/-- All bits are set exactly if every step was taken. -/
theorem Holds.step_eq (h : d.Holds marks) : d.step = 15 ↔
    (decide (2 ≤ (Mark.clicks marks).length) && (Mark.spawn marks).isSome &&
      (Mark.trigger marks).isSome) = true := by
  rw [h.step, stepBits_eq]
  simp only [Bool.and_eq_true, decide_eq_true_eq]
  constructor
  · rintro ⟨⟨⟨-, htwo⟩, hspawn⟩, htrigger⟩
    exact ⟨⟨htwo, hspawn⟩, htrigger⟩
  · rintro ⟨⟨htwo, hspawn⟩, htrigger⟩
    exact ⟨⟨⟨by omega, htwo⟩, hspawn⟩, htrigger⟩

end GangZoneCreationInfo

namespace Mark
variable {log : List Mark} {gz : Option GangZoneCreationInfo} {corner : CoordinatePlane} {env : Env}
  {p : ℤ}

/-- What the wizard holds is what the log says. -/
def Agrees (log : List Mark) : Option GangZoneCreationInfo → Prop
  | none => session log = none
  | some d => ∃ marks, session log = some (d.name, marks) ∧ d.Holds marks

theorem Agrees.named {name : Text} : Agrees (.named name :: log) (some { name := name }) :=
  ⟨[], rfl, .new⟩

theorem Agrees.ended : Agrees (.ended :: log) none := rfl

/-- A mark is one more of the session, if there is a session. -/
theorem Agrees.mark {m : Mark} {f : GangZoneCreationInfo → GangZoneCreationInfo} (h : Agrees log gz)
    (hsession : session (m :: log) = (session log).map fun x => (x.1, m :: x.2))
    (hname : ∀ d, (f d).name = d.name) (hholds : ∀ d marks, d.Holds marks → (f d).Holds (m :: marks)) :
    Agrees (m :: log) (gz.map f) := by
  cases gz with
  | none =>
    have hnone : session log = none := h
    change session (m :: log) = none
    rw [hsession, hnone]
    rfl
  | some d =>
    obtain ⟨marks, hmarks, hd⟩ := h
    refine ⟨m :: marks, ?_, hholds d marks hd⟩
    rw [hsession, hmarks, hname]
    rfl

theorem Agrees.click (h : Agrees log gz) :
    Agrees (.clicked corner :: log) (gz.map fun d => d.clicked corner) := by
  refine h.mark rfl (fun d => ?_) fun _ _ hd => hd.click
  rw [GangZoneCreationInfo.clicked]
  split
  · rfl
  · split <;> rfl

theorem Agrees.spawn (h : Agrees log gz) :
    Agrees (.spawned (Profile.detailedPos env p) :: log)
      (gz.bind (GangZoneCreationInfo.chosen env p 0)) := by
  have hmark := h.mark (m := .spawned (Profile.detailedPos env p))
    (f := fun d => { d with spawnpoint := Profile.detailedPos env p,
                            step := d.step ||| Dialog.createSpawnpoint })
    rfl (fun _ => rfl) fun _ _ hd => hd.spawn
  cases gz <;> exact hmark

theorem Agrees.choose_trigger (h : Agrees log gz) :
    Agrees (.triggered (env.pos p) :: log) (gz.bind (GangZoneCreationInfo.chosen env p 1)) := by
  have hmark := h.mark (m := .triggered (env.pos p))
    (f := fun d => { d with trigger := env.pos p, step := d.step ||| Dialog.createTrigger })
    rfl (fun _ => rfl) fun _ _ hd => hd.choose_trigger
  cases gz <;> exact hmark

/-- The log is complete exactly if there are data with all bits set. -/
theorem Agrees.complete_iff (h : Agrees log gz) :
    complete log = true ↔ ∃ d, gz = some d ∧ d.step = 15 := by
  cases gz with
  | none =>
    have hnone : session log = none := h
    simp [complete, hnone]
  | some d =>
    obtain ⟨marks, hmarks, hd⟩ := h
    have hcomplete : complete log = (decide (2 ≤ (clicks marks).length) && (Mark.spawn marks).isSome &&
        (Mark.trigger marks).isSome) := by
      rw [complete, hmarks]
      rfl
    rw [hcomplete, ← hd.step_eq]
    constructor
    · intro hstep
      exact ⟨d, rfl, hstep⟩
    · rintro ⟨d', hd', hstep⟩
      obtain rfl := Option.some.inj hd'
      exact hstep

end Mark

/-- The player's wizard holds what the log says. -/
def Server.Tracks (s : Server) (p : ℤ) (log : List Mark) : Prop :=
  ∃ gz, s.creationOf p = some gz ∧ Mark.Agrees log gz

/-! ## What each callback does -/

section Steps
variable {s t : Server} {p listitem : ℤ} {env : Env} {gz : Option GangZoneCreationInfo}
  {corner : CoordinatePlane} {name inputtext : Text}

theorem creationOf_eq_some {gz : Option GangZoneCreationInfo} : s.creationOf p = some gz ↔
    ∃ pr, s.profiles.lookup p = some pr ∧ pr.pvars.gzCreate = gz := Option.map_eq_some_iff

/-- A report changes neither zones nor wizards. -/
theorem output_wizard {zones : Map ℤ GangZoneItem} {gz : Option GangZoneCreationInfo} (a b : Server)
    (hab : Kind.output.change a b) (ha : a.zones = zones ∧ a.creationOf p = some gz) :
    b.zones = zones ∧ b.creationOf p = some gz := by
  obtain ⟨_, _, rfl⟩ := hab
  exact ha

theorem wp_modifyCreation {d : GangZoneCreationInfo} {f : GangZoneCreationInfo → GangZoneCreationInfo}
    (hs : s.creationOf p = some (some d)) : wp (Dialog.modifyCreation p f)
      (fun _ t => t.zones = s.zones ∧ t.creationOf p = some (some (f d))) (fun _ _ => False) s := by
  obtain ⟨pr, hpr, hgz⟩ := creationOf_eq_some.mp hs
  rw [Dialog.modifyCreation, Profile.modifyVars, wp_modify]
  refine ⟨rfl, ?_⟩
  rw [Server.creationOf, Map.lookup_adjust_self hpr, Option.map_some, hgz]
  rfl

theorem wp_chooseCorner {d : GangZoneCreationInfo} (hs : s.creationOf p = some (some d)) :
    wp (chooseCorner p d corner) (fun _ t => t.zones = s.zones ∧
      t.creationOf p = some (some (d.clicked corner))) (fun _ _ => False) s := by
  rw [chooseCorner, GangZoneCreationInfo.clicked, wp_ite, wp_when]
  split
  · exact wp_modifyCreation hs
  · split
    · rw [wp_bind]
      exact wp_mono (wp_modifyCreation hs) (fun _ _ ht => ht) (fun _ _ ht => ht)
    · exact ⟨rfl, hs⟩

/-- A click changes the data, if there are any. -/
theorem step_clickMap (hs : s.creationOf p = some gz) (h : s.step (.clickMap p corner, env) = some t) :
    t.zones = s.zones ∧ t.creationOf p = some (gz.map fun d => d.clicked corner) := by
  obtain ⟨pr, hpr, rfl⟩ := creationOf_eq_some.mp hs
  have hpr' : (s.begin env).profiles.lookup p = some pr := hpr
  refine Server.of_step (P := fun t => t.zones = s.zones ∧
    t.creationOf p = some (pr.pvars.gzCreate.map fun d => d.clicked corner)) h ?_
  rw [Event.run, discard, wp_bind, onPlayerClickMap, wp_bind]
  refine wp_reported output_wizard ?_
  simp only [profileMgr, getItem, Profile.hasVar, Profile.getVar, Profile.ref, wp_bind, wp_gets,
    wp_orRaise, wp_orUndefined, wp_pure, wp_when, hpr', Option.some.injEq, forall_eq', reduceCtorEq,
    false_imp_iff, and_true]
  cases hgz : pr.pvars.gzCreate with
  | none => exact ⟨rfl, creationOf_eq_some.mpr ⟨pr, hpr, hgz⟩⟩
  | some d =>
    refine ⟨fun d' hd => ?_, fun hnone => absurd hnone (Option.some_ne_none d)⟩
    obtain rfl := Option.some.inj hd
    have hs' : (s.begin env).creationOf p = some (some d) := creationOf_eq_some.mpr ⟨pr, hpr, hgz⟩
    exact wp_mono (wp_chooseCorner hs') (fun _ _ ht => ht) (fun _ _ ht => ht.elim)

/-- A name starts the data anew. -/
theorem step_submitName (hs : s.creationOf p = some gz)
    (h : s.step (.dialogResponse p 20 1 listitem name, env) = some t) :
    t.zones = s.zones ∧ t.creationOf p = some (if name.isEmpty then gz else some { name := name }) := by
  obtain ⟨pr, hpr, hgz⟩ := creationOf_eq_some.mp hs
  have hdialog : Event.dialog 20 = some .gangZoneCreate := rfl
  let P : Server → Prop := fun t =>
    t.zones = s.zones ∧ t.creationOf p = some (if name.isEmpty then gz else some { name := name })
  refine state_of_wp (P := P) ?_ h
  change wp (Event.run (.dialogResponse p 20 1 listitem name)) _ _ (s.begin env)
  have hpr' : (s.begin env).profiles.lookup p = some pr := hpr
  rw [wp_of_eq (run_response hdialog hpr')]
  refine wp_reported output_wizard ?_
  change wp (Dialog.gangZoneCreate p name) _ _ _
  simp only [Dialog.gangZoneCreate, Profile.setVar, Profile.modifyVars, sendClientMessage, emit,
    wp_bind, wp_raiseIf, wp_modify]
  split
  case isTrue hempty =>
    have hs' : (s.begin env).creationOf p = some gz := hs
    exact ⟨rfl, by rw [if_pos hempty]; exact hs'⟩
  case isFalse hname =>
    refine ⟨rfl, ?_⟩
    rw [if_neg hname, Server.creationOf, Map.lookup_adjust_self hpr']
    rfl

/-- A choice changes the data, if there are any and it does not finish a creation. -/
theorem step_choose (hs : s.creationOf p = some gz)
    (hnot : (Event.dialogResponse p 21 1 listitem inputtext).finishes s = none)
    (h : s.step (.dialogResponse p 21 1 listitem inputtext, env) = some t) :
    t.zones = s.zones ∧
      t.creationOf p = some (gz.bind (GangZoneCreationInfo.chosen env p listitem)) := by
  obtain ⟨pr, hpr, hgz⟩ := creationOf_eq_some.mp hs
  have hdialog : Event.dialog 21 = some .gangZoneCreateProcess := rfl
  let P : Server → Prop := fun t => t.zones = s.zones ∧
    t.creationOf p = some (gz.bind (GangZoneCreationInfo.chosen env p listitem))
  refine state_of_wp (P := P) ?_ h
  change wp (Event.run (.dialogResponse p 21 1 listitem inputtext)) _ _ (s.begin env)
  have hpr' : (s.begin env).profiles.lookup p = some pr := hpr
  have hs' : (s.begin env).creationOf p = some gz := hs
  rw [wp_of_eq (run_response hdialog hpr')]
  refine wp_reported output_wizard ?_
  change wp (Dialog.gangZoneCreateProcess p listitem) _ _ _
  simp only [Dialog.gangZoneCreateProcess, Profile.getVar, Profile.ref, wp_bind, wp_gets,
    wp_orUndefined, wp_orRaise, hpr', Option.some.injEq, forall_eq', hgz]
  cases gz with
  | none => exact ⟨fun _ hsome => absurd hsome.symm (Option.some_ne_none _), fun _ => ⟨rfl, hs'⟩⟩
  | some d =>
    refine ⟨fun d' hd => ?_, fun hnone => absurd hnone (Option.some_ne_none d)⟩
    obtain rfl := Option.some.inj hd
    split
    · exact wp_mono (wp_modifyCreation hs') (fun _ _ ht => ht) (fun _ _ ht => ht.elim)
    · exact wp_mono (wp_modifyCreation hs') (fun _ _ ht => ht) (fun _ _ ht => ht.elim)
    · rw [Dialog.finishCreation, wp_bind, wp_raiseIf]
      split
      case isTrue => exact ⟨rfl, hs'⟩
      case isFalse hstep =>
        have hsome := Event.finishes_eq_some.mpr ⟨21, inputtext, rfl, hdialog, hpr, hgz,
          not_not.mp hstep⟩
        cases hnot.symm.trans hsome
    · rw [Profile.delVar, Profile.modifyVars, wp_modify]
      refine ⟨rfl, ?_⟩
      rw [Server.creationOf, Map.lookup_adjust_self hpr']
      rfl
    · rename_i hzero hone htwo hthree
      refine ⟨rfl, hs'.trans ?_⟩
      rw [Option.bind_some, GangZoneCreationInfo.chosen]
      · exact hzero
      · exact hone
      · exact hthree

end Steps

/-! ## Runs -/

section Corners
variable {d : GangZoneCreationInfo}

theorem lowerCorner_eq :
    Dialog.lowerCorner d = ⟨min d.min.x d.max.x, min d.min.y d.max.y⟩ := by
  simp only [Dialog.lowerCorner, gt_iff_lt, ← not_le, ite_not, min_def]

theorem upperCorner_eq :
    Dialog.upperCorner d = ⟨max d.min.x d.max.x, max d.min.y d.max.y⟩ := by
  have hmax : ∀ x y : ℚ, (if x < y then y else x) = max x y := by
    intro x y
    rw [max_comm, max_def]
    by_cases hxy : x < y
    · rw [if_pos hxy, if_neg (not_le.mpr hxy)]
    · rw [if_neg hxy, if_pos (not_lt.mp hxy)]
  rw [Dialog.upperCorner, hmax, hmax]

end Corners

namespace WizardOp
variable {s t : Server} {p : ℤ} {i : WizardOp × Env} {log : List Mark}

theorem creates_of_eq (h : t.zones = s.zones) : creates s t = false := by
  rw [creates, h, List.any_eq_false]
  intro z hz
  simpa using AList.mem_keys.mpr hz

theorem creates_of_insert {zone : GangZoneItem} (hfree : zone.zone ∉ s.zones)
    (h : t.zones = s.zones.insert zone.zone zone) : creates s t = true := by
  rw [creates, h, List.any_eq_true]
  refine ⟨zone.zone, ?_, by simpa using hfree⟩
  rw [AList.keys_insert]
  exact List.mem_cons_self

/-- A step that leaves the zones alone creates none, if the log is not complete. -/
theorem createsAsMarked_of_eq {u : List Mark} (hzones : t.zones = s.zones)
    (hcomplete : ∀ inputtext, i.1 = choose 2 inputtext → Mark.complete log = false) :
    CreatesAsMarked (s, log) i (t, u) := by
  obtain ⟨e, env⟩ := i
  have hcreates : creates s t = false := creates_of_eq hzones
  rw [CreatesAsMarked]
  split
  · rename_i inputtext heq
    have hopen := hcomplete inputtext heq
    refine ⟨by simp [hcreates, hopen], fun name marks first second rest spawn trigger => ?_⟩
    intro hsession hclicks hspawn htrigger
    rw [Mark.complete, hsession] at hopen
    simp [hclicks, hspawn, htrigger] at hopen
  · trivial
  · exact hcreates

/-- What is built is what the log describes. -/
theorem createsZone_of_built {env : Env} {pr : Profile} {d : GangZoneCreationInfo} {name : Text}
    {marks : List Mark} {first second : CoordinatePlane} {rest : List CoordinatePlane}
    {spawn : Coordinate5D} {trigger : Coordinate3D} (h : (s.begin env).ZoneBuilt pr d p t)
    (hname : d.name = name) (hd : d.Holds marks) (hclicks : Mark.clicks marks = first :: second :: rest)
    (hspawn : Mark.spawn marks = some spawn) (htrigger : Mark.trigger marks = some trigger) :
    CreatesZone s name first second spawn trigger t := by
  obtain ⟨zone, hfree, hzones, -, hraw⟩ := h.zone
  have hmin : d.min = first := hd.min first (by rw [hclicks]; rfl)
  have hmax : d.max = second := hd.max second (by rw [hclicks]; rfl)
  have hspawnpoint : d.spawnpoint = spawn := hd.spawnpoint spawn hspawn
  have htrigger' : d.trigger = trigger := hd.trigger trigger htrigger
  let a := s.begin env
  refine ⟨Dialog.lowerCorner d, Dialog.upperCorner d, (a.env.genoid (a.genoids + 2)).val,
    (a.env.genoid (a.genoids + 1)).val, pr.team, pr.item.uniqueid,
    a.platform.gbkToUTF8 (ascii "_gz_sp_" ++ (a.env.genoid a.genoids).val.str), zone, ?_, ?_, ?_, ?_,
    hfree, hzones, ?_, ?_, ?_⟩
  · rw [lowerCorner_eq, hmin, hmax]
  · rw [upperCorner_eq, hmin, hmax]
  · rw [lowerCorner_eq, upperCorner_eq]
    exact min_le_max
  · rw [lowerCorner_eq, upperCorner_eq]
    exact min_le_max
  · rw [hraw, Server.zoneDocument, hname, htrigger']
    rfl
  · rw [hraw]
    exact h.zones
  · rw [h.points, Server.pointDocument, hspawnpoint]
    rfl

/-- A choice that registers no zone is noted. -/
theorem agrees_choice {gz : Option GangZoneCreationInfo} {env : Env} {listitem : ℤ} {inputtext : Text}
    (h : Mark.Agrees log gz) (hzones : t.zones = s.zones) :
    Mark.Agrees (note p s log (choose listitem inputtext, env) t)
      (gz.bind (GangZoneCreationInfo.chosen env p listitem)) := by
  by_cases hzero : listitem = 0
  · subst hzero
    exact h.spawn
  by_cases hone : listitem = 1
  · subst hone
    exact h.choose_trigger
  by_cases hthree : listitem = 3
  · subst hthree
    cases gz <;> exact .ended
  have hsame : gz.bind (GangZoneCreationInfo.chosen env p listitem) = gz := by
    cases gz with
    | none => rfl
    | some d =>
      rw [Option.bind_some, GangZoneCreationInfo.chosen]
      · exact hzero
      · exact hone
      · exact hthree
  rw [hsame]
  by_cases htwo : listitem = 2
  · subst htwo
    change Mark.Agrees (if creates s t then .ended :: log else log) gz
    rw [creates_of_eq hzones]
    exact h
  · have hnote : note p s log (choose listitem inputtext, env) t = log := by
      rw [note]
      split <;> simp_all
    rw [hnote]
    exact h

/-- One step: the log still says what the wizard holds. -/
theorem step_tracks (hs : s.Tracks p log) (hsucceeds : succeeds p s i = true)
    (h : step p s i = some t) : t.Tracks p (note p s log i t) ∧
      CreatesAsMarked (s, log) i (t, note p s log i t) := by
  obtain ⟨e, env⟩ := i
  obtain ⟨gz, hgz, hagrees⟩ := hs
  cases e with
  | clickMap corner =>
    obtain ⟨hzones, ht⟩ := step_clickMap hgz h
    exact ⟨⟨_, ht, hagrees.click⟩, createsAsMarked_of_eq hzones nofun⟩
  | submitName listitem name =>
    obtain ⟨hzones, ht⟩ := step_submitName hgz h
    refine ⟨⟨_, ht, ?_⟩, createsAsMarked_of_eq hzones nofun⟩
    change Mark.Agrees (if name.isEmpty then log else .named name :: log) _
    split
    · exact hagrees
    · exact .named
  | meanwhile u =>
    simp only [step, Option.ite_none_right_eq_some, Option.some.injEq] at h
    obtain ⟨hsame, rfl⟩ := h
    exact ⟨⟨gz, hsame.trans hgz, hagrees⟩, trivial⟩
  | choose listitem inputtext =>
    cases hfinishes : (Event.dialogResponse p 21 1 listitem inputtext).finishes s with
    | none =>
      obtain ⟨hzones, ht⟩ := step_choose hgz hfinishes h
      refine ⟨⟨_, ht, agrees_choice hagrees hzones⟩, createsAsMarked_of_eq hzones fun text heq => ?_⟩
      obtain ⟨rfl, rfl⟩ := WizardOp.choose.inj heq
      rw [Bool.eq_false_iff, Ne, hagrees.complete_iff]
      rintro ⟨d, rfl, hstep⟩
      obtain ⟨pr, hpr, hd⟩ := creationOf_eq_some.mp hgz
      have hsome := Event.finishes_eq_some.mpr ⟨21, inputtext, rfl, rfl, hpr, hd, hstep⟩
      cases hfinishes.symm.trans hsome
    | some f =>
      obtain ⟨q, pr, d⟩ := f
      obtain ⟨_, _, hevent, -, hpr, hd, hstep⟩ := Event.finishes_eq_some.mp hfinishes
      obtain ⟨rfl, rfl⟩ : p = q ∧ listitem = 2 := by
        injection hevent with hp _ _ hitem
        exact ⟨hp, hitem⟩
      simp only [succeeds, hfinishes, Option.all_some, Bool.and_eq_true, List.all_eq_true] at hsucceeds
      obtain ⟨hsound, hcreates⟩ := hsucceeds
      have hdialog : Event.dialog 21 = some .gangZoneCreateProcess := rfl
      rcases step_process hdialog hsound h with ⟨pr', d', hsome, -, hbuilt⟩ | ⟨-, hnone⟩
      · obtain ⟨rfl, rfl⟩ : pr = pr' ∧ d = d' := by simpa using hfinishes.symm.trans hsome
        obtain ⟨zone, hfree, hzones, -⟩ := hbuilt.zone
        have hcreated : creates s t = true := creates_of_insert hfree hzones
        obtain rfl : gz = some d := Option.some.inj (hgz.symm.trans (creationOf_eq_some.mpr ⟨pr, hpr, hd⟩))
        refine ⟨⟨none, hbuilt.creation, ?_⟩, ?_, ?_⟩
        · change Mark.Agrees (if creates s t then .ended :: log else log) _
          rw [if_pos hcreated]
          exact .ended
        · exact iff_of_true hcreated (hagrees.complete_iff.mpr ⟨d, rfl, hstep⟩)
        · intro name marks first second rest spawn trigger hsession hclicks hspawn htrigger
          obtain ⟨marks', hmarks, hholds⟩ := hagrees
          obtain ⟨rfl, rfl⟩ : name = d.name ∧ marks = marks' := by
            simpa using hsession.symm.trans hmarks
          exact createsZone_of_built hbuilt rfl hholds hclicks hspawn htrigger
      · cases hcreates.symm.trans (hnone p pr d hfinishes)

/-- A run whose operations so far are noted. -/
theorem run_createsAsMarked {is : List (WizardOp × Env)} (hs : s.Tracks p log)
    (hsucceeds : Meets (step p) (fun s i => succeeds p s i = true) s is) :
    AllSteps (watch (step p) (note p)) CreatesAsMarked (s, log) is := by
  induction is generalizing s log with
  | nil => trivial
  | cons i is ih =>
    intro u hu
    obtain ⟨hstep, hu2⟩ := watch_eq_some.mp hu
    obtain ⟨hfirst, hrest⟩ := hsucceeds u.1 hstep
    obtain ⟨htracks, hcreates⟩ := step_tracks hs hfirst hstep
    rw [hu2] at htracks hcreates
    exact ⟨hcreates, ih htracks hrest⟩

end WizardOp

/-- In every order of clicks, names and choices, a last choice creates a zone exactly if since the
last name there were two clicks, a choice of a point and one of a trigger, and nothing ended. The
zone is the one that these describe. -/
theorem wizard_creates_iff (p : ℤ) (s : Server) (is : List (WizardOp × Env))
    (hs : s.creationOf p = some none)
    (hsucceeds : Meets (WizardOp.step p) (fun s i => WizardOp.succeeds p s i = true) s is) :
    AllSteps (watch (WizardOp.step p) (WizardOp.note p)) WizardOp.CreatesAsMarked (s, []) is :=
  WizardOp.run_createsAsMarked ⟨none, hs, rfl⟩ hsucceeds

namespace Demo

/-- The captain has a wizard open, and clicks from the lower right to the upper left. -/
def clicks : List (WizardOp × Env) :=
  [(.submitName 0 (ascii "zone"), env), (.clickMap ⟨3, 2⟩, env), (.choose 0 [], env),
    (.choose 2 [], env), (.choose 1 [], env), (.clickMap ⟨1, 5⟩, env), (.choose 2 [], env)]

end Demo

/-- The leader of a team creates a zone once every step is done. -/
theorem captain_creates_zone :
    AllSteps (watch (WizardOp.step 0) (WizardOp.note 0)) WizardOp.CreatesAsMarked
      (Demo.leading, []) Demo.clicks :=
  wizard_creates_iff 0 Demo.leading Demo.clicks (by decide)
    (meets_of_check (b := WizardOp.succeeds 0) (fun _ _ h => h) (by decide +kernel))

end FreshCity
