import FreshCity.Imperative.Cooldown
import FreshCity.Imperative.Run
import FreshCity.Views

/-!
# The wait between two skills

`Role` remembers when its skill was last used, and `OnPlayerKeyStateChange` asks it before
each use. A role that is selected is a new object, which has forgotten the uses of the one
before it.
-/
namespace FreshCity
open Imperative Prog Run

/-- When the role of a profile was last used, and its time limit. -/
def Profile.clock (pr : Profile) : Option (ℤ × ℤ) :=
  pr.role.map fun r => (r.skilllastuse, r.timelimit)

namespace Server
variable (s : Server)

def clockOf (p : ℤ) : Option (ℤ × ℤ) := ((s.profiles.lookup p).map Profile.clock).join

/-- The time from which the role of a player can perform its skill. -/
def readyAt (p : ℤ) : Option ℤ := (s.clockOf p).map fun c => c.1 + c.2

end Server

/-- The message after a skill, to a player. -/
def Effect.praises (p : ℤ) : Effect → Bool
  | message q m => decide (q = p) && decide (m = .skillPerformed)
  | _ => false

/-- The log after one more event: a player who is told that the skill was performed has used
the role he held. -/
def logUses (s : Server) (log : List (Use ℤ)) (i : Event × Env) (t : Server) : List (Use ℤ) :=
  match i.1 with
  | .playerKeyStateChange p _ _ =>
    if t.trace.any (Effect.praises p) then
      ((s.clockOf p).map fun c => ⟨p, i.2.time, c.2⟩).toList ++ log
    else log
  | _ => log

/-- A role is selected only when the role the player holds can perform its skill. -/
def selectsWhenReady (s : Server) (i : Event × Env) : Bool :=
  match i.1 with
  | .dialogResponse p dialogid _ listitem _ =>
    !(Event.dialog dialogid = some .roleSelect && (Dialog.roleOf listitem).isSome) ||
      ((s.profiles.lookup p).bind (·.role)).all fun r => r.canPerformSkill i.2.time
  | _ => true

/-! ## What leaves the roles alone -/

namespace Kind

/-- The kinds that leave alone who has a profile and which role it has. -/
def keepsRoles : Kind → Bool
  | insertProfile _ => false
  | eraseProfile _ => false
  | profileRole => false
  | _ => true

variable {k : Kind} {s t : Server}

theorem clockOf_adjust {q : ℤ} {f : Profile → Profile}
    (ht : t.profiles = s.profiles.adjust q f) (hf : ∀ pr, (f pr).clock = pr.clock) :
    t.clockOf = s.clockOf := by
  funext p
  rw [Server.clockOf, Server.clockOf, ht, Map.map_lookup_adjust hf]

theorem clockOf_eq (h : k.change s t) (hk : k.keepsRoles = true) : t.clockOf = s.clockOf := by
  by_cases hw : k.writesProfiles = false
  · funext p
    rw [Server.clockOf, Server.clockOf, (frame h).profiles hw]
  cases k
  case profileItem => obtain ⟨q, g, rfl⟩ := h; exact clockOf_adjust rfl fun _ => rfl
  case profileLoaded => obtain ⟨q, g, rfl⟩ := h; exact clockOf_adjust rfl fun _ => rfl
  case profileSignIn => obtain ⟨q, g, rfl⟩ := h; exact clockOf_adjust rfl fun _ => rfl
  case profileTeam => obtain ⟨q, g, rfl⟩ := h; exact clockOf_adjust rfl fun _ => rfl
  case profileKills => obtain ⟨q, g, rfl⟩ := h; exact clockOf_adjust rfl fun _ => rfl
  case profileVars => obtain ⟨q, g, rfl⟩ := h; exact clockOf_adjust rfl fun _ => rfl
  case profileRace => obtain ⟨q, g, rfl⟩ := h; exact clockOf_adjust rfl fun _ => rfl
  case profileGame => obtain ⟨q, g, rfl⟩ := h; exact clockOf_adjust rfl fun _ => rfl
  case profileMoney => obtain ⟨q, g, rfl⟩ := h; exact clockOf_adjust rfl fun _ => rfl
  all_goals first
    | exact absurd rfl hw
    | cases hk

/-- The kinds that do not make a player forget a role. -/
def remembersUses : Kind → Bool
  | eraseProfile _ => false
  | profileRole => false
  | _ => true

/-- A new profile is under an id that had none, and so no role. -/
theorem covered {now : ℤ} {log : List (Use ℤ)} (h : k.change s t) (hr : k.remembersUses = true)
    (hs : Use.Covered s.readyAt now log) : Use.Covered t.readyAt now log := by
  by_cases hk : k.keepsRoles = true
  · have hclock := clockOf_eq h hk
    have hready : t.readyAt = s.readyAt := by
      funext p
      rw [Server.readyAt, Server.readyAt, hclock]
    exact hready ▸ hs
  cases k
  case insertProfile q =>
    obtain ⟨pr, -, hq, rfl⟩ := h
    refine hs.mono fun p r hready => ?_
    by_cases hp : p = q
    · subst hp
      have hnone : s.profiles.lookup p = none := AList.lookup_eq_none.mpr hq
      rw [Server.readyAt, Server.clockOf, hnone] at hready
      cases hready
    · rw [Server.readyAt, Server.clockOf] at hready ⊢
      rwa [AList.lookup_insert_ne hp]
  all_goals first
    | exact absurd rfl hk
    | cases hr

end Kind

/-! ## Deaths -/

section Roles
variable {s u : Server} {p : ℤ}

/-- The roles are as they were when the event came in. -/
structure Server.SameRoles (s t : Server) : Prop where
  clockOf : t.clockOf = s.clockOf
  env : t.env = s.env

/-- The kinds of change a death makes besides those of the object of a role. -/
abbrev deathEffects : List Kind :=
  [.output, .samp, .sampMoney, .streamer, .zoneData, .pickups, .profileGame, .profileMoney,
    .profileKills]

instance (priority := low) keeps_sameRoles {α : Type} {x : Game α} [hx : Stays deathEffects x] :
    Keeps s.SameRoles x := by
  have hall : ∀ k ∈ deathEffects, k.keepsRoles = true := by simp [Kind.keepsRoles]
  exact hx.keeps fun k hk _ _ hab ha =>
    ⟨(Kind.clockOf_eq hab (hall k hk)).trans ha.clockOf, (Kind.frame hab).env.trans ha.env⟩

theorem clockOf_withObject (obj : Option ℤ) (t : Server) :
    { t with profiles := t.profiles.adjust p fun q =>
      { q with role := q.role.map fun r => { r with obj := obj } } : Server }.clockOf =
      t.clockOf := by
  refine Kind.clockOf_adjust rfl fun pr => ?_
  rw [Profile.clock, Profile.clock, Option.map_map]
  rfl

/-- Another object for a role is not another role. -/
instance {obj : Option ℤ} : Keeps s.SameRoles (Role.resetObject p obj) := by
  unfold Role.resetObject
  have hmodify : Keeps s.SameRoles
      (Profile.modifyRole p fun q => q.role.map fun r => { r with obj := obj }) := by
    refine keeps_of_wp fun t ht => ?_
    exact ⟨(clockOf_withObject obj t).trans ht.clockOf, ht.env⟩
  infer_instance

instance {r : Role} : Keeps s.SameRoles (r.onDeath p) := by unfold Role.onDeath; infer_instance

set_option synthInstance.maxSize 1000

instance {killerid : ℤ} : Keeps s.SameRoles (playerDeath p killerid) := by
  have hdrop : ∀ w, Keeps s.SameRoles (dropWeapon w) := fun _ => inferInstance
  have hreward : Keeps s.SameRoles (rewardKiller p killerid) := inferInstance
  unfold playerDeath
  infer_instance

theorem keeps_playerDeath {killerid reason : ℤ} :
    Keeps s.SameRoles (onPlayerDeath p killerid reason) := by
  have hdeath : Keeps s.SameRoles (playerDeath p killerid) := inferInstance
  unfold onPlayerDeath reported
  infer_instance

/-! ## Uses of a skill -/

/-- The roles are as they were, and the player was not told of a skill. -/
structure Server.Unused (s : Server) (p : ℤ) (t : Server) : Prop extends s.SameRoles t where
  trace : t.trace.any (Effect.praises p) = false

/-- The player used the role he held, which could perform its skill. -/
structure Server.Used (s : Server) (p : ℤ) (t : Server) : Prop where
  trace : t.trace.any (Effect.praises p) = true
  env : t.env = s.env
  clockOf : ∃ c, s.clockOf p = some c ∧ c.1 + c.2 ≤ s.env.time ∧
    t.clockOf = Function.update s.clockOf p (some (s.env.time, c.2))

theorem Server.Unused.emit {e : Effect} (h : s.Unused p u) (he : e.praises p = false) :
    s.Unused p { u with trace := e :: u.trace } :=
  ⟨⟨h.clockOf, h.env⟩, by rw [List.any_cons, he, h.trace]; rfl⟩

theorem keeps_unused_emit {e : Effect} (he : e.praises p = false) : Keeps (s.Unused p) (emit e) :=
  keeps_of_wp fun _ hu => hu.emit he

instance {n : Native} : Keeps (s.Unused p) (native n) := keeps_unused_emit rfl

instance (priority := low) keeps_unused {α : Type} {x : Game α} [hx : Stays [.streamer] x] :
    Keeps (s.Unused p) x := by
  refine hx.keeps fun k hk a b hab ha => ?_
  obtain rfl := List.mem_singleton.mp hk
  obtain ⟨_, rfl⟩ := hab
  exact ⟨⟨ha.clockOf, ha.env⟩, ha.trace⟩

instance {q : ℤ} {obj : Option ℤ} : Keeps (s.Unused p) (Role.resetObject q obj) := by
  unfold Role.resetObject
  have hmodify : Keeps (s.Unused p)
      (Profile.modifyRole q fun pr => pr.role.map fun r => { r with obj := obj }) := by
    refine keeps_of_wp fun t ht => ?_
    exact ⟨⟨(clockOf_withObject obj t).trans ht.clockOf, ht.env⟩, ht.trace⟩
  infer_instance

/-- Up to the record of its use a skill tells the player of no success. -/
instance {r : Role} {q target : ℤ} : Keeps (s.Unused p) (r.skill q target) := by
  have hdragged : Keeps (s.Unused p) (sendClientMessage target .draggedByAssault) :=
    keeps_unused_emit (by simp [Effect.praises])
  unfold Role.skill Profile.giveHealth
  cases r.cls <;> infer_instance

instance {r : Role} {q : ℤ} : Keeps (s.Unused p) (skillTarget q r) := by
  unfold skillTarget
  infer_instance

theorem clockOf_eq_some {pr : Profile} {r : Role} (hpr : s.profiles.lookup p = some pr)
    (hr : pr.role = some r) : s.clockOf p = some (r.skilllastuse, r.timelimit) := by
  rw [Server.clockOf, hpr, Option.map_some, Profile.clock, hr]
  rfl

/-- The record of a use sets the time of the last one. -/
theorem wp_recordUse {c : ℤ × ℤ} (h : s.Unused p u) (hc : s.clockOf p = some c)
    (hready : c.1 + c.2 ≤ s.env.time) : wp (do Role.recordUse p; sendClientMessage p .skillPerformed)
    (fun _ => s.Used p) (fun _ _ => False) u := by
  simp only [Role.recordUse, Profile.modifyRole, sendClientMessage, emit, wp_bind, wp_gets, wp_modify]
  refine ⟨by simp [Effect.praises], h.env, c, hc, hready, ?_⟩
  funext q
  rw [← h.clockOf] at hc ⊢
  rw [Server.clockOf, Option.join_eq_some_iff, Option.map_eq_some_iff] at hc
  obtain ⟨pr, hpr, hclock⟩ := hc
  simp only [Server.clockOf, Map.lookup_adjust]
  by_cases hq : q = p
  · subst hq
    rw [Profile.clock, Option.map_eq_some_iff] at hclock
    obtain ⟨r, hr, rfl⟩ := hclock
    simp [hpr, Profile.clock, hr, h.env]
  · simp [hq, Server.clockOf]

/-- A use of a skill is recorded, or it throws before that. -/
theorem wp_useSkill (h : s.Unused p u) :
    wp (useSkill p) (fun _ => s.Used p) (fun _ => s.Unused p) u := by
  simp only [useSkill, Profile.getRole, Profile.ref, Role.performSpecialSkill, wp_bind, wp_gets,
    wp_orUndefined, wp_orRaise, wp_raiseIf]
  refine fun pr hpr => ⟨fun r hr => ?_, fun _ => h⟩
  split
  case isTrue => exact h
  case isFalse hcan =>
  have hready : r.skilllastuse + r.timelimit ≤ s.env.time := by
    rw [h.env] at hcan
    simp only [Role.canPerformSkill, Bool.not_eq_true', decide_eq_false_iff_not, not_not] at hcan
    omega
  have hclock : s.clockOf p = some (r.skilllastuse, r.timelimit) :=
    h.clockOf ▸ clockOf_eq_some hpr hr
  have htarget : Keeps (s.Unused p) (skillTarget p r) := inferInstance
  refine wp_mono (htarget.wp_of_keeps h) (fun target v hv => ?_) (fun _ _ hv => hv)
  have hskill : Keeps (s.Unused p) (r.skill p target) := inferInstance
  rw [wp_bind, wp_bind]
  refine wp_mono (hskill.wp_of_keeps hv) (fun _ w hw => ?_) (fun _ _ hw => hw)
  have hrecord := wp_recordUse hw hclock hready
  rw [wp_bind] at hrecord
  exact wp_mono hrecord (fun _ _ hx => hx) (fun _ _ hx => hx.elim)

/-- A key press uses the skill once at most, and tells the player if it did. -/
theorem wp_keyStateChange {newkeys oldkeys : BitVec 32} (h : s.Unused p u) :
    wp (onPlayerKeyStateChange p newkeys oldkeys) (fun _ t => s.Used p t ∨ s.Unused p t)
      (fun _ _ => False) u := by
  have hunused : wp (do
        let _ ← profileMgr p
        let env ← gets (·.env)
        when ((keyPressed newkeys oldkeys keyFire ∨ keyPressed newkeys oldkeys keyAction) ∧
          env.inVehicle p) (native (.addVehicleComponent (env.vehicle p) 1010))
        when (keyPressed newkeys oldkeys keyNo) (useSkill p))
      (fun _ t => s.Used p t ∨ s.Unused p t) (fun _ => s.Unused p) u := by
    rw [wp_bind]
    have hpr : Keeps (s.Unused p) (profileMgr p) := inferInstance
    refine wp_mono (hpr.wp_of_keeps h) (fun _ v hv => ?_) (fun _ _ hv => hv)
    rw [wp_bind, wp_gets, wp_bind]
    have hnative : Keeps (s.Unused p) (when ((keyPressed newkeys oldkeys keyFire ∨
        keyPressed newkeys oldkeys keyAction) ∧ v.env.inVehicle p)
        (native (.addVehicleComponent (v.env.vehicle p) 1010))) := inferInstance
    refine wp_mono (hnative.wp_of_keeps hv) (fun _ w hw => ?_) (fun _ _ hw => hw)
    rw [wp_when]
    split
    case isTrue => exact wp_mono (wp_useSkill hw) (fun _ _ => .inl) (fun _ _ hx => hx)
    case isFalse => exact .inr hw
  rw [onPlayerKeyStateChange, wp_bind, reported, wp_handle]
  refine wp_mono hunused (fun _ _ ht => ht) (fun e t ht => .inr (ht.emit ?_))
  cases e <;> simp [Effect.praises, Dialog.exceptionMessage]

end Roles

/-! ## Events -/

/-- Only a player who leaves or presses keys, a death and a choice of role touch the roles. -/
theorem Event.remembersUses {e : Event} (hleave : ∀ p reason, e ≠ .playerDisconnect p reason)
    (hkeys : ∀ p newkeys oldkeys, e ≠ .playerKeyStateChange p newkeys oldkeys)
    (hdeath : ∀ p killerid reason, e ≠ .playerDeath p killerid reason)
    (hdialog : ∀ p dialogid response listitem inputtext,
      e ≠ .dialogResponse p dialogid response listitem inputtext) :
    ∀ k ∈ e.footprint, k.remembersUses = true := by
  cases e
  case playerDisconnect p reason => exact absurd rfl (hleave p reason)
  case playerKeyStateChange p newkeys oldkeys => exact absurd rfl (hkeys p newkeys oldkeys)
  case playerDeath p killerid reason => exact absurd rfl (hdeath p killerid reason)
  case dialogResponse p d r l i => exact absurd rfl (hdialog p d r l i)
  case playerCommandText p cmdtext =>
    simp [footprint, CommandId.all, Command.footprint, Kind.remembersUses]
  all_goals simp [footprint, Kind.remembersUses]

theorem Dialog.remembersUses {p : ℤ} {d : DialogId} (hd : d ≠ .roleSelect) :
    ∀ k ∈ Dialog.footprint p d, k.remembersUses = true := by
  cases d
  case roleSelect => exact absurd rfl hd
  all_goals simp [Dialog.footprint, Kind.remembersUses]

section Steps
variable {s t : Server} {e : Event} {env : Env} {p : ℤ} {log : List (Use ℤ)} {now : ℤ}

/-- A role is replaced. -/
theorem wp_roleSelect {listitem : ℤ} (hs : Use.Covered s.readyAt now log)
    (hready : (Dialog.roleOf listitem).isSome = true → ∀ r, s.readyAt p = some r → r ≤ now) :
    wp (Dialog.roleSelect p listitem) (fun _ t => Use.Covered t.readyAt now log)
      (fun _ t => Use.Covered t.readyAt now log) s := by
  have hkept : ∀ {K : List Kind} {x : Game Unit}, Stays K x → (∀ k ∈ K, k.remembersUses = true) →
      ∀ u, Use.Covered u.readyAt now log → wp x (fun _ t => Use.Covered t.readyAt now log)
        (fun _ t => Use.Covered t.readyAt now log) u := fun hx hK u hu =>
    hx.invariant (fun k hk a b hab ha => Kind.covered hab (hK k hk) ha) hu
  rw [Dialog.roleSelect, wp_bind]
  refine wp_mono (Q := fun _ t => Use.Covered t.readyAt now log) ?_ (fun _ u hu => ?_)
    (fun _ _ hu => hu)
  · cases hrole : Dialog.roleOf listitem with
    | none => exact hs
    | some role =>
      have hnow := hready (by rw [hrole]; rfl)
      simp only [Option.toList_some, forEach, Profile.setRole, Profile.ref, Profile.modifyRole,
        wp_bind, wp_gets, wp_orUndefined, wp_modify]
      intro pr hpr
      have hreset : Use.Covered (Server.readyAt { s with
          profiles := s.profiles.adjust p fun q => { q with role := some role } }) now log := by
        refine hs.reset (k := p) hnow fun q hq => ?_
        simp only [Server.readyAt, Server.clockOf, Map.lookup_adjust, if_neg hq]
      have hobject : Stays [.streamer] (forEach destroyDynamicObject (pr.role.bind (·.obj)).toList) :=
        inferInstance
      exact hkept hobject (by simp [Kind.remembersUses]) _ hreset
  · have hspawn : Stays [.output] (native (.spawnPlayer p)) := inferInstance
    exact hkept hspawn (by simp [Kind.remembersUses]) u hu

/-- A role the player holds is ready when it can perform its skill. -/
theorem readyAt_le (h : ((s.profiles.lookup p).bind (·.role)).all fun r => r.canPerformSkill now)
    {r : ℤ} (hr : s.readyAt p = some r) : r ≤ now := by
  rw [Server.readyAt, Option.map_eq_some_iff] at hr
  obtain ⟨c, hc, rfl⟩ := hr
  rw [Server.clockOf, Option.join_eq_some_iff, Option.map_eq_some_iff] at hc
  obtain ⟨pr, hpr, hclock⟩ := hc
  rw [Profile.clock, Option.map_eq_some_iff] at hclock
  obtain ⟨role, hrole, rfl⟩ := hclock
  simp only [hpr, Option.bind_some, hrole, Option.all_some, Role.canPerformSkill,
    decide_eq_true_eq] at h
  omega

/-- A key press makes a use that is not too early at most. -/
theorem keyStateChange_covered {newkeys oldkeys : BitVec 32}
    (h : s.step (.playerKeyStateChange p newkeys oldkeys, env) = some t) (hlog : Use.Spaced log)
    (hs : Use.Covered s.readyAt env.time log) :
    Use.Spaced (logUses s log (.playerKeyStateChange p newkeys oldkeys, env) t) ∧
      Use.Covered t.readyAt env.time
        (logUses s log (.playerKeyStateChange p newkeys oldkeys, env) t) := by
  have hbegin : (s.begin env).Unused p (s.begin env) := ⟨⟨rfl, rfl⟩, rfl⟩
  have hused : (s.begin env).Used p t ∨ (s.begin env).Unused p t := by
    refine Server.of_step (P := fun t => (s.begin env).Used p t ∨ (s.begin env).Unused p t) h ?_
    rw [Event.run, wp_discard]
    exact wp_mono (wp_keyStateChange hbegin) (fun _ _ ht => ht) (fun _ _ ht => ht.elim)
  rcases hused with hused | hunused
  · obtain ⟨c, hc, hready, hclock⟩ := hused.clockOf
    have hold : s.clockOf p = some c := hc
    have hlogged : logUses s log (.playerKeyStateChange p newkeys oldkeys, env) t =
        ⟨p, env.time, c.2⟩ :: log := by
      simp [logUses, hused.trace, hold]
    rw [hlogged]
    refine hs.use hlog (fun r hr => ?_) (fun q hq => ?_) ?_
    · rw [Server.readyAt, hold, Option.map_some, Option.some.injEq] at hr
      exact hr ▸ hready
    · rw [Server.readyAt, hclock, Function.update_of_ne hq]
      rfl
    · rw [Server.readyAt, hclock, Function.update_self]
      rfl
  · have hsame : logUses s log (.playerKeyStateChange p newkeys oldkeys, env) t = log := by
      simp [logUses, hunused.trace]
    have hready : t.readyAt = s.readyAt := by
      funext q
      rw [Server.readyAt, hunused.clockOf]
      rfl
    rw [hsame, hready]
    exact ⟨hlog, hs⟩

/-- A role is selected when the one the player holds is ready, if at all. -/
theorem dialogResponse_covered {dialogid response listitem : ℤ} {inputtext : Text}
    (h : s.step (.dialogResponse p dialogid response listitem inputtext, env) = some t)
    (hselect : selectsWhenReady s (.dialogResponse p dialogid response listitem inputtext, env) = true)
    (hs : Use.Covered s.readyAt env.time log) : Use.Covered t.readyAt env.time log := by
  refine Server.of_step h (wp_dialogResponse (I := fun u => Use.Covered u.readyAt env.time log)
    (fun a b hab ha => Kind.covered hab rfl ha) hs fun pr d hpr hd _ => ?_)
  by_cases hrole : d = .roleSelect
  · subst hrole
    refine wp_roleSelect hs fun hsome r hr => ?_
    simp only [selectsWhenReady, hd, hsome, decide_true, Bool.and_true, Bool.not_true,
      Bool.false_or] at hselect
    exact readyAt_le hselect hr
  · exact (Dialog.stays_callback p listitem inputtext d).invariant
      (fun k hk _ _ hab ha => Kind.covered hab (Dialog.remembersUses hrole k hk) ha) hs

theorem playerDeath_covered {killerid reason : ℤ}
    (h : s.step (.playerDeath p killerid reason, env) = some t)
    (hs : Use.Covered s.readyAt now log) : Use.Covered t.readyAt now log := by
  have hroles : (s.begin env).SameRoles t := by
    refine Server.of_step (P := (s.begin env).SameRoles) h ?_
    rw [Event.run, wp_discard]
    exact keeps_playerDeath.wp_of_keeps ⟨rfl, rfl⟩
  have hready : t.readyAt = s.readyAt := by
    funext q
    rw [Server.readyAt, hroles.clockOf]
    rfl
  exact hready ▸ hs

/-- One event makes a use that is not too early at most, and forgets none. -/
theorem step_covered (h : s.step (e, env) = some t)
    (hleave : ∀ p reason, e ≠ .playerDisconnect p reason)
    (hselect : selectsWhenReady s (e, env) = true) (hlog : Use.Spaced log)
    (hs : Use.Covered s.readyAt env.time log) :
    Use.Spaced (logUses s log (e, env) t) ∧
      Use.Covered t.readyAt env.time (logUses s log (e, env) t) := by
  by_cases hkeys : ∃ p newkeys oldkeys, e = .playerKeyStateChange p newkeys oldkeys
  · obtain ⟨p, newkeys, oldkeys, rfl⟩ := hkeys
    exact keyStateChange_covered h hlog hs
  have hsame : logUses s log (e, env) t = log := by
    cases e
    case playerKeyStateChange p newkeys oldkeys => exact absurd ⟨p, newkeys, oldkeys, rfl⟩ hkeys
    all_goals rfl
  rw [hsame]
  refine ⟨hlog, ?_⟩
  by_cases hdeath : ∃ p killerid reason, e = .playerDeath p killerid reason
  · obtain ⟨p, killerid, reason, rfl⟩ := hdeath
    exact playerDeath_covered h hs
  by_cases hdialog : ∃ p dialogid response listitem inputtext,
      e = .dialogResponse p dialogid response listitem inputtext
  · obtain ⟨p, dialogid, response, listitem, inputtext, rfl⟩ := hdialog
    exact dialogResponse_covered h hselect hs
  refine Server.step_invariant (I := fun u => Use.Covered u.readyAt env.time log) h ?_ hs
  intro k hk a b hab ha
  refine Kind.covered hab (Event.remembersUses hleave ?_ ?_ ?_ k hk) ha
  · exact fun p newkeys oldkeys heq => hkeys ⟨p, newkeys, oldkeys, heq⟩
  · exact fun p killerid reason heq => hdeath ⟨p, killerid, reason, heq⟩
  · exact fun p d r l i heq => hdialog ⟨p, d, r, l, i, heq⟩

/-! ## Runs -/

/-- A run whose uses so far are remembered. -/
theorem run_spaced {is : List (Event × Env)} (htimes : (is.map fun i => i.2.time).Pairwise (· ≤ ·))
    (hleave : ∀ i ∈ is, ∀ p reason, i.1 ≠ .playerDisconnect p reason)
    (hselect : Meets Server.step (fun s i => selectsWhenReady s i = true) s is)
    (hlog : Use.Spaced log) (hs : ∀ i ∈ is, Use.Covered s.readyAt i.2.time log) :
    AllSteps (watch Server.step logUses) (fun _ _ u => Use.Spaced u.2) (s, log) is := by
  induction is generalizing s log with
  | nil => trivial
  | cons i is ih =>
    intro u hu
    obtain ⟨hstep, hu2⟩ := watch_eq_some.mp hu
    obtain ⟨hfirst, hrest⟩ := hselect u.1 hstep
    rw [List.map_cons, List.pairwise_cons] at htimes
    obtain ⟨hspaced, hcovered⟩ := step_covered hstep (hleave i List.mem_cons_self) hfirst hlog
      (hs i List.mem_cons_self)
    rw [hu2] at hspaced hcovered
    refine ⟨hspaced, ih htimes.2 (fun j hj => hleave j (List.mem_cons_of_mem i hj)) hrest hspaced ?_⟩
    exact fun j hj => hcovered.later (htimes.1 j.2.time (List.mem_map_of_mem hj))

end Steps

/-- In a run at times that do not go back, two uses of a skill by one player are apart by the
limit of the role that was used first, if roles are selected only when the one held is ready. -/
theorem skill_uses_spaced (s : Server) (is : List (Event × Env))
    (htimes : (is.map fun i => i.2.time).Pairwise (· ≤ ·))
    (hleave : ∀ i ∈ is, ∀ p reason, i.1 ≠ .playerDisconnect p reason)
    (hselect : Meets Server.step (fun s i => selectsWhenReady s i = true) s is) :
    AllSteps (watch Server.step logUses) (fun _ _ u => Use.Spaced u.2) (s, []) is :=
  run_spaced htimes hleave hselect List.Pairwise.nil fun _ _ => Use.Covered.nil

namespace Demo

/-- An engineer is selected in the list of roles. -/
def chooseEngineer (p : ℤ) : Event := .dialogResponse p 29 1 3 []

/-- The key for the skill is pressed. -/
def pressSkill (p : ℤ) : Event := .playerKeyStateChange p keyNo 0

/-- Events of a player, each at its time. -/
def timed (es : List (Event × ℤ)) : List (Event × Env) := es.map fun e => (e.1, { time := e.2 })

end Demo

/-- The second use comes after a minute. -/
theorem waiting_engineer_spaced :
    AllSteps (watch Server.step logUses) (fun _ _ u => Use.Spaced u.2) (Demo.initial, [])
      (Demo.timed [(.playerConnect 0, 100), (Demo.chooseEngineer 0, 100), (Demo.pressSkill 0, 100),
        (Demo.chooseEngineer 0, 160), (Demo.pressSkill 0, 160)]) :=
  skill_uses_spaced _ _ (by decide) (by simp [Demo.timed, Demo.chooseEngineer, Demo.pressSkill])
    (meets_of_check (b := fun s i => selectsWhenReady s i) (fun _ _ h => h) (by decide +kernel))

/-- An engineer who selects the role again uses its skill twice at one time. -/
theorem new_role_forgets_use :
    ¬∀ (s : Server) (is : List (Event × Env)), (is.map fun i => i.2.time).Pairwise (· ≤ ·) →
      (∀ i ∈ is, ∀ p reason, i.1 ≠ .playerDisconnect p reason) →
      AllSteps (watch Server.step logUses) (fun _ _ u => Use.Spaced u.2) (s, []) is := by
  intro hall
  have hrun := hall Demo.initial (Demo.timed [(.playerConnect 0, 100), (Demo.chooseEngineer 0, 100),
    (Demo.pressSkill 0, 100), (Demo.chooseEngineer 0, 100)] ++ [(Demo.pressSkill 0, { time := 100 })])
    (by decide) (by simp [Demo.timed, Demo.chooseEngineer, Demo.pressSkill])
  exact not_allSteps _ _ (fun _ (u : Server × List (Use ℤ)) => decide (Use.Spaced u.2))
    (fun _ _ h => decide_eq_true h) (by decide +kernel) hrun

end FreshCity
