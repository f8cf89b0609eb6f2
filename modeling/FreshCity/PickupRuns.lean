import FreshCity.ZoneRegistry

/-!
# Runs of the pickups

A pickup lives from its construction until it is destroyed, and its id may be given to another one
afterwards. The runs are those of `Add`, `Remove` and `Exec`; a pickup that was constructed is held
by a pointer until it is added or dropped.
-/
namespace FreshCity
open Imperative Prog Run

/-! ## What happened -/

/-- A pickup got an id, or the effect of the disposable pickup with an id was completed. -/
inductive PickupMark where
  | constructed (id : ℤ)
  | completed (id : ℤ)
  deriving DecidableEq

namespace PickupMark
variable {log : List PickupMark} {id n : ℤ}

/-- The effect of the disposable pickup that had the id last was completed. -/
def spent : List PickupMark → ℤ → Bool
  | [], _ => false
  | constructed n :: log, id => decide (n ≠ id) && spent log id
  | completed n :: log, id => decide (n = id) || spent log id

/-- Between two completions for one id another pickup got it. The last mark is the first. -/
def Once (log : List PickupMark) : Prop :=
  ∀ later between earlier id, log = later ++ completed id :: (between ++ completed id :: earlier) →
    constructed id ∈ between

theorem Once.nil : Once [] := by
  intro later between earlier id h
  cases later <;> cases h

/-- A completion before which no other pickup got the id is still in force. -/
theorem spent_of_completed {between earlier : List PickupMark} (h : constructed id ∉ between) :
    spent (between ++ completed id :: earlier) id = true := by
  induction between with
  | nil => simp [spent]
  | cons m between ih =>
    rw [List.mem_cons, not_or] at h
    have hrest := ih h.2
    cases m with
    | constructed n =>
      have hne : n ≠ id := fun heq => h.1 (heq ▸ rfl)
      simp [spent, hne, hrest]
    | completed n => simp [spent, hrest]

theorem Once.constructed (h : Once log) : Once (.constructed n :: log) := by
  intro later between earlier id heq
  cases later with
  | nil => cases heq
  | cons m later =>
    obtain ⟨-, heq'⟩ := List.cons.inj heq
    exact h later between earlier id heq'

/-- An effect is completed for an id that is not spent. -/
theorem Once.completed (h : Once log) (hn : spent log n = false) : Once (.completed n :: log) := by
  intro later between earlier id heq
  cases later with
  | nil =>
    obtain ⟨hm, heq'⟩ := List.cons.inj heq
    obtain rfl : n = id := PickupMark.completed.inj hm
    by_contra hnone
    have hspent : spent (between ++ .completed n :: earlier) n = true := spent_of_completed hnone
    rw [← heq', hn] at hspent
    cases hspent
  | cons m later =>
    obtain ⟨-, heq'⟩ := List.cons.inj heq
    exact h later between earlier id heq'

end PickupMark

/-! ## Calls -/

namespace Server

/-- Nothing about the pickups differs. -/
structure SamePickups (s t : Server) : Prop where
  pickups : t.pickups = s.pickups
  streamer : t.streamer = s.streamer
  platform : t.platform = s.platform

/-- The pickup with an id is unregistered and destroyed, if there is one. -/
structure Removed (s : Server) (id : ℤ) (t : Server) : Prop where
  pickups : t.pickups = s.pickups.erase id
  live : t.streamer.pickups = (s.pickups.lookup id).elim s.streamer.pickups
    fun item => s.streamer.pickups.erase item.id
  platform : t.platform = s.platform

/-- The pickup whose effect an `Exec` completes. -/
def completes (s : Server) (p id : ℤ) : Option EffectiveItem :=
  (s.pickups.lookup id).filter fun item =>
    decide (p ∈ s.profiles) && (item.cls.effect p s).value?.isSome

variable {s t u : Server} {id : ℤ}

theorem SamePickups.removed (h : s.SamePickups u) (hu : u.Removed id t) : s.Removed id t where
  pickups := by rw [hu.pickups, h.pickups]
  live := by rw [hu.live, h.pickups, h.streamer]
  platform := hu.platform.trans h.platform

end Server

section Calls
open Server
variable {s : Server} {p id : ℤ} {item : EffectiveItem} {cls : PickupClass}

end Calls

/-! ## Runs -/

/-- A call about pickups: a construction, what is done with the pointer to a pickup that was
constructed, `Remove` and `Exec`; and anything else. -/
inductive PickupOp where
  | construct (disposable : Bool) (cls : PickupClass)
  | add (item : EffectiveItem)
  | drop (item : EffectiveItem)
  | remove (id : ℤ)
  | exec (p id : ℤ)
  | meanwhile (t : Server)

namespace PickupOp

/-- A call, beside the pickups that are held by pointers. -/
def step (w : Server × List EffectiveItem) (i : PickupOp × Env) :
    Option (Server × List EffectiveItem) :=
  let s := w.1.begin i.2
  match i.1 with
  | construct disposable cls =>
    let x := PickupManager.create disposable cls s
    x.state?.bind fun t => x.value?.map fun item => (t, item :: w.2)
  | add item =>
    if item ∈ w.2 then (PickupManager.add item s).state?.map fun t => (t, w.2.erase item) else none
  | drop item =>
    if item ∈ w.2 then (PickupManager.destruct item s).state?.map fun t => (t, w.2.erase item)
    else none
  | remove id => (PickupManager.remove id s).state?.map fun t => (t, w.2)
  | exec p id => (PickupManager.exec p id s).state?.map fun t => (t, w.2)
  | meanwhile t => some ({ t with
      platform := s.platform, pickups := s.pickups
      streamer := { t.streamer with pickups := s.streamer.pickups } }, w.2)

/-- The log with what a call adds to it. -/
def note (w : Server × List EffectiveItem) (log : List PickupMark) (i : PickupOp × Env)
    (_ : Server × List EffectiveItem) : List PickupMark :=
  match i.1 with
  | construct _ _ => .constructed (w.1.platform.streamerId w.1.streamer.pickups) :: log
  | exec p id =>
    (((w.1.begin i.2).completes p id).filter (·.disposable)).elim log fun item =>
      .completed item.id :: log
  | _ => log

/-- The pickups that are registered after a call. Only `Remove` and the completed effect of a
disposable pickup take one away. -/
def pickupsAfter (s : Server) (i : PickupOp × Env) : Map ℤ EffectiveItem :=
  match i.1 with
  | add item => s.pickups.insert item.id item
  | remove id => s.pickups.erase id
  | exec p id =>
    if ((s.begin i.2).completes p id).any (·.disposable) then s.pickups.erase id else s.pickups
  | _ => s.pickups

/-- The pickups after a call are those, `Exec` runs the one that has the id, and so far no
disposable pickup was used up twice. -/
def Exact (w : (Server × List EffectiveItem) × List PickupMark) (i : PickupOp × Env)
    (u : (Server × List EffectiveItem) × List PickupMark) : Prop :=
  u.1.1.pickups = pickupsAfter w.1.1 i ∧ PickupMark.Once u.2 ∧
    ∀ p id, i.1 = exec p id → ∀ item, w.1.1.pickups.lookup id = some item → item.id = id

/-- Pickups that are registered or held have live ids, all different, and none is spent. -/
structure Registered (w : Server × List EffectiveItem) (log : List PickupMark) : Prop where
  fresh : ∀ ids, w.1.platform.streamerId ids ∉ ids
  live : Live EffectiveItem.id w.1.pickups w.1.streamer.pickups
  held : ∀ item ∈ w.2, item.id ∈ w.1.streamer.pickups ∧ item.id ∉ w.1.pickups
  apart : (w.2.map (·.id)).Nodup
  spent : ∀ id, PickupMark.spent log id = true → id ∉ w.1.pickups ∧ ∀ item ∈ w.2, item.id ≠ id
  once : PickupMark.Once log

section Registry
variable {s t : Server} {held : List EffectiveItem} {log : List PickupMark} {item : EffectiveItem}
  {id n : ℤ}

theorem Registered.same (h : Registered (s, held) log) (hpickups : t.pickups = s.pickups)
    (hlive : t.streamer.pickups = s.streamer.pickups) (hplatform : t.platform = s.platform) :
    Registered (t, held) log where
  fresh := by
    rw [hplatform]
    exact h.fresh
  live := by
    rw [hpickups, hlive]
    exact h.live
  held := by
    rw [hpickups, hlive]
    exact h.held
  apart := h.apart
  spent := by
    rw [hpickups]
    exact h.spent
  once := h.once

/-- A new pickup gets an id that no other one has. -/
theorem Registered.construct (h : Registered (s, held) log) (hpickups : t.pickups = s.pickups)
    (hid : item.id = s.platform.streamerId s.streamer.pickups)
    (hlive : t.streamer.pickups = item.id :: s.streamer.pickups) (hplatform : t.platform = s.platform) :
    Registered (t, item :: held) (.constructed item.id :: log) := by
  have hnew : item.id ∉ s.streamer.pickups := hid ▸ h.fresh _
  have hfree : item.id ∉ s.pickups := AList.lookup_eq_none.mp (h.live.lookup_eq_none hnew)
  constructor
  · rw [hplatform]
    exact h.fresh
  · rw [hpickups, hlive]
    exact h.live.cons _
  · rw [hpickups, hlive]
    intro other hmem
    rcases List.mem_cons.mp hmem with rfl | hmem
    · exact ⟨List.mem_cons_self, hfree⟩
    · exact ⟨List.mem_cons_of_mem _ (h.held other hmem).1, (h.held other hmem).2⟩
  · rw [List.map_cons, List.nodup_cons]
    refine ⟨fun hmem => ?_, h.apart⟩
    obtain ⟨other, hother, heq⟩ := List.mem_map.mp hmem
    exact hnew (heq ▸ (h.held other hother).1)
  · intro id hspent
    simp only [PickupMark.spent, Bool.and_eq_true, decide_eq_true_eq] at hspent
    obtain ⟨hne, hspent⟩ := hspent
    rw [hpickups]
    refine ⟨(h.spent id hspent).1, fun other hmem => ?_⟩
    rcases List.mem_cons.mp hmem with rfl | hmem
    · exact hne
    · exact (h.spent id hspent).2 other hmem
  · exact h.once.constructed

/-- The other pickups that are held have other ids. -/
theorem Registered.id_ne (h : Registered (s, held) log) (hitem : item ∈ held) {other : EffectiveItem}
    (hother : other ∈ held.erase item) : other.id ≠ item.id := by
  have hperm : (held.map (·.id)).Perm (item.id :: (held.erase item).map (·.id)) :=
    (List.perm_cons_erase hitem).map _
  have hnodup := hperm.nodup_iff.mp h.apart
  rw [List.nodup_cons] at hnodup
  intro heq
  exact hnodup.1 (heq ▸ List.mem_map_of_mem hother)

theorem Registered.apart_erase (h : Registered (s, held) log) :
    ((held.erase item).map (·.id)).Nodup :=
  h.apart.sublist (List.erase_sublist.map _)

/-- A pickup is registered that was held. -/
theorem Registered.add (h : Registered (s, held) log) (hitem : item ∈ held)
    (hpickups : t.pickups = s.pickups.insert item.id item)
    (hlive : t.streamer.pickups = s.streamer.pickups) (hplatform : t.platform = s.platform) :
    Registered (t, held.erase item) log := by
  constructor
  · rw [hplatform]
    exact h.fresh
  · rw [hpickups, hlive]
    exact h.live.insert (h.held item hitem).1
  · rw [hpickups, hlive]
    intro other hmem
    have hother := h.held other (List.mem_of_mem_erase hmem)
    refine ⟨hother.1, ?_⟩
    rw [AList.mem_insert, not_or]
    exact ⟨h.id_ne hitem hmem, hother.2⟩
  · exact h.apart_erase
  · intro id hspent
    obtain ⟨habsent, hheld⟩ := h.spent id hspent
    rw [hpickups, AList.mem_insert, not_or]
    exact ⟨⟨fun heq => hheld item hitem heq.symm, habsent⟩,
      fun other hmem => hheld other (List.mem_of_mem_erase hmem)⟩
  · exact h.once

/-- A pickup is destroyed that was held. -/
theorem Registered.drop (h : Registered (s, held) log) (hitem : item ∈ held)
    (hpickups : t.pickups = s.pickups)
    (hlive : t.streamer.pickups = s.streamer.pickups.erase item.id)
    (hplatform : t.platform = s.platform) : Registered (t, held.erase item) log := by
  have herase : Live EffectiveItem.id s.pickups (s.streamer.pickups.erase item.id) := by
    have hlive' := h.live.erase item.id
    rwa [Map.erase_of_notMem (h.held item hitem).2] at hlive'
  constructor
  · rw [hplatform]
    exact h.fresh
  · rw [hpickups, hlive]
    exact herase
  · rw [hpickups, hlive]
    intro other hmem
    have hother := h.held other (List.mem_of_mem_erase hmem)
    exact ⟨(List.mem_erase_of_ne (h.id_ne hitem hmem)).mpr hother.1, hother.2⟩
  · exact h.apart_erase
  · intro id hspent
    obtain ⟨habsent, hheld⟩ := h.spent id hspent
    rw [hpickups]
    exact ⟨habsent, fun other hmem => hheld other (List.mem_of_mem_erase hmem)⟩
  · exact h.once

/-- A pickup leaves the registry and is destroyed, if there is one. -/
theorem Registered.remove (h : Registered (s, held) log) (ht : s.Removed id t) :
    Registered (t, held) log := by
  obtain ⟨hpickups, hlive, hplatform⟩ := ht
  cases hitem : s.pickups.lookup id with
  | none =>
    rw [hitem] at hlive
    refine h.same ?_ hlive hplatform
    rw [hpickups, Map.erase_of_notMem (AList.lookup_eq_none.mp hitem)]
  | some item =>
    obtain rfl : item.id = id := (h.live id item hitem).1
    rw [hitem] at hlive
    constructor
    · rw [hplatform]
      exact h.fresh
    · rw [hpickups, hlive]
      exact h.live.erase _
    · rw [hpickups, hlive]
      intro other hmem
      obtain ⟨hlive', habsent⟩ := h.held other hmem
      have hne : other.id ≠ item.id := by
        intro heq
        exact habsent (heq ▸ Map.mem_iff_lookup.mpr ⟨item, hitem⟩)
      refine ⟨(List.mem_erase_of_ne hne).mpr hlive', ?_⟩
      rw [AList.mem_erase]
      exact fun hmem => habsent hmem.2
    · exact h.apart
    · intro id hspent
      obtain ⟨habsent, hheld⟩ := h.spent id hspent
      refine ⟨?_, hheld⟩
      rw [hpickups, AList.mem_erase]
      exact fun hmem => habsent hmem.2
    · exact h.once

/-- The effect of a registered pickup is logged when the pickup is gone. -/
theorem Registered.completed (h : Registered (s, held) log) (hitem : s.pickups.lookup id = some item)
    (hremoved : s.Removed id t) : Registered (t, held) (.completed item.id :: log) := by
  have ht : Registered (t, held) log := h.remove hremoved
  obtain rfl : item.id = id := (h.live id item hitem).1
  have hmem : item.id ∈ s.pickups := Map.mem_iff_lookup.mpr ⟨item, hitem⟩
  have hunspent : PickupMark.spent log item.id = false := by
    rw [Bool.eq_false_iff]
    exact fun hspent => (h.spent _ hspent).1 hmem
  refine ⟨ht.fresh, ht.live, ht.held, ht.apart, fun id hspent => ?_, h.once.completed hunspent⟩
  simp only [PickupMark.spent, Bool.or_eq_true, decide_eq_true_eq] at hspent
  rcases hspent with rfl | hspent
  · refine ⟨?_, fun other hother heq => (h.held other hother).2 (heq ▸ hmem)⟩
    rw [hremoved.pickups, AList.mem_erase]
    exact fun hmem => hmem.1 rfl
  · exact ht.spent id hspent

end Registry

variable {w u : Server × List EffectiveItem} {log : List PickupMark} {i : PickupOp × Env}

/-- Only `Exec` has to look at the pickup that it runs. -/
theorem Registered.exact (h : Registered u (note w log i u))
    (hpickups : u.1.pickups = pickupsAfter w.1 i) (hexec : ∀ p id, i.1 ≠ exec p id) :
    Registered u (note w log i u) ∧ Exact (w, log) i (u, note w log i u) :=
  ⟨h, hpickups, h.once, fun p id heq => absurd heq (hexec p id)⟩

end PickupOp

namespace Demo

end Demo

end FreshCity
