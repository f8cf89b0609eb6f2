import FreshCity.Sessions

/-!
# Membership of races

A player's race is written down in the variable `race_joined` and in the race's
map of racers. A race that goes clears the variable of its racers, and a player
who quits is taken off the map. A player who leaves the server is not.
-/
namespace FreshCity
open Imperative Prog Run

namespace Server

/-- The variable `race_joined` of a player. -/
def raceOf (s : Server) (p : ℤ) : Option ℤ := (s.profiles.lookup p).bind (·.pvars.raceJoined)

/-- A registered race has a player among its racers. -/
def HasRacer (s : Server) (k p : ℤ) : Prop := ∃ race, s.races.lookup k = some race ∧ p ∈ race.racers

end Server

/-- The two records of who is in which race say the same. -/
structure RacesAgree (w : Server × Occupancy) : Prop where
  link : ∀ p k, w.2 p = true → (w.1.raceOf p = some k ↔ w.1.HasRacer k p)
  connected : ∀ p k, w.1.HasRacer k p → w.2 p = true
  unique : ∀ p j k, w.1.HasRacer j p → w.1.HasRacer k p → j = k

/-- `RaceLinked` but for a race that is not registered: its racers have the variable set
to `k`, and are in no registered race. -/
structure LinkedBut (c : Occupancy) (k : ℤ) (qs : List ℤ) (s : Server) : Prop where
  keyed : ∀ j race, s.races.lookup j = some race → race.racedata.starter = j
  there : ∀ p j, s.raceOf p = some j → c p = true
  outside : ∀ p j, p ∉ qs → (s.raceOf p = some j ↔ s.HasRacer j p)
  inside : ∀ p, p ∈ qs → s.raceOf p = some k ∧ ∀ j, ¬s.HasRacer j p

/-- Races are kept under their starters, and the variable of a connected player names
the race that has the player. -/
structure RaceLinked (c : Occupancy) (s : Server) : Prop where
  keyed : ∀ j race, s.races.lookup j = some race → race.racedata.starter = j
  there : ∀ p j, s.raceOf p = some j → c p = true
  link : ∀ p j, s.raceOf p = some j ↔ s.HasRacer j p

section Links
variable {c : Occupancy} {s t : Server} {k p : ℤ} {qs : List ℤ}

theorem RaceLinked.racesAgree (h : RaceLinked c s) : RacesAgree (s, c) where
  link p k _ := h.link p k
  connected p k hp := h.there p k ((h.link p k).mpr hp)
  unique p j k hj hk := Option.some.inj (((h.link p j).mpr hj).symm.trans ((h.link p k).mpr hk))

theorem linkedBut_nil : LinkedBut c k [] s ↔ RaceLinked c s :=
  ⟨fun h => ⟨h.keyed, h.there, fun p j => h.outside p j (by simp)⟩,
    fun h => ⟨h.keyed, h.there, fun p j _ => h.link p j, by simp⟩⟩

/-- Only two parts of the server matter to the link. -/
theorem LinkedBut.of_eq (h : LinkedBut c k qs s) (hr : ∀ j, t.races.lookup j = s.races.lookup j)
    (hv : ∀ p, t.raceOf p = s.raceOf p) : LinkedBut c k qs t := by
  have hhas : ∀ j p, t.HasRacer j p ↔ s.HasRacer j p := fun j p => by simp [Server.HasRacer, hr]
  refine ⟨fun j race hj => h.keyed j race (hr j ▸ hj), fun p j hp => h.there p j (hv p ▸ hp),
    fun p j hp => ?_, fun p hp => ?_⟩
  · rw [hv, hhas, h.outside p j hp]
  · simpa only [hv, hhas] using h.inside p hp

theorem RaceLinked.of_eq (h : RaceLinked c s) (hr : ∀ j, t.races.lookup j = s.races.lookup j)
    (hv : ∀ p, t.raceOf p = s.raceOf p) : RaceLinked c t :=
  (linkedBut_nil (k := 0)).mp ((linkedBut_nil.mpr h).of_eq hr hv)

theorem RaceLinked.mono {d : Occupancy} (h : RaceLinked c s)
    (hcd : ∀ p j, s.raceOf p = some j → c p = true → d p = true) : RaceLinked d s :=
  ⟨h.keyed, fun p j hp => hcd p j hp (h.there p j hp), h.link⟩

end Links

/-! ## Kinds of change -/

namespace Kind
variable {k : Kind} {s t : Server} {c : Occupancy} {p : ℤ}

/-- The kinds that change neither a race nor a variable `race_joined`. -/
def sparesRaces : Kind → Bool
  | profileRace => false
  | races => false
  | _ => true

theorem raceOf_eq (h : k.change s t) (hk : k ≠ .profileRace)
    (he : k = .eraseProfile p → s.raceOf p = none) : t.raceOf p = s.raceOf p := by
  by_cases hi : k = .insertProfile p
  · subst hi
    obtain ⟨pr, hnew, hp, rfl⟩ := h
    simp [Server.raceOf, hnew.raceJoined, AList.lookup_eq_none.mpr hp]
  by_cases herase : k = .eraseProfile p
  · subst herase
    rw [he rfl]
    obtain rfl := h
    simp [Server.raceOf]
  · have hview := view_profile (f := fun pr : Profile => pr.pvars.raceJoined) h hi herase
      fun _ _ hev => hev.raceJoined hk
    simpa [Server.raceOf, Option.bind_map] using congrArg (·.bind id) hview

theorem races_eq (h : k.change s t) (hk : k.sparesRaces = true) : t.races = s.races :=
  (frame h).races fun heq => by simp [heq, sparesRaces] at hk

theorem ne_profileRace (hk : k.sparesRaces = true) : k ≠ .profileRace := fun heq => by
  simp [heq, sparesRaces] at hk

theorem raceLinked (h : k.change s t) (hk : k.sparesRaces = true)
    (he : ∀ p, k = .eraseProfile p → s.raceOf p = none) (hs : RaceLinked c s) : RaceLinked c t :=
  hs.of_eq (fun _ => by rw [races_eq h hk]) fun p => raceOf_eq h (ne_profileRace hk) (he p)

end Kind

/-! ## Changes of a race that keep its racers -/

section Changes
variable {c : Occupancy} {s : Server} {k p : ℤ} {qs : List ℤ}

/-- A change that keeps the starter and the racers of a race. -/
structure SameRoster (g : Racing → Racing) : Prop where
  starter : ∀ r, (g r).racedata.starter = r.racedata.starter
  mem : ∀ r p, p ∈ (g r).racers ↔ p ∈ r.racers

theorem hasRacer_adjust {g : Racing → Racing} (hg : SameRoster g) (j : ℤ) :
    ({ s with races := s.races.adjust k g } : Server).HasRacer j p ↔ s.HasRacer j p := by
  simp only [Server.HasRacer, Map.lookup_adjust]
  by_cases hj : j = k
  · subst hj
    simp [hg.mem]
  · simp [hj]

theorem RaceLinked.adjust {g : Racing → Racing} (h : RaceLinked c s) (hg : SameRoster g) :
    RaceLinked c { s with races := s.races.adjust k g } := by
  refine ⟨fun j race hj => ?_, h.there, fun p j => (h.link p j).trans (hasRacer_adjust hg j).symm⟩
  simp only [Map.lookup_adjust] at hj
  split at hj
  · obtain ⟨old, hold, rfl⟩ := Option.map_eq_some_iff.mp hj
    rw [hg.starter, h.keyed k old hold, ‹j = k›]
  · exact h.keyed j race hj

/-! ## Clearing the variable -/

theorem raceOf_adjust (m : Map ℤ Profile) (p q : ℤ) (o : Option ℤ) :
    ((m.adjust p fun r => { r with pvars := { r.pvars with raceJoined := o } }).lookup q).bind
        (·.pvars.raceJoined) =
      if q = p then (m.lookup p).bind fun _ => o else (m.lookup q).bind (·.pvars.raceJoined) := by
  rw [Map.lookup_adjust]
  split <;> simp [Option.bind_map]

/-- `Profile::DelVar` of `race_joined`, as a change of the server. -/
def Server.clearRace (s : Server) (p : ℤ) : Server :=
  { s with profiles := s.profiles.adjust p fun q =>
    { q with pvars := { q.pvars with raceJoined := none } } }

theorem raceOf_clearRace (q : ℤ) :
    (s.clearRace p).raceOf q = if q = p then none else s.raceOf q := by
  simp only [Server.raceOf, Server.clearRace, raceOf_adjust]
  split <;> simp

/-- One racer of a race that goes. -/
theorem LinkedBut.clear (h : LinkedBut c k (p :: qs) s) (hp : p ∉ qs) :
    LinkedBut c k qs (s.clearRace p) := by
  obtain ⟨-, hfree⟩ := h.inside p (List.mem_cons_self ..)
  refine ⟨h.keyed, fun q j hq => ?_, fun q j hq => ?_, fun q hq => ?_⟩
  · rw [raceOf_clearRace] at hq
    split at hq
    · cases hq
    · exact h.there q j hq
  · rw [raceOf_clearRace]
    split
    · rename_i heq
      subst heq
      exact iff_of_false (by simp) (hfree j)
    · exact h.outside q j (by simp [*])
  · have hne : q ≠ p := fun heq => hp (heq ▸ hq)
    rw [raceOf_clearRace, if_neg hne]
    exact h.inside q (List.mem_cons_of_mem _ hq)

/-- Changes that neither of the two records is about. -/
theorem LinkedBut.of_kind {t : Server} {j : Kind} (h : LinkedBut c k qs s) (hst : j.change s t)
    (hj : j.sparesRaces = true) (he : ∀ p, j ≠ .eraseProfile p) : LinkedBut c k qs t :=
  h.of_eq (fun _ => by rw [Kind.races_eq hst hj]) fun p =>
    Kind.raceOf_eq hst (Kind.ne_profileRace hj) fun heq => absurd heq (he p)

end Changes

/-! ## The end of a race -/

section End
variable {c : Occupancy} {s : Server} {k p : ℤ} {race : Racing}

/-- The destructor clears the variable of every racer. It does not throw, since each of
them has a profile. -/
theorem wp_destructRacers {qs : List ℤ} (hqs : qs.Nodup) (h : LinkedBut c k qs s) :
    wp (forEach (fun q => do
      native (.togglePlayerControllable q true)
      disablePlayerRaceCheckpoint q
      let _ ← profileMgr q
      Profile.delRaceJoined q) qs) (fun _ => RaceLinked c) (fun _ _ => False) s := by
  induction qs generalizing s with
  | nil => exact linkedBut_nil.mp h
  | cons q qs ih =>
    obtain ⟨hq, hnodup⟩ := List.nodup_cons.mp hqs
    obtain ⟨hrace, -⟩ := h.inside q (List.mem_cons_self ..)
    obtain ⟨pr, hpr, -⟩ := Option.bind_eq_some_iff.mp hrace
    simp only [forEach, native, disablePlayerRaceCheckpoint, emit, profileMgr,
      Profile.delRaceJoined, Profile.modifyRace, wp_bind, wp_modify, wp_gets, wp_orRaise, hpr,
      Option.some.injEq, forall_eq', reduceCtorEq, false_imp_iff, and_true]
    exact ih hnodup ((h.clear hq).of_eq (fun _ => rfl) fun _ => rfl)

theorem wp_destruct (h : LinkedBut c k race.racers.keys s) :
    wp race.destruct (fun _ => RaceLinked c) (fun _ _ => False) s := by
  have hdestroy : wp (when (race.racedata.countdowntimerid ≠ 0)
      (destroyTimer race.racedata.countdowntimerid)) (fun _ => LinkedBut c k race.racers.keys)
      (fun _ _ => False) s := by
    simp only [destroyTimer, emit, wp_when, wp_bind, wp_modify]
    split
    · exact h.of_eq (fun _ => rfl) fun _ => rfl
    · exact h
  rw [Racing.destruct, wp_bind]
  exact wp_mono hdestroy (fun _ _ ht => wp_destructRacers race.racers.keys_nodup ht)
    (fun _ _ hf => hf)

/-- A race that is taken off the registry leaves its racers with the variable alone. -/
theorem linkedBut_erase (h : RaceLinked c s) (hrace : s.races.lookup k = some race) :
    LinkedBut c k race.racers.keys { s with races := s.races.erase k } := by
  have hhas : ∀ j p, ({ s with races := s.races.erase k } : Server).HasRacer j p ↔
      j ≠ k ∧ s.HasRacer j p := by
    intro j p
    simp only [Server.HasRacer, Map.lookup_erase_ite]
    by_cases hj : j = k <;> simp [hj]
  refine ⟨fun j r hj => ?_, h.there, fun p j hp => ?_, fun p hp => ?_⟩
  · simp only [Map.lookup_erase_ite] at hj
    split at hj
    · cases hj
    · exact h.keyed j r hj
  · rw [hhas]
    have hk : ¬s.HasRacer k p := by
      rintro ⟨r, hr, hmem⟩
      obtain rfl : race = r := Option.some.inj (hrace.symm.trans hr)
      exact hp (AList.mem_keys.mp hmem)
    refine (h.link p j).trans ⟨fun hj => ⟨?_, hj⟩, fun hj => hj.2⟩
    rintro rfl
    exact hk hj
  · have hin : s.raceOf p = some k := (h.link p k).mpr ⟨race, hrace, AList.mem_keys.mpr hp⟩
    refine ⟨hin, fun j hj => ?_⟩
    rw [hhas] at hj
    exact hj.1 (Option.some.inj (((h.link p j).mpr hj.2).symm.trans hin))

theorem wp_mgrRemove (h : RaceLinked c s) :
    wp (Racing.mgrRemove k) (fun _ => RaceLinked c) (fun _ _ => False) s := by
  simp only [Racing.mgrRemove, wp_bind, wp_gets, wp_modify]
  cases hrace : s.races.lookup k with
  | none =>
    have hsame : s.races.erase k = s.races := Map.erase_of_notMem (AList.lookup_eq_none.mp hrace)
    exact h.of_eq (fun _ => by rw [hsame]) fun _ => rfl
  | some race =>
    simp only [Option.toList, forEach, wp_bind]
    exact wp_destruct (linkedBut_erase h hrace)

instance keeps_mgrRemove : Keeps (RaceLinked c) (Racing.mgrRemove k) :=
  keeps_of_wp fun _ hs => wp_mono (wp_mgrRemove hs) (fun _ _ ht => ht) (fun _ _ hf => hf.elim)

end End

/-! ## Joining and quitting -/

section Join
variable {c : Occupancy} {s : Server} {k p : ℤ}

/-- The kinds of change a join makes once the racer is entered. -/
abbrev joinKinds : List Kind := [.output, .samp]

/-- The server once `race_joined` is set. -/
def Server.setRace (s : Server) (p k : ℤ) : Server :=
  { s with
    trace := .setVar p .raceJoined :: s.trace
    profiles := s.profiles.adjust p fun q =>
      { q with pvars := { q.pvars with raceJoined := some k } } }

theorem raceOf_setRace (q : ℤ) : (s.setRace p k).raceOf q =
    if q = p then (s.profiles.lookup p).bind fun _ => some k else s.raceOf q := by
  simp only [Server.raceOf, Server.setRace, raceOf_adjust]

theorem Racing.checkpoints_insertRacer (race : Racing) (p : ℤ) :
    (race.insertRacer p).checkpoints = race.checkpoints := by
  unfold insertRacer
  split <;> rfl

/-- `Join` enters the player and sets the variable, or refuses. What follows can throw
but touches neither. -/
theorem wp_joinRace {I : Racing → Server → Prop} {race : Racing}
    (hI : ∀ r, ∀ k ∈ joinKinds, ∀ a b, k.change a b → I r a → I r b) (hs : I race s)
    (henter : ∀ pr, s.profiles.lookup p = some pr → pr.pvars.raceJoined = none →
      I (race.insertRacer p) (s.setRace p race.racedata.starter)) :
    wp (Racing.join p) (fun _ t => I t.1 t.2 ∧ 2 ≤ t.1.checkpoints.length)
      (fun _ t => I t.1 t.2) (race, s) := by
  simp only [Racing.join, wp_bind, wp_self, wp_raiseIf]
  split
  · exact hs
  simp only [wp_shared, Profile.hasVar, Profile.ref, wp_bind, wp_gets, wp_orUndefined, wp_pure,
    wp_raiseIf]
  intro pr hpr
  split
  · exact hs
  rename_i hnone
  have hentered := henter pr hpr (by simpa using hnone)
  simp only [wp_assign, Profile.setRaceJoined, emit, Profile.modifyRace, wp_bind, wp_shared,
    wp_modify, wp_orUndefined]
  intro startcp _ nextcp hnext
  have hlength : 2 ≤ race.checkpoints.length := (List.getElem?_eq_some_iff.mp hnext).1
  have hstay : Stays joinKinds (do
      let startpoint ← Waypoint.ofTarget ⟨startcp.x, startcp.y, startcp.z, 0, 0, 0⟩
      setPlayerRaceCheckpoint p
        ⟨race.checkpointType false, ⟨startcp.x, startcp.y, nextcp.z⟩, nextcp, 10⟩
      startpoint.performTeleport p) := inferInstance
  rw [← Racing.checkpoints_insertRacer race p] at hlength
  have hkeep := wp_mono (hstay.invariant (hI (race.insertRacer p)) hentered)
    (fun _ _ ht => And.intro ht hlength) (fun _ _ ht => ht)
  simp only [wp_bind] at hkeep
  exact hkeep

/-- A player without a race enters the registered one. -/
theorem RaceLinked.enter {race : Racing} (h : RaceLinked c s) (hp : c p = true)
    (hrace : s.races.lookup k = some race) {pr : Profile} (hpr : s.profiles.lookup p = some pr)
    (hnone : s.raceOf p = none) :
    RaceLinked c { s.setRace p k with races := s.races.adjust k fun _ => race.insertRacer p } := by
  have hfree : ∀ j, ¬s.HasRacer j p := fun j hj => by
    rw [← h.link p j, hnone] at hj
    cases hj
  have hmem : p ∉ race.racers := fun hmem => hfree k ⟨race, hrace, hmem⟩
  have hlookup : ∀ j, (s.races.adjust k fun _ => race.insertRacer p).lookup j =
      if j = k then some { race with racers := race.racers.insert p {} } else s.races.lookup j := by
    intro j
    rw [Map.lookup_adjust, hrace, Racing.insertRacer, if_neg hmem]
    rfl
  have hview : ∀ q, (s.setRace p k).raceOf q = if q = p then some k else s.raceOf q := by
    intro q
    rw [raceOf_setRace, hpr]
    rfl
  refine ⟨fun j r hj => ?_, fun q j hq => ?_, fun q j => ?_⟩
  · rw [hlookup] at hj
    split at hj
    · obtain rfl := Option.some.inj hj
      exact (h.keyed k race hrace).trans (Eq.symm ‹j = k›)
    · exact h.keyed j r hj
  · change (s.setRace p k).raceOf q = some j at hq
    rw [hview] at hq
    split at hq
    · exact ‹q = p› ▸ hp
    · exact h.there q j hq
  · change (s.setRace p k).raceOf q = some j ↔
      ∃ r, (s.races.adjust k fun _ => race.insertRacer p).lookup j = some r ∧ q ∈ r.racers
    rw [hview, hlookup]
    by_cases hj : j = k
    · subst hj
      by_cases hq : q = p
      · simp [hq]
      · simpa [hq, Server.HasRacer, hrace] using h.link q j
    · by_cases hq : q = p
      · subst hq
        simpa [hj, Ne.symm hj] using fun r hr hin => hfree j ⟨r, hr, hin⟩
      · rw [if_neg hq, if_neg hj]
        exact h.link q j

/-- `/rjoin`. -/
theorem wp_withRace_join (h : RaceLinked c s) (hp : c p = true) :
    wp (Racing.withRace k (Racing.join p)) (fun _ => RaceLinked c) (fun _ => RaceLinked c) s := by
  simp only [Racing.withRace, wp_focus]
  intro race hrace
  refine wp_mono (wp_joinRace
    (I := fun r t => RaceLinked c { t with races := t.races.adjust k fun _ => r })
    (fun r j hj a b hab ha => ?_) ?_ fun pr hpr hnone => ?_) (fun _ _ ht => ht.1) (fun _ _ ht => ht)
  · have hspare : j.sparesRaces = true ∧ ∀ q, j ≠ .eraseProfile q := by
      revert j
      simp [Kind.sparesRaces]
    have hview : ∀ q, b.raceOf q = a.raceOf q := fun q =>
      Kind.raceOf_eq hab (Kind.ne_profileRace hspare.1) fun heq => absurd heq (hspare.2 q)
    exact ha.of_eq (fun _ => by rw [Kind.races_eq hab hspare.1]) hview
  · refine h.of_eq (fun j => ?_) fun _ => rfl
    rw [Map.lookup_adjust, hrace]
    split
    · rw [‹j = k›, hrace]
      rfl
    · rfl
  · rw [h.keyed k race hrace]
    exact h.enter hp hrace hpr (by simp [Server.raceOf, hpr, hnone])

/-- A race that a player starts, with that player in it and not registered yet. -/
theorem LinkedBut.enter {race : Racing} (h : RaceLinked c s) (hp : c p = true)
    (hempty : race.racers = ∅) {pr : Profile} (hpr : s.profiles.lookup p = some pr)
    (hnone : s.raceOf p = none) :
    LinkedBut c k (race.insertRacer p).racers.keys (s.setRace p k) := by
  have hkeys : (race.insertRacer p).racers.keys = [p] := by
    simp [Racing.insertRacer, hempty]
  have hview : ∀ q, (s.setRace p k).raceOf q = if q = p then some k else s.raceOf q := by
    intro q
    rw [raceOf_setRace, hpr]
    rfl
  rw [hkeys]
  refine ⟨h.keyed, fun q j hq => ?_, fun q j hq => ?_, fun q hq => ?_⟩
  · rw [hview] at hq
    split at hq
    · exact ‹q = p› ▸ hp
    · exact h.there q j hq
  · rw [hview, if_neg (by simpa using hq)]
    exact h.link q j
  · obtain rfl := List.mem_singleton.mp hq
    refine ⟨by rw [hview, if_pos rfl], fun j hj => ?_⟩
    have := (h.link q j).mpr hj
    rw [hnone] at this
    cases this

/-- `ItemManager::Add` of a race: registered, or destroyed with its racer let go. -/
theorem wp_mgrAdd {race : Racing} (h : LinkedBut c k race.racers.keys s)
    (hk : race.racedata.starter = k) :
    wp (Racing.mgrAdd k race) (fun _ => RaceLinked c) (fun _ _ => False) s := by
  simp only [Racing.mgrAdd, wp_bind, wp_gets, wp_ite, wp_modify, wp_pure, id_eq]
  split
  · exact wp_destruct h
  rename_i hnew
  have hnot : ∀ p, ¬s.HasRacer k p := by
    rintro p ⟨r, hr, -⟩
    exact hnew (Map.mem_iff_lookup.mpr ⟨r, hr⟩)
  refine ⟨fun j r hj => ?_, h.there, fun p j => ?_⟩
  · simp only [Map.lookup_insert_ite] at hj
    split at hj
    · obtain rfl := Option.some.inj hj
      exact hk.trans (Eq.symm ‹j = k›)
    · exact h.keyed j r hj
  · change s.raceOf p = some j ↔ ∃ r, (s.races.insert k race).lookup j = some r ∧ p ∈ r.racers
    rw [Map.lookup_insert_ite]
    by_cases hp : p ∈ race.racers.keys
    · obtain ⟨hin, hfree⟩ := h.inside p hp
      by_cases hj : j = k
      · simp [hj, hin, AList.mem_keys, hp]
      · rw [hin, if_neg hj]
        exact iff_of_false (fun heq => hj (Option.some.inj heq).symm) (hfree j)
    · rw [h.outside p j hp]
      by_cases hj : j = k
      · subst hj
        exact iff_of_false (hnot p) (by simpa [AList.mem_keys] using hp)
      · rw [if_neg hj]
        rfl

/-- A racer is taken off the map and forgets the race. -/
theorem RaceLinked.leave {race : Racing} (h : RaceLinked c s) (hrace : s.races.lookup k = some race)
    (hin : p ∈ race.racers) : RaceLinked c { s.clearRace p with
      races := s.races.adjust k fun r => { r with racers := r.racers.erase p } } := by
  have hrace' : s.raceOf p = some k := (h.link p k).mpr ⟨race, hrace, hin⟩
  have hhas : ∀ j q, (∃ r, (s.races.adjust k fun r => { r with racers := r.racers.erase p }).lookup j =
      some r ∧ q ∈ r.racers) ↔ s.HasRacer j q ∧ ¬(j = k ∧ q = p) := by
    intro j q
    rw [Map.lookup_adjust]
    by_cases hj : j = k
    · subst hj
      simp [Server.HasRacer, hrace, and_comm]
    · simp [hj, Server.HasRacer]
  refine ⟨fun j r hj => ?_, fun q j hq => ?_, fun q j => ?_⟩
  · simp only [Map.lookup_adjust] at hj
    split at hj
    · obtain ⟨old, hold, rfl⟩ := Option.map_eq_some_iff.mp hj
      exact (h.keyed k old hold).trans (Eq.symm ‹j = k›)
    · exact h.keyed j r hj
  · change (s.clearRace p).raceOf q = some j at hq
    rw [raceOf_clearRace] at hq
    split at hq
    · cases hq
    · exact h.there q j hq
  · refine Iff.trans ?_ (hhas j q).symm
    change (s.clearRace p).raceOf q = some j ↔ _
    rw [raceOf_clearRace]
    by_cases hq : q = p
    · subst hq
      rw [if_pos rfl]
      refine iff_of_false (by simp) fun hj => hj.2 ⟨?_, rfl⟩
      exact Option.some.inj (((h.link q j).mpr hj.1).symm.trans hrace')
    · rw [if_neg hq, h.link q j]
      simp [hq]

/-- The race a player quits. -/
theorem wp_quitRace (h : RaceLinked c s) :
    wp (Racing.quit k p) (fun _ => RaceLinked c) (fun _ => RaceLinked c) s := by
  simp only [Racing.quit, Racing.ref, wp_bind, wp_gets, wp_orUndefined, wp_raiseIf]
  intro race hrace
  split
  · exact h
  rename_i hin
  have hmem : p ∈ race.racers := by simpa using hin
  have hleft := (h.leave hrace hmem).adjust (k := k)
    (g := fun r => { r with racedata := { r.racedata with
      waitingplayer := r.racedata.waitingplayer - 1 } }) ⟨fun _ => rfl, fun _ _ => Iff.rfl⟩
  exact hleft.of_eq (fun _ => rfl) fun _ => rfl

end Join

/-! ## Running -/

section Running
set_option synthInstance.maxSize 1000
variable {c : Occupancy} {s : Server} {k p : ℤ}

/-- The kinds of change that running a race makes beside those of the race itself. -/
abbrev runKinds : List Kind := [.output, .samp, .destroyTimer, .createTimer .race]

instance (priority := low) keeps_of_runKinds {α : Type} {x : Game α} [hx : Stays runKinds x] :
    Keeps (RaceLinked c) x := by
  refine hx.keeps fun j hj a b hab ha => ?_
  have hspare : j.sparesRaces = true ∧ ∀ q, j ≠ .eraseProfile q := by
    revert j
    simp [Kind.sparesRaces]
  exact Kind.raceLinked hab hspare.1 (fun q heq => absurd heq (hspare.2 q)) ha

theorem keeps_modifyRace {g : Racing → Racing} (hg : SameRoster g) :
    Keeps (RaceLinked c) (Racing.modifyRace k g) := keeps_of_wp fun _ hs => hs.adjust hg

theorem keeps_modifyData {g : RaceData → RaceData} (hg : ∀ d, (g d).starter = d.starter) :
    Keeps (RaceLinked c) (Racing.modifyData k g) :=
  keeps_modifyRace ⟨fun _ => hg _, fun _ _ => Iff.rfl⟩

instance keeps_modifyRacer {g : RacerInfo → RacerInfo} :
    Keeps (RaceLinked c) (Racing.modifyRacer k p g) :=
  keeps_modifyRace ⟨fun _ => rfl, fun _ _ => Map.mem_adjust ..⟩

instance keeps_finish : Keeps (RaceLinked c) (Racing.finish k) := by
  unfold Racing.finish; infer_instance

instance keeps_playerFinish : Keeps (RaceLinked c) (Racing.playerFinish k p) := by
  have hdata : ∀ w, Keeps (RaceLinked c) (Racing.modifyData k fun d => { d with waitingplayer := w }) :=
    fun _ => keeps_modifyData fun _ => rfl
  unfold Racing.playerFinish; infer_instance

instance keeps_playerReachCheckpoint : Keeps (RaceLinked c) (Racing.playerReachCheckpoint k p) := by
  unfold Racing.playerReachCheckpoint; infer_instance

instance keeps_start : Keeps (RaceLinked c) (Racing.start k) := by
  have hstate : Keeps (RaceLinked c) (Racing.modifyData k fun d => { d with state := .inProgress }) :=
    keeps_modifyData fun _ => rfl
  have hdata : ∀ t w, Keeps (RaceLinked c)
      (Racing.modifyData k fun d => { d with start := t, waitingplayer := w }) :=
    fun _ _ => keeps_modifyData fun _ => rfl
  unfold Racing.start; infer_instance

instance keeps_countDown : Keeps (RaceLinked c) (Racing.countDown k) := by
  have htimer : Keeps (RaceLinked c) (Racing.modifyData k fun d => { d with countdowntimerid := 0 }) :=
    keeps_modifyData fun _ => rfl
  have hcount : Keeps (RaceLinked c)
      (Racing.modifyData k fun d => { d with countdown := d.countdown - 1 }) :=
    keeps_modifyData fun _ => rfl
  unfold Racing.countDown; infer_instance

instance keeps_ready : Keeps (RaceLinked c) (Racing.ready k) := by
  have htimer : ∀ a, Stays runKinds (createTimer (.raceCountDown a) 1000 true) := fun _ =>
    stays_createTimer .race rfl
  have hdata : ∀ t, Keeps (RaceLinked c)
      (Racing.modifyData k fun d => { d with countdowntimerid := t, state := .ready }) :=
    fun _ => keeps_modifyData fun _ => rfl
  unfold Racing.ready; infer_instance

end Running

/-! ## Starting a race -/

namespace Racing

/-- What loading a race does not write. -/
def Fresh (race : Racing) : Prop := race.racers = ∅ ∧ race.racedata = {}

theorem keeps_loadData : Keeps (fun t : Racing × Server => t.1.Fresh) loadData := by
  have hassign : ∀ {f : Racing → Racing}, (∀ r, r.Fresh → (f r).Fresh) →
      Keeps (fun t : Racing × Server => t.1.Fresh) (assign f : Method Racing Unit) :=
    fun hf => keeps_of_wp fun t ht => hf t.1 ht
  have hname : ∀ n, Keeps (fun t : Racing × Server => t.1.Fresh) (assign fun r : Racing =>
    { r with raceinfo := { r.raceinfo with name := n } } : Method Racing Unit) :=
    fun _ => hassign fun _ h => h
  have hcreator : ∀ o, Keeps (fun t : Racing × Server => t.1.Fresh) (assign fun r : Racing =>
    { r with raceinfo := { r.raceinfo with creator := o } } : Method Racing Unit) :=
    fun _ => hassign fun _ h => h
  have htype : ∀ n, Keeps (fun t : Racing × Server => t.1.Fresh) (assign fun r : Racing =>
    { r with raceinfo := { r.raceinfo with type := n } } : Method Racing Unit) :=
    fun _ => hassign fun _ h => h
  have hcps : ∀ cp, Keeps (fun t : Racing × Server => t.1.Fresh) (assign fun r : Racing =>
    { r with checkpoints := r.checkpoints ++ [cp] } : Method Racing Unit) :=
    fun _ => hassign fun _ h => h
  have hload : ∀ e, Keeps (fun t : Racing × Server => t.1.Fresh) (loadCheckpoint e) := by
    intro e
    unfold loadCheckpoint
    infer_instance
  unfold loadData
  infer_instance

/-- A race that is looked up has no racers yet and is kept for its starter. -/
theorem wp_ofName (name : Text) (starter : ℤ) (s : Server) :
    wp (ofName name starter) (fun race _ => race.racers = ∅ ∧ race.racedata.starter = starter)
      (fun _ _ => True) s := by
  refine wp_last fun _ _ => wp_last fun item _ => wp_last fun addr t => ?_
  simp only [wp_map, wp_withLocal, wp_bind]
  have hload := keeps_loadData.wp_of_keeps (s := ({ item := item, addr := addr }, t)) ⟨rfl, rfl⟩
  exact wp_mono hload (fun _ _ hu => ⟨hu.1, rfl⟩) (fun _ _ _ => trivial)

end Racing

section Start
variable {c : Occupancy} {s : Server} {p : ℤ}

/-- `DIALOG_RACING_START_NAME`. -/
theorem wp_racingStartName {inputtext : Text} (h : RaceLinked c s) (hp : c p = true) :
    wp (Dialog.racingStartName p inputtext) (fun _ => RaceLinked c) (fun _ => RaceLinked c) s := by
  have hstay : Stays [.output, .database, .counters] (Racing.ofName inputtext p) := inferInstance
  have hload := hstay.invariant (fun k hk a b hab => Kind.raceLinked (c := c) hab
    (by revert k; simp [Kind.sparesRaces]) (fun q heq => by subst heq; simp at hk)) h
  rw [Dialog.racingStartName, wp_bind]
  refine wp_mono (wp_and hload (Racing.wp_ofName inputtext p s)) (fun race t ht => ?_)
    (fun _ _ ht => ht.1)
  obtain ⟨hlinked, hempty, hstarter⟩ := ht
  have hjoin : wp (Racing.join p)
      (fun _ u => LinkedBut c p u.1.racers.keys u.2 ∧ u.1.racedata.starter = p)
      (fun _ u => LinkedBut c p u.1.racers.keys u.2 ∧ u.1.racedata.starter = p) (race, t) := by
    refine wp_mono (wp_joinRace
      (I := fun r u => LinkedBut c p r.racers.keys u ∧ r.racedata.starter = p)
      (fun r j hj a b hab ha => ⟨ha.1.of_kind hab ?_ ?_, ha.2⟩) ⟨?_, hstarter⟩ fun pr hpr hnone => ?_)
      (fun _ _ hu => hu.1) (fun _ _ hu => hu)
    · revert j
      simp [Kind.sparesRaces]
    · rintro q rfl
      simp at hj
    · rw [hempty]
      exact linkedBut_nil.mpr hlinked
    · rw [hstarter]
      refine ⟨LinkedBut.enter hlinked hp hempty hpr (by simp [Server.raceOf, hpr, hnone]), ?_⟩
      simpa [Racing.insertRacer, hempty] using hstarter
  simp only [wp_bind, wp_owned]
  refine wp_mono hjoin (fun _ u hu => ?_) (fun _ u hu => ?_)
  · exact wp_mono (wp_mgrAdd hu.1 hu.2) (fun _ _ hv => hv) (fun _ _ hf => hf.elim)
  · exact wp_mono (wp_destruct hu.1) (fun _ _ hv => hv) (fun _ _ hf => hf.elim)

end Start

/-! ## Events -/

section Events
variable {c : Occupancy} {s t : Server} {p : ℤ} {e : Event} {env : Env}

theorem raceLinked_of_stays {α : Type} {K : List Kind} {x : Game α} (hx : Stays K x)
    (hK : ∀ k ∈ K, k.sparesRaces = true ∧ ∀ p, k ≠ .eraseProfile p) (hs : RaceLinked c s) :
    wp x (fun _ => RaceLinked c) (fun _ => RaceLinked c) s :=
  hx.invariant (fun k hk _ _ h => Kind.raceLinked h (hK k hk).1
    fun p heq => absurd heq ((hK k hk).2 p)) hs

theorem raceLinked_dialogResponse {dialogid response listitem : ℤ} {inputtext : Text}
    (hp : c p = true) (hs : RaceLinked c s) :
    wp (Event.run (.dialogResponse p dialogid response listitem inputtext))
      (fun _ => RaceLinked c) (fun _ => RaceLinked c) s := by
  refine wp_dialogResponse (fun a b h ha => Kind.raceLinked h rfl (fun _ heq => by cases heq) ha) hs
    fun pr d _ _ _ => ?_
  have hstay := Dialog.stays_callback p listitem inputtext d
  cases d
  case racingStartName => exact wp_racingStartName hs hp
  all_goals
    exact raceLinked_of_stays hstay (by simp [Dialog.footprint, Kind.sparesRaces]) hs

theorem raceLinked_commandText {cmdtext : Text} (hp : c p = true) (hs : RaceLinked c s) :
    wp (Event.run (.playerCommandText p cmdtext)) (fun _ => RaceLinked c) (fun _ => RaceLinked c)
      s := by
  refine wp_commandText (fun a b h ha => Kind.raceLinked h rfl (fun _ heq => by cases heq) ha) hs
    fun pr cmd line d _ _ _ _ => ?_
  have hstay := Command.stays_run p line d
  cases d
  case raceStart =>
    have hkeep : Keeps (RaceLinked c) (Command.raceStart p) := by
      unfold Command.raceStart; infer_instance
    exact hkeep.wp_of_keeps hs
  case raceJoin =>
    simp only [Command.run, Command.raceJoin, racingMgr, wp_bind, wp_gets, wp_orRaise]
    exact ⟨fun race _ => wp_withRace_join hs hp, fun _ => hs⟩
  all_goals
    exact raceLinked_of_stays hstay (by simp [Command.footprint, Kind.sparesRaces]) hs

theorem raceLinked_timer {handle : ℤ} (hs : RaceLinked c s) :
    wp (fireTimer handle) (fun _ => RaceLinked c) (fun _ => RaceLinked c) s := by
  refine wp_fireTimer.mpr ⟨fun _ => hs, fun tm _ => ?_⟩
  have hrearmed : RaceLinked c (s.rearmed tm) := by
    obtain ⟨timers, heq⟩ := s.rearmed_eq tm
    exact heq ▸ hs.of_eq (fun _ => rfl) fun _ => rfl
  have hstay := TimerCallback.stays_run tm.callback
  cases hcb : tm.callback
  case raceCountDown a =>
    have hkeep : Keeps (RaceLinked c) (TimerCallback.run (.raceCountDown a)) := by
      unfold TimerCallback.run; infer_instance
    exact hkeep.wp_of_keeps hrearmed
  all_goals
    rw [hcb] at hstay
    exact raceLinked_of_stays hstay (by simp [TimerCallback.footprint, Kind.sparesRaces]) hrearmed

theorem RaceLinked.begin (hs : RaceLinked c s) (env : Env) : RaceLinked c (s.begin env) :=
  hs.of_eq (fun _ => rfl) fun _ => rfl

/-- A player who has no race when they leave takes nothing with them. -/
theorem raceLinked_disconnect {reason : ℤ} (h : s.step (.playerDisconnect p reason, env) = some t)
    (hnone : s.raceOf p = none) (hs : RaceLinked c s) :
    RaceLinked (Function.update c p false) t := by
  have hboth : RaceLinked c t ∧ t.raceOf p = none := by
    refine Server.step_invariant (I := fun u => RaceLinked c u ∧ u.raceOf p = none) h
      (fun k hk a b hab ha => ?_) ⟨hs.begin env, hnone⟩
    have hspare : k.sparesRaces = true ∧ ∀ q, k = .eraseProfile q → q = p := by
      revert k
      simp [Event.footprint, Kind.sparesRaces]
    refine ⟨Kind.raceLinked hab hspare.1 (fun q heq => (hspare.2 q heq) ▸ ha.2) ha.1, ?_⟩
    rw [Kind.raceOf_eq hab (Kind.ne_profileRace hspare.1) fun _ => ha.2]
    exact ha.2
  refine hboth.1.mono fun q j hq hc => ?_
  have hne : q ≠ p := by
    rintro rfl
    rw [hboth.2] at hq
    cases hq
  simpa [hne] using hc

theorem raceLinked_step (h : s.step (e, env) = some t) (hpossible : e.possible c = true)
    (hleave : ∀ p reason, e = .playerDisconnect p reason → s.raceOf p = none)
    (hs : RaceLinked c s) : RaceLinked (e.occupy c) t := by
  have hbegin := hs.begin env
  cases e
  case playerConnect p =>
    have hstep : RaceLinked c t := Server.step_invariant h (fun k hk a b hab =>
      Kind.raceLinked hab (by revert k; simp [Event.footprint, Kind.sparesRaces])
        fun q heq => by subst heq; simp [Event.footprint] at hk) hbegin
    refine hstep.mono fun q j _ hc => ?_
    simp [Event.occupy, Function.update_apply, hc]
  case playerDisconnect p reason => exact raceLinked_disconnect h (hleave p reason rfl) hs
  case dialogResponse p dialogid response listitem inputtext =>
    exact Server.of_step h (raceLinked_dialogResponse (c := c)
      (by simpa [Event.possible, Event.player] using hpossible) hbegin)
  case playerCommandText p cmdtext =>
    exact Server.of_step h (raceLinked_commandText (c := c)
      (by simpa [Event.possible, Event.player] using hpossible) hbegin)
  case timer handle => exact Server.of_step h (raceLinked_timer hbegin)
  case enterRaceCheckpoint p =>
    have hkeep : Keeps (RaceLinked c) (Event.run (.enterRaceCheckpoint p)) := by
      unfold Event.run discard onPlayerEnterRaceCheckpoint reported; infer_instance
    exact Server.of_step h (hkeep.wp_of_keeps hbegin)
  case raceQuit k p =>
    have hquit : Keeps (RaceLinked c) (Racing.quit k p) := keeps_of_wp fun _ hs => wp_quitRace hs
    have hkeep : Keeps (RaceLinked c) (Event.run (.raceQuit k p)) := by
      unfold Event.run raceQuit; infer_instance
    exact Server.of_step h (hkeep.wp_of_keeps hbegin)
  case raceRemove k =>
    have hkeep : Keeps (RaceLinked c) (Event.run (.raceRemove k)) := by
      unfold Event.run; infer_instance
    exact Server.of_step h (hkeep.wp_of_keeps hbegin)
  all_goals
    exact Server.step_invariant h (fun k hk a b hab =>
      Kind.raceLinked hab (by revert k; simp [Event.footprint, Kind.sparesRaces])
        fun q heq => by subst heq; simp [Event.footprint] at hk) hbegin

end Events

/-! ## Runs -/

/-- The inputs under which nobody leaves the server from within a race. -/
def leavesRaceFirst (w : Server × Occupancy) (i : Event × Env) : Bool :=
  possibleAt w i && match i.1 with
    | .playerDisconnect p _ => (w.1.raceOf p).isNone
    | _ => true

/-- In every run in which nobody leaves the server from within a race, the two records
of who is in which race agree. -/
theorem races_agree (platform : Platform) (config : Config) (docs : Collection → List Document)
    (is : List (Event × Env))
    (h : Meets Server.occupied (fun w i => leavesRaceFirst w i = true)
      (Server.initial platform config docs, fun _ => false) is) :
    AllSteps Server.occupied (fun _ _ u => RacesAgree u)
      (Server.initial platform config docs, fun _ => false) is := by
  refine AllSteps.of_invariant (I := fun w => RaceLinked w.2 w.1) (fun w i u hI hstep hC => ?_)
    ?_ h
  · obtain ⟨e, env⟩ := i
    obtain ⟨ht, hsee⟩ := watch_eq_some.mp hstep
    obtain ⟨hpossible, hleave⟩ := Bool.and_eq_true_iff.mp hC
    have hlinked : RaceLinked u.2 u.1 := by
      rw [← hsee]
      refine raceLinked_step ht hpossible (fun p reason heq => ?_) hI
      subst heq
      simpa using hleave
    exact ⟨hlinked.racesAgree, hlinked⟩
  · refine ⟨fun j race hj => by simp [Server.initial] at hj, fun p j hp => by simp
      [Server.raceOf, Server.initial] at hp, fun p j => ?_⟩
    simp [Server.raceOf, Server.HasRacer, Server.initial]

/-- A player starts a race, quits it, starts another, and sees it removed before leaving. -/
theorem races_agree_two_races :
    AllSteps Server.occupied (fun _ _ u => RacesAgree u) (Demo.initial, fun _ => false)
      (Demo.quietly [.gameModeInit, .playerConnect 0, Demo.startRace 0, .raceQuit 0 0,
        .raceRemove 0, Demo.startRace 0, .raceRemove 0, .playerDisconnect 0 1]) :=
  races_agree _ _ _ _ (meets_of_check (b := leavesRaceFirst) (fun _ _ h => h) (by decide +kernel))

/-- A test for the racers of a race to be connected. -/
def racersConnected (k : ℤ) (w : Server × Occupancy) : Bool :=
  (w.1.races.lookup k).all fun race => race.racers.keys.all w.2

theorem racersConnected_of_racesAgree {w : Server × Occupancy} (h : RacesAgree w) (k : ℤ) :
    racersConnected k w = true := by
  cases hrace : w.1.races.lookup k with
  | none => simp [racersConnected, hrace]
  | some race =>
    simp only [racersConnected, hrace, Option.all_some, List.all_eq_true]
    exact fun p hp => h.connected p k ⟨race, hrace, AList.mem_keys.mpr hp⟩

/-- A player who leaves the server stays among the racers of their race. -/
theorem disconnect_leaves_racer :
    ¬∀ is, Meets Server.occupied (fun w i => possibleAt w i = true)
        (Demo.initial, fun _ => false) is →
      AllSteps Server.occupied (fun _ _ u => RacesAgree u) (Demo.initial, fun _ => false) is := by
  intro hall
  have hpossible : Meets Server.occupied (fun w i => possibleAt w i = true)
      (Demo.initial, fun _ => false)
      (Demo.quietly [.gameModeInit, .playerConnect 0, Demo.startRace 0] ++
        [(.playerDisconnect 0 1, Demo.env)]) :=
    meets_of_check (b := possibleAt) (fun _ _ h => h) (by decide +kernel)
  exact not_allSteps (T := fun _ _ u => RacesAgree u) _ _ (fun _ u => racersConnected 0 u)
    (fun _ _ h => racersConnected_of_racesAgree h 0) (by decide +kernel) (hall _ hpossible)

end FreshCity
