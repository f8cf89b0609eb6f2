import Mathlib.Tactic

/-!
# Runs of a step function

A run feeds a list of inputs to a step function. A step with no result ends the
run there. Properties of runs are stated about their steps, so that they can
speak of the state before a step, the input and the state after it.
-/
namespace Imperative.Run

variable {σ ι : Type*}

/-- The state a run ends in, if all its steps have one. -/
def final (step : σ → ι → Option σ) (s : σ) (is : List ι) : Option σ := is.foldlM step s

/-- Every step the run takes satisfies `T`. -/
def AllSteps (step : σ → ι → Option σ) (T : σ → ι → σ → Prop) : σ → List ι → Prop
  | _, [] => True
  | s, i :: is => ∀ t, step s i = some t → T s i t ∧ AllSteps step T t is

/-- Every step the run takes is taken where its input meets the condition. -/
abbrev Meets (step : σ → ι → Option σ) (C : σ → ι → Prop) : σ → List ι → Prop :=
  AllSteps step fun s i _ => C s i

variable {step : σ → ι → Option σ} {T U : σ → ι → σ → Prop} {C : σ → ι → Prop} {I : σ → Prop}

@[simp] theorem final_nil (s : σ) : final step s [] = some s := rfl

@[simp] theorem final_cons (s : σ) (i : ι) (is : List ι) :
    final step s (i :: is) = (step s i).bind fun t => final step t is := rfl

/-- A condition on the steps and an invariant give a property of the steps. -/
theorem AllSteps.of_invariant {s : σ} {is : List ι}
    (hstep : ∀ s i t, I s → step s i = some t → U s i t → T s i t ∧ I t)
    (hs : I s) (h : AllSteps step U s is) : AllSteps step T s is := by
  induction is generalizing s with
  | nil => trivial
  | cons i is ih =>
    intro t ht
    obtain ⟨hu, hrest⟩ := h t ht
    obtain ⟨hT, hI⟩ := hstep s i t hs ht hu
    exact ⟨hT, ih hI hrest⟩

/-- An invariant of the steps gives a property of all of them. -/
theorem AllSteps.of_step (hstep : ∀ s i t, I s → step s i = some t → T s i t ∧ I t) {s : σ}
    (hs : I s) (is : List ι) : AllSteps step T s is := by
  induction is generalizing s with
  | nil => trivial
  | cons i is ih =>
    intro t ht
    obtain ⟨hT, hI⟩ := hstep s i t hs ht
    exact ⟨hT, ih hI⟩

/-- When a step keeps the property exactly where the condition holds, a run has
the property exactly if all its steps meet the condition. -/
theorem allSteps_iff_meets {s : σ} {is : List ι}
    (hstep : ∀ s i t, I s → step s i = some t → (T s i t ↔ C s i))
    (hkeep : ∀ s i t, I s → step s i = some t → C s i → I t) (hs : I s) :
    AllSteps step T s is ↔ Meets step C s is := by
  constructor
  · refine AllSteps.of_invariant (fun s i t hi ht hT => ?_) hs
    have hc := (hstep s i t hi ht).mp hT
    exact ⟨hc, hkeep s i t hi ht hc⟩
  · refine AllSteps.of_invariant (fun s i t hi ht hc => ?_) hs
    exact ⟨(hstep s i t hi ht).mpr hc, hkeep s i t hi ht hc⟩

/-- What holds of every step holds of the one taken after any part of the run. -/
theorem AllSteps.at {s u t : σ} {is js : List ι} {i : ι}
    (h : AllSteps step T s (is ++ i :: js)) (hu : final step s is = some u)
    (ht : step u i = some t) : T u i t := by
  induction is generalizing s with
  | nil =>
    obtain rfl : s = u := by simpa using hu
    exact (h t ht).1
  | cons j is ih =>
    simp only [final_cons, Option.bind_eq_some_iff] at hu
    obtain ⟨v, hv, hrest⟩ := hu
    exact ih (h v hv).2 hrest

/-- An invariant of the steps holds where the run ends. -/
theorem invariant_final {s u : σ} {is : List ι}
    (hstep : ∀ s i t, I s → step s i = some t → I t) (hs : I s)
    (hu : final step s is = some u) : I u := by
  induction is generalizing s with
  | nil =>
    obtain rfl : s = u := by simpa using hu
    exact hs
  | cons i is ih =>
    simp only [final_cons, Option.bind_eq_some_iff] at hu
    obtain ⟨t, ht, hrest⟩ := hu
    exact ih (hstep s i t hs ht) hrest

/-- Every input of the run meets the condition, up to the one that ends it. -/
def Guarded (step : σ → ι → Option σ) (C : σ → ι → Prop) : σ → List ι → Prop
  | _, [] => True
  | s, i :: is => C s i ∧ ∀ t, step s i = some t → Guarded step C t is

/-- When a step has a result exactly where the condition holds, a run goes through exactly if
all its inputs meet the condition. -/
theorem isSome_final_iff_guarded (hstep : ∀ s i, I s → ((step s i).isSome ↔ C s i))
    (hkeep : ∀ s i t, I s → step s i = some t → I t) {s : σ} (hs : I s) (is : List ι) :
    (final step s is).isSome ↔ Guarded step C s is := by
  induction is generalizing s with
  | nil => simp [Guarded]
  | cons i is ih =>
    rw [final_cons, Guarded, ← hstep s i hs]
    cases ht : step s i with
    | none => simp
    | some t => simp [ih (hkeep s i t hs ht)]

/-- A run goes through if all its inputs meet a condition under which a step has a result. -/
theorem isSome_final_of_guarded (hstep : ∀ s i, I s → C s i → (step s i).isSome)
    (hkeep : ∀ s i t, I s → step s i = some t → C s i → I t) {s : σ} {is : List ι} (hs : I s)
    (h : Guarded step C s is) : (final step s is).isSome := by
  induction is generalizing s with
  | nil => rfl
  | cons i is ih =>
    obtain ⟨hi, hrest⟩ := h
    obtain ⟨t, ht⟩ := Option.isSome_iff_exists.mp (hstep s i hs hi)
    rw [final_cons, ht, Option.bind_some]
    exact ih (hkeep s i t hs ht hi) (hrest t ht)

/-! ## Concrete runs -/

/-- A test of every step of a run. -/
def checkSteps (step : σ → ι → Option σ) (b : σ → ι → Bool) : σ → List ι → Bool
  | _, [] => true
  | s, i :: is => b s i && (step s i).all fun t => checkSteps step b t is

theorem meets_of_check {b : σ → ι → Bool} (hb : ∀ s i, b s i = true → C s i) {s : σ} {is : List ι}
    (h : checkSteps step b s is = true) : Meets step C s is := by
  induction is generalizing s with
  | nil => trivial
  | cons i is ih =>
    intro t ht
    simp only [checkSteps, ht, Option.all_some, Bool.and_eq_true] at h
    exact ⟨hb s i h.1, ih h.2⟩

theorem guarded_of_check {b : σ → ι → Bool} (hb : ∀ s i, b s i = true → C s i) {s : σ}
    {is : List ι} (h : checkSteps step b s is = true) : Guarded step C s is := by
  induction is generalizing s with
  | nil => trivial
  | cons i is ih =>
    simp only [checkSteps, Bool.and_eq_true] at h
    refine ⟨hb s i h.1, fun t ht => ?_⟩
    rw [ht, Option.all_some] at h
    exact ih h.2

/-- One step of a run that fails a test refutes what passes it. -/
theorem not_allSteps {s : σ} (is : List ι) (i : ι) (b : σ → σ → Bool)
    (hb : ∀ u t, T u i t → b u t = true)
    (h : ((final step s is).bind fun u => (step u i).map (b u)) = some false) :
    ¬AllSteps step T s (is ++ [i]) := by
  intro hall
  simp only [Option.bind_eq_some_iff, Option.map_eq_some_iff] at h
  obtain ⟨u, hu, t, ht, hfalse⟩ := h
  rw [hb u t (hall.at hu ht)] at hfalse
  cases hfalse

/-! ## Watched runs -/

variable {γ : Type*}

/-- A step function with a second component that watches the steps and takes no part in them. -/
def watch (step : σ → ι → Option σ) (see : σ → γ → ι → σ → γ) : σ × γ → ι → Option (σ × γ) :=
  fun w i => (step w.1 i).map fun t => (t, see w.1 w.2 i t)

theorem watch_eq_some {see : σ → γ → ι → σ → γ} {w u : σ × γ} {i : ι} :
    watch step see w i = some u ↔ step w.1 i = some u.1 ∧ see w.1 w.2 i u.1 = u.2 := by
  obtain ⟨t, g⟩ := u
  simp only [watch, Option.map_eq_some_iff, Prod.mk.injEq]
  constructor
  · rintro ⟨_, h, rfl, hg⟩
    exact ⟨h, hg⟩
  · rintro ⟨h, hg⟩
    exact ⟨t, h, rfl, hg⟩

end Imperative.Run
