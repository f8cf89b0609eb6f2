import FreshCity.Imperative.Program

/-!
# Programs that let no exception go

Whether an exception leaves a run is asked of the run, and goes through a program
with weakest preconditions. A program that no exception leaves from any state is
found by instance search: a handler that catches everything makes it one.
-/
namespace Imperative.Prog

variable {σ ε α β : Type} {s : σ}

/-- No exception leaves the run from a state. -/
def Returns (x : Prog σ ε α) (s : σ) : Prop := (x s).threw = false

theorem returns_iff {x : Prog σ ε α} : Returns x s ↔ wp x (fun _ _ => True) (fun _ _ => False) s := by
  simp only [Returns, wp]
  cases x s <;> simp

/-- A run that ends returns exactly under a condition that its returns meet and its throws do
not. -/
theorem returns_iff_of_wp {x : Prog σ ε α} {c : Prop} {t : σ}
    (h : wp x (fun _ _ => c) (fun _ _ => ¬c) s) (ht : (x s).state? = some t) :
    Returns x s ↔ c := by
  cases hx : x s with
  | ok a u => simpa [Returns, hx] using (wp_of_ok hx).mp h
  | error e u => simpa [Returns, hx] using (wp_of_error hx).mp h
  | undefined => simp [hx] at ht

theorem wp_of_returns_iff {x : Prog σ ε α} {c : Prop} (h : Returns x s ↔ c) :
    wp x (fun _ _ => c) (fun _ _ => ¬c) s := by
  cases hx : x s with
  | ok a u => exact (wp_of_ok hx).mpr (h.mp (by simp [Returns, hx]))
  | error e u => exact (wp_of_error hx).mpr fun hc => by simpa [Returns, hx] using h.mpr hc
  | undefined => exact wp_of_undefined hx

/-- No exception leaves the program, whatever state it starts in. -/
class Nothrow (x : Prog σ ε α) : Prop where
  returns : ∀ s, Returns x s

theorem Nothrow.wp {x : Prog σ ε α} [h : Nothrow x] :
    wp x (fun _ _ => True) (fun _ _ => False) s := returns_iff.mp (h.returns s)

theorem nothrow_of_wp {x : Prog σ ε α} (h : ∀ s, wp x (fun _ _ => True) (fun _ _ => False) s) :
    Nothrow x := ⟨fun s => returns_iff.mpr (h s)⟩

instance nothrow_pure (a : α) : Nothrow (pure a : Prog σ ε α) := ⟨fun _ => rfl⟩
instance nothrow_gets (f : σ → α) : Nothrow (gets f : Prog σ ε α) := ⟨fun _ => rfl⟩
instance nothrow_modify (f : σ → σ) : Nothrow (modify f : Prog σ ε Unit) := ⟨fun _ => rfl⟩

instance nothrow_orUndefined (o : Option α) : Nothrow (orUndefined o : Prog σ ε α) := by
  cases o <;> exact ⟨fun _ => rfl⟩

instance nothrow_bind {x : Prog σ ε α} {f : α → Prog σ ε β} [hx : Nothrow x]
    [hf : ∀ a, Nothrow (f a)] : Nothrow (x >>= f) :=
  nothrow_of_wp fun _ => (wp_bind x f).mpr (wp_mono hx.wp (fun a _ _ => (hf a).wp) fun _ _ h => h)

instance nothrow_forEach {f : α → Prog σ ε Unit} (as : List α) [hf : ∀ a, Nothrow (f a)] :
    Nothrow (forEach f as) := by
  induction as with
  | nil => exact nothrow_pure ()
  | cons a as ih => exact nothrow_bind

/-- A handler that does not throw lets nothing go. -/
instance nothrow_handle {x : Prog σ ε α} {h : ε → Prog σ ε α} [hh : ∀ e, Nothrow (h e)] :
    Nothrow (handle x h) :=
  nothrow_of_wp fun _ => (wp_handle x h).mpr
    (wp_mono (wp_true x) (fun _ _ _ => trivial) fun e _ _ => (hh e).wp)

end Imperative.Prog
