import FreshCity.Imperative.Program

/-!
# Runs without undefined behaviour

A weakest precondition asks nothing of a run into undefined behaviour. Whether a
run stays defined goes through a program part by part, with weakest preconditions
for the states in between. A program that is defined from every state is total;
totality is found by instance search.
-/
namespace Imperative.Prog

variable {σ τ ρ ε α β : Type} {s : σ}

/-- The run from a state ends, with a value or a throw. -/
def Defined (x : Prog σ ε α) (s : σ) : Prop := (x s).state?.isSome = true

/-- Two runs that end alike. -/
theorem defined_of_eq {x y : Prog σ ε α} {t : σ} (h : x s = y t) : Defined x s ↔ Defined y t := by
  rw [Defined, Defined, h]

@[simp] theorem defined_pure (a : α) : Defined (pure a : Prog σ ε α) s := rfl
@[simp] theorem defined_raise (e : ε) : Defined (raise e : Prog σ ε α) s := rfl
@[simp] theorem defined_gets (f : σ → α) : Defined (gets f : Prog σ ε α) s := rfl
@[simp] theorem defined_modify (f : σ → σ) : Defined (modify f : Prog σ ε Unit) s := rfl
@[simp] theorem not_defined_undefinedBehaviour :
    ¬Defined (undefinedBehaviour : Prog σ ε α) s := by simp [Defined]

@[simp] theorem defined_bind (x : Prog σ ε α) (f : α → Prog σ ε β) :
    Defined (x >>= f) s ↔ Defined x s ∧ wp x (fun a t => Defined (f a) t) (fun _ _ => True) s := by
  simp only [Defined, wp, bind_apply]
  cases x s <;> simp

@[simp] theorem defined_orUndefined (o : Option α) :
    Defined (orUndefined o : Prog σ ε α) s ↔ ∃ a, o = some a := by
  cases o <;> simp

@[simp] theorem defined_orRaise (e : ε) (o : Option α) : Defined (orRaise e o : Prog σ ε α) s := by
  cases o <;> simp

@[simp] theorem defined_ite (c : Prop) [Decidable c] (x y : Prog σ ε α) :
    Defined (if c then x else y) s ↔ if c then Defined x s else Defined y s := by
  split <;> rfl

@[simp] theorem defined_when (c : Prop) [Decidable c] (x : Prog σ ε Unit) :
    Defined (when c x) s ↔ (c → Defined x s) := by
  rw [when]
  split <;> simp [*]

@[simp] theorem defined_raiseIf (c : Prop) [Decidable c] (e : ε) :
    Defined (raiseIf c e : Prog σ ε Unit) s := by
  rw [raiseIf]
  split <;> simp

@[simp] theorem defined_handle (x : Prog σ ε α) (h : ε → Prog σ ε α) :
    Defined (handle x h) s ↔
      Defined x s ∧ wp x (fun _ _ => True) (fun e t => Defined (h e) t) s := by
  simp only [Defined, wp, handle_apply]
  cases x s <;> simp

@[simp] theorem defined_focus (get : σ → Option τ) (put : τ → σ → σ) (x : Prog (τ × σ) ε α) :
    Defined (focus get put x) s ↔ ∃ a, get s = some a ∧ Defined x (a, s) := by
  cases hg : get s with
  | none => simp [Defined, focus, hg]
  | some a =>
    simp only [Defined, focus, hg, Option.some.injEq, exists_eq_left']
    cases x (a, s) <;> rfl

@[simp] theorem defined_shared (x : Prog σ ε α) (a : τ) :
    Defined (shared x : Prog (τ × σ) ε α) (a, s) ↔ Defined x s := by
  simp only [Defined, shared]
  cases x s <;> rfl

@[simp] theorem defined_part (get : τ → ρ) (put : ρ → τ → τ) (x : Prog (ρ × σ) ε α) (a : τ) :
    Defined (part get put x) (a, s) ↔ Defined x (get a, s) := by
  simp only [Defined, part]
  cases x (get a, s) <;> rfl

@[simp] theorem defined_self (p : τ × σ) : Defined (self : Prog (τ × σ) ε τ) p := rfl
@[simp] theorem defined_assign (f : τ → τ) (p : τ × σ) :
    Defined (assign f : Prog (τ × σ) ε Unit) p := rfl

/-- A loop is defined if each pass is, from where the passes before it lead. -/
theorem defined_forEach {I : List α → σ → Prop} {f : α → Prog σ ε Unit} {as : List α} (hI : I [] s)
    (hf : ∀ pre a post, as = pre ++ a :: post → ∀ t, I pre t →
      Defined (f a) t ∧ wp (f a) (fun _ => I (pre ++ [a])) (fun _ _ => True) t) :
    Defined (forEach f as) s := by
  have hrest : ∀ rest pre t, as = pre ++ rest → I pre t → Defined (forEach f rest) t := by
    intro rest
    induction rest with
    | nil => exact fun _ _ _ _ => defined_pure ()
    | cons a rest ih =>
      intro pre t has ht
      obtain ⟨hdefined, hnext⟩ := hf pre a rest has t ht
      rw [forEach, defined_bind]
      refine ⟨hdefined, wp_mono hnext (fun _ u hu => ?_) (fun _ _ _ => trivial)⟩
      exact ih (pre ++ [a]) u (by rw [has, List.append_assoc, List.singleton_append]) hu
  exact hrest as [] s rfl hI

/-! ## Totality -/

/-- Every run is defined. -/
class Total (x : Prog σ ε α) : Prop where
  defined : ∀ s, Defined x s

theorem Total.wp_defined {x : Prog σ ε α} {f : α → Prog σ ε β} [h : Total x] :
    Defined (x >>= f) s ↔ wp x (fun a t => Defined (f a) t) (fun _ _ => True) s := by
  rw [defined_bind, and_iff_right (h.defined s)]

instance total_pure (a : α) : Total (pure a : Prog σ ε α) := ⟨fun _ => rfl⟩
instance total_raise (e : ε) : Total (raise e : Prog σ ε α) := ⟨fun _ => rfl⟩
instance total_gets (f : σ → α) : Total (gets f : Prog σ ε α) := ⟨fun _ => rfl⟩
instance total_modify (f : σ → σ) : Total (modify f : Prog σ ε Unit) := ⟨fun _ => rfl⟩

instance total_bind {x : Prog σ ε α} {f : α → Prog σ ε β} [hx : Total x] [hf : ∀ a, Total (f a)] :
    Total (x >>= f) :=
  ⟨fun s => (defined_bind x f).mpr ⟨hx.defined s,
    wp_mono (wp_true x) (fun a t _ => (hf a).defined t) fun _ _ _ => trivial⟩⟩

instance total_orRaise (e : ε) (o : Option α) : Total (orRaise e o : Prog σ ε α) :=
  ⟨fun _ => defined_orRaise e o⟩

instance total_ite {c : Prop} [Decidable c] {x y : Prog σ ε α} [hx : Total x] [hy : Total y] :
    Total (if c then x else y) := by
  split <;> assumption

instance total_when {c : Prop} [Decidable c] {x : Prog σ ε Unit} [hx : Total x] :
    Total (when c x) := total_ite

instance total_raiseIf (c : Prop) [Decidable c] (e : ε) : Total (raiseIf c e : Prog σ ε Unit) :=
  total_ite

instance total_forEach {f : α → Prog σ ε Unit} (as : List α) [hf : ∀ a, Total (f a)] :
    Total (forEach f as) := by
  induction as with
  | nil => exact total_pure ()
  | cons a as ih => exact total_bind

instance total_map {x : Prog σ ε α} {f : α → β} [Total x] : Total (f <$> x) :=
  inferInstanceAs (Total (x >>= fun a => pure (f a)))

instance total_handle {x : Prog σ ε α} {h : ε → Prog σ ε α} [hx : Total x] [hh : ∀ e, Total (h e)] :
    Total (handle x h) := by
  refine ⟨fun s => ?_⟩
  have hdefined := hx.defined s
  rw [Defined, handle_apply]
  cases hs : x s with
  | ok a t => rfl
  | error e t => exact (hh e).defined t
  | undefined => simp [Defined, hs] at hdefined

instance total_withLocal {a : τ} {x : Prog (τ × σ) ε α} [hx : Total x] : Total (withLocal a x) := by
  refine ⟨fun s => ?_⟩
  have hdefined := hx.defined (a, s)
  rw [Defined, withLocal]
  cases hs : x (a, s) with
  | ok v t => rfl
  | error e t => rfl
  | undefined => simp [Defined, hs] at hdefined

instance total_shared {x : Prog σ ε α} [hx : Total x] : Total (shared x : Prog (τ × σ) ε α) :=
  ⟨fun p => (defined_shared x p.1).mpr (hx.defined p.2)⟩

instance total_part {get : τ → ρ} {put : ρ → τ → τ} {x : Prog (ρ × σ) ε α} [hx : Total x] :
    Total (part get put x) :=
  ⟨fun p => (defined_part get put x p.1).mpr (hx.defined _)⟩

instance total_self : Total (self : Prog (τ × σ) ε τ) := ⟨fun _ => rfl⟩
instance total_assign (f : τ → τ) : Total (assign f : Prog (τ × σ) ε Unit) := ⟨fun _ => rfl⟩

/-- A clean-up that is total leaves a run as defined as it is without it. -/
theorem defined_ensure {x : Prog σ ε α} {c : Prog σ ε Unit} [hc : Total c] (hx : Defined x s) :
    Defined (ensure x c) s := by
  have hbody : Defined ((Except.ok <$> x : Prog σ ε (Except ε α))) s :=
    (defined_bind x _).mpr ⟨hx, wp_mono (wp_true x) (fun _ _ _ => defined_pure _)
      fun _ _ _ => trivial⟩
  have hend : ∀ (r : Except ε α) t, Defined (ofExcept r : Prog σ ε α) t := fun r t => by
    cases r <;> exact rfl
  rw [ensure, defined_bind, defined_handle]
  refine ⟨⟨hbody, wp_mono (wp_true _) (fun _ _ _ => trivial) fun _ _ _ => defined_pure _⟩, ?_⟩
  refine wp_mono (wp_true _) (fun r t _ => ?_) fun _ _ _ => trivial
  rw [defined_bind]
  exact ⟨hc.defined t, wp_mono (wp_true c) (fun _ v _ => hend r v) fun _ _ _ => trivial⟩

/-- A total program that cannot throw returns. -/
theorem exists_ok_of_wp {x : Prog σ ε α} {Q : α → σ → Prop} [h : Total x]
    (hx : wp x Q (fun _ _ => False) s) : ∃ a t, x s = .ok a t ∧ Q a t := by
  have hdefined := h.defined s
  cases hs : x s with
  | ok a t => exact ⟨a, t, rfl, (wp_of_ok hs).mp hx⟩
  | error e t => exact ((wp_of_error hs).mp hx).elim
  | undefined => simp [Defined, hs] at hdefined

end Imperative.Prog
