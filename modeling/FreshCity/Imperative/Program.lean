import Mathlib.Tactic

/-!
# Stateful programs that may throw

A program reads and writes a state, and ends in one of three ways: it returns a
value, it throws, or it leaves the defined behaviour of its language. A throw
keeps every write made before it, as in a language with unwinding and no
transactions. The weakest precondition is partial: nothing is required of a run
into undefined behaviour, so a postcondition says what holds of all defined runs.
-/
namespace Imperative

/-- How a run ends. Undefined behaviour carries no state. -/
inductive Outcome (ε σ α : Type) where
  | ok (value : α) (state : σ)
  | error (exn : ε) (state : σ)
  | undefined

namespace Outcome
variable {ε σ α : Type}

/-- The state a run leaves behind, if it has one. -/
def state? : Outcome ε σ α → Option σ
  | ok _ t => some t
  | error _ t => some t
  | undefined => none

def value? : Outcome ε σ α → Option α
  | ok a _ => some a
  | _ => none

def threw : Outcome ε σ α → Bool
  | error _ _ => true
  | _ => false

@[simp] theorem state?_ok (a : α) (t : σ) : (ok a t : Outcome ε σ α).state? = some t := rfl
@[simp] theorem state?_error (e : ε) (t : σ) : (error e t : Outcome ε σ α).state? = some t := rfl
@[simp] theorem state?_undefined : (undefined : Outcome ε σ α).state? = none := rfl
@[simp] theorem value?_ok (a : α) (t : σ) : (ok a t : Outcome ε σ α).value? = some a := rfl
@[simp] theorem value?_error (e : ε) (t : σ) : (error e t : Outcome ε σ α).value? = none := rfl
@[simp] theorem value?_undefined : (undefined : Outcome ε σ α).value? = none := rfl
@[simp] theorem threw_ok (a : α) (t : σ) : (ok a t : Outcome ε σ α).threw = false := rfl
@[simp] theorem threw_error (e : ε) (t : σ) : (error e t : Outcome ε σ α).threw = true := rfl
@[simp] theorem threw_undefined : (undefined : Outcome ε σ α).threw = false := rfl

/-- A run that has a value returns. -/
theorem exists_ok {o : Outcome ε σ α} (h : o.value?.isSome = true) : ∃ a t, o = ok a t := by
  cases o with
  | ok a t => exact ⟨a, t, rfl⟩
  | error e t => cases h
  | undefined => cases h

end Outcome

/-- A program over states `σ` that throws exceptions `ε`. -/
def Prog (σ ε α : Type) : Type := σ → Outcome ε σ α

namespace Prog
variable {σ τ ρ ε α β : Type}

protected def pure (a : α) : Prog σ ε α := fun s => .ok a s

protected def bind (x : Prog σ ε α) (f : α → Prog σ ε β) : Prog σ ε β := fun s =>
  match x s with
  | .ok a t => f a t
  | .error e t => .error e t
  | .undefined => .undefined

instance : Monad (Prog σ ε) where
  pure := Prog.pure
  bind := Prog.bind

/-- `throw`; the state stays as it is. -/
def raise (e : ε) : Prog σ ε α := fun s => .error e s

/-- Leaves the defined behaviour of the language. -/
def undefinedBehaviour : Prog σ ε α := fun _ => .undefined

/-- `try x catch`: the handler starts in the state the throw left behind. -/
def handle (x : Prog σ ε α) (h : ε → Prog σ ε α) : Prog σ ε α := fun s =>
  match x s with
  | .ok a t => .ok a t
  | .error e t => h e t
  | .undefined => .undefined

/-- Read a component of the state. -/
def gets (f : σ → α) : Prog σ ε α := fun s => .ok (f s) s

def modify (f : σ → σ) : Prog σ ε Unit := fun s => .ok () (f s)

/-- `if (c) x;`. -/
def when (c : Prop) [Decidable c] (x : Prog σ ε Unit) : Prog σ ε Unit := if c then x else pure ()

/-- `if (c) throw e;`. -/
def raiseIf (c : Prop) [Decidable c] (e : ε) : Prog σ ε Unit := if c then raise e else pure ()

/-- The value of an option, or a throw. -/
def orRaise (e : ε) : Option α → Prog σ ε α
  | some a => pure a
  | none => raise e

/-- The value of an option that the language takes to be there. -/
def orUndefined : Option α → Prog σ ε α
  | some a => pure a
  | none => undefinedBehaviour

/-- The value of a computation that reports its failure as a value. -/
def ofExcept : Except ε α → Prog σ ε α
  | .ok a => pure a
  | .error e => raise e

/-- Run the body once for each element, in order. -/
def forEach (f : α → Prog σ ε Unit) : List α → Prog σ ε Unit
  | [] => pure ()
  | a :: as => do f a; forEach f as

/-- The first element the body accepts. The scan stops there. -/
def findFirst (f : α → Prog σ ε Bool) : List α → Prog σ ε (Option α)
  | [] => pure none
  | a :: as => do if ← f a then pure (some a) else findFirst f as

/-- Run a method on an object that is a part of the state. The object's writes
are stored back however the method ends. -/
def focus (get : σ → Option τ) (put : τ → σ → σ) (x : Prog (τ × σ) ε α) : Prog σ ε α := fun s =>
  match get s with
  | none => .undefined
  | some a =>
    match x (a, s) with
    | .ok v t => .ok v (put t.1 t.2)
    | .error e t => .error e (put t.1 t.2)
    | .undefined => .undefined

/-- Run a method on an object that is not yet a part of the state. A throw drops it. -/
def withLocal (a : τ) (x : Prog (τ × σ) ε α) : Prog σ ε (α × τ) := fun s =>
  match x (a, s) with
  | .ok v t => .ok (v, t.1) t.2
  | .error e t => .error e t.2
  | .undefined => .undefined

/-- A program that does not touch the object it is called from. -/
def shared (x : Prog σ ε α) : Prog (τ × σ) ε α := fun s =>
  match x s.2 with
  | .ok v t => .ok v (s.1, t)
  | .error e t => .error e (s.1, t)
  | .undefined => .undefined

/-- Run a block and then, however it ends, the destructors of its locals. -/
def ensure (x : Prog σ ε α) (cleanup : Prog σ ε Unit) : Prog σ ε α := do
  let r ← handle (Except.ok <$> x) fun e => pure (.error e)
  cleanup
  ofExcept r

/-- Run a method on a local object. A throw destroys it on the way out. -/
def owned (a : τ) (destruct : τ → Prog σ ε Unit) (x : Prog (τ × σ) ε α) : Prog σ ε (α × τ) :=
  fun s =>
    match x (a, s) with
    | .ok v t => .ok (v, t.1) t.2
    | .error e t => Prog.bind (destruct t.1) (fun _ => raise e) t.2
    | .undefined => .undefined

/-- Run a method on a part of the object. -/
def part (get : τ → ρ) (put : ρ → τ → τ) (x : Prog (ρ × σ) ε α) : Prog (τ × σ) ε α := fun p =>
  match x (get p.1, p.2) with
  | .ok v t => .ok v (put t.1 p.1, t.2)
  | .error e t => .error e (put t.1 p.1, t.2)
  | .undefined => .undefined

/-- The object a method is called on. -/
def self : Prog (τ × σ) ε τ := gets Prod.fst

/-- A write to the object a method is called on. -/
def assign (f : τ → τ) : Prog (τ × σ) ε Unit := modify fun p => (f p.1, p.2)

/-! ## One step of execution -/

section Apply
variable (s : σ) (e : ε)

@[simp] theorem pure_apply (a : α) : (pure a : Prog σ ε α) s = .ok a s := rfl

theorem bind_apply (x : Prog σ ε α) (f : α → Prog σ ε β) :
    (x >>= f) s = match x s with
      | .ok a t => f a t
      | .error e t => .error e t
      | .undefined => .undefined := rfl

theorem bind_ok {x : Prog σ ε α} {f : α → Prog σ ε β} {a : α} {t : σ} (h : x s = .ok a t) :
    (x >>= f) s = f a t := by rw [bind_apply, h]

theorem bind_assoc {γ : Type} (x : Prog σ ε α) (f : α → Prog σ ε β) (g : β → Prog σ ε γ) :
    x >>= f >>= g = x >>= fun a => f a >>= g := by
  funext s
  simp only [bind_apply]
  cases x s <;> rfl

@[simp] theorem raise_apply : (raise e : Prog σ ε α) s = .error e s := rfl
@[simp] theorem undefinedBehaviour_apply : (undefinedBehaviour : Prog σ ε α) s = .undefined := rfl
@[simp] theorem gets_apply (f : σ → α) : (gets f : Prog σ ε α) s = .ok (f s) s := rfl
@[simp] theorem modify_apply (f : σ → σ) : (modify f : Prog σ ε Unit) s = .ok () (f s) := rfl

theorem handle_apply (x : Prog σ ε α) (h : ε → Prog σ ε α) :
    handle x h s = match x s with
      | .ok a t => .ok a t
      | .error e t => h e t
      | .undefined => .undefined := rfl

theorem when_true {c : Prop} [Decidable c] (h : c) (x : Prog σ ε Unit) : when c x = x := if_pos h

theorem when_false {c : Prop} [Decidable c] (h : ¬c) (x : Prog σ ε Unit) : when c x = pure () :=
  if_neg h

@[simp] theorem orRaise_some (a : α) : (orRaise e (some a) : Prog σ ε α) = pure a := rfl
@[simp] theorem orRaise_none : (orRaise e none : Prog σ ε α) = raise e := rfl
@[simp] theorem orUndefined_some (a : α) : (orUndefined (some a) : Prog σ ε α) = pure a := rfl
@[simp] theorem orUndefined_none : (orUndefined none : Prog σ ε α) = undefinedBehaviour := rfl

end Apply

/-! ## Weakest preconditions -/

/-- Every defined run from `s` ends in `Q` if it returns and in `E` if it throws. -/
def wp (x : Prog σ ε α) (Q : α → σ → Prop) (E : ε → σ → Prop) (s : σ) : Prop :=
  match x s with
  | .ok a t => Q a t
  | .error e t => E e t
  | .undefined => True

section Rules
variable {Q Q' : α → σ → Prop} {R : β → σ → Prop} {E E' : ε → σ → Prop} {s : σ}

theorem wp_of_ok {x : Prog σ ε α} {a : α} {t : σ} (h : x s = .ok a t) :
    wp x Q E s ↔ Q a t := by simp [wp, h]

theorem wp_of_error {x : Prog σ ε α} {e : ε} {t : σ} (h : x s = .error e t) :
    wp x Q E s ↔ E e t := by simp [wp, h]

theorem wp_of_undefined {x : Prog σ ε α} (h : x s = .undefined) : wp x Q E s := by simp [wp, h]

/-- Two runs that end alike. -/
theorem wp_of_eq {x y : Prog σ ε α} {t : σ} (h : x s = y t) : wp x Q E s ↔ wp y Q E t := by
  rw [wp, wp, h]

/-- What a weakest precondition says of the state a run ends in. -/
theorem state_of_wp {x : Prog σ ε α} {P : σ → Prop} {t : σ}
    (h : wp x (fun _ => P) (fun _ => P) s) (ht : (x s).state? = some t) : P t := by
  cases hx : x s with
  | ok a u => rw [wp_of_ok hx] at h; simp_all
  | error e u => rw [wp_of_error hx] at h; simp_all
  | undefined => simp [hx] at ht

theorem wp_mono {x : Prog σ ε α} (h : wp x Q E s) (hq : ∀ a t, Q a t → Q' a t)
    (he : ∀ e t, E e t → E' e t) : wp x Q' E' s := by
  cases hx : x s with
  | ok a t => rw [wp_of_ok hx] at h ⊢; exact hq a t h
  | error e t => rw [wp_of_error hx] at h ⊢; exact he e t h
  | undefined => exact wp_of_undefined hx

/-- The run itself. -/
theorem wp_run (x : Prog σ ε α) : wp x (fun a t => x s = .ok a t) (fun e t => x s = .error e t) s := by
  cases hx : x s with
  | ok a t => exact (wp_of_ok hx).mpr rfl
  | error e t => exact (wp_of_error hx).mpr rfl
  | undefined => exact wp_of_undefined hx

theorem wp_and {x : Prog σ ε α} (h : wp x Q E s) (h' : wp x Q' E' s) :
    wp x (fun a t => Q a t ∧ Q' a t) (fun e t => E e t ∧ E' e t) s := by
  cases hx : x s with
  | ok a t => rw [wp_of_ok hx] at h h' ⊢; exact ⟨h, h'⟩
  | error e t => rw [wp_of_error hx] at h h' ⊢; exact ⟨h, h'⟩
  | undefined => exact wp_of_undefined hx

/-- Nothing is required of a run. -/
@[simp] theorem wp_true (x : Prog σ ε α) : wp x (fun _ _ => True) (fun _ _ => True) s := by
  simp only [wp]
  cases x s <;> trivial

@[simp] theorem wp_pure (a : α) : wp (pure a : Prog σ ε α) Q E s ↔ Q a s := Iff.rfl
@[simp] theorem wp_raise (e : ε) : wp (raise e : Prog σ ε α) Q E s ↔ E e s := Iff.rfl
@[simp] theorem wp_undefinedBehaviour : wp (undefinedBehaviour : Prog σ ε α) Q E s := trivial
@[simp] theorem wp_gets (f : σ → α) : wp (gets f : Prog σ ε α) Q E s ↔ Q (f s) s := Iff.rfl
@[simp] theorem wp_modify (f : σ → σ) {Q : Unit → σ → Prop} :
    wp (modify f : Prog σ ε Unit) Q E s ↔ Q () (f s) := Iff.rfl

@[simp] theorem wp_bind (x : Prog σ ε α) (f : α → Prog σ ε β) :
    wp (x >>= f) R E s ↔ wp x (fun a => wp (f a) R E) E s := by
  simp only [wp, bind_apply]
  cases x s <;> rfl

/-- What the last part of a program makes true, whatever comes before it. -/
theorem wp_last {x : Prog σ ε α} {f : α → Prog σ ε β}
    (hf : ∀ a t, wp (f a) R (fun _ _ => True) t) : wp (x >>= f) R (fun _ _ => True) s := by
  rw [wp_bind]
  exact wp_mono (wp_true x) (fun a t _ => hf a t) (fun _ _ _ => trivial)

@[simp] theorem wp_map (f : α → β) (x : Prog σ ε α) :
    wp (f <$> x) R E s ↔ wp x (fun a => R (f a)) E s := wp_bind x _

@[simp] theorem wp_handle (x : Prog σ ε α) (h : ε → Prog σ ε α) :
    wp (handle x h) Q E s ↔ wp x Q (fun e => wp (h e) Q E) s := by
  simp only [wp, handle_apply]
  cases x s <;> rfl

@[simp] theorem wp_ite (c : Prop) [Decidable c] (x y : Prog σ ε α) :
    wp (if c then x else y) Q E s ↔ if c then wp x Q E s else wp y Q E s := by
  split <;> rfl

@[simp] theorem wp_when (c : Prop) [Decidable c] (x : Prog σ ε Unit) {Q : Unit → σ → Prop} :
    wp (when c x) Q E s ↔ if c then wp x Q E s else Q () s := wp_ite c x _

@[simp] theorem wp_raiseIf (c : Prop) [Decidable c] (e : ε) {Q : Unit → σ → Prop} :
    wp (raiseIf c e) Q E s ↔ if c then E e s else Q () s := wp_ite c _ _

@[simp] theorem wp_orRaise (e : ε) (o : Option α) :
    wp (orRaise e o) Q E s ↔ (∀ a, o = some a → Q a s) ∧ (o = none → E e s) := by
  cases o <;> simp

@[simp] theorem wp_orUndefined (o : Option α) :
    wp (orUndefined o) Q E s ↔ ∀ a, o = some a → Q a s := by
  cases o <;> simp

@[simp] theorem wp_ofExcept (r : Except ε α) :
    wp (ofExcept r) Q E s ↔ (∀ a, r = .ok a → Q a s) ∧ (∀ e, r = .error e → E e s) := by
  cases r <;> simp [ofExcept]

@[simp] theorem wp_focus (get : σ → Option τ) (put : τ → σ → σ) (x : Prog (τ × σ) ε α) :
    wp (focus get put x) Q E s ↔ ∀ a, get s = some a →
      wp x (fun v t => Q v (put t.1 t.2)) (fun e t => E e (put t.1 t.2)) (a, s) := by
  cases hg : get s with
  | none => simp [wp, focus, hg]
  | some a =>
    simp only [wp, focus, hg, Option.some.injEq, forall_eq']
    cases x (a, s) <;> rfl

@[simp] theorem wp_withLocal (a : τ) (x : Prog (τ × σ) ε α) {Q : α × τ → σ → Prop} :
    wp (withLocal a x) Q E s ↔
      wp x (fun v t => Q (v, t.1) t.2) (fun e t => E e t.2) (a, s) := by
  simp only [wp, withLocal]
  cases x (a, s) <;> rfl

@[simp] theorem wp_part (get : τ → ρ) (put : ρ → τ → τ) (x : Prog (ρ × σ) ε α)
    {Q : α → τ × σ → Prop} {E : ε → τ × σ → Prop} {p : τ × σ} :
    wp (part get put x) Q E p ↔ wp x (fun v t => Q v (put t.1 p.1, t.2))
      (fun e t => E e (put t.1 p.1, t.2)) (get p.1, p.2) := by
  simp only [wp, part]
  cases x (get p.1, p.2) <;> rfl

@[simp] theorem wp_self {Q : τ → τ × σ → Prop} {E : ε → τ × σ → Prop} {p : τ × σ} :
    wp (self : Prog (τ × σ) ε τ) Q E p ↔ Q p.1 p := Iff.rfl

@[simp] theorem wp_assign (f : τ → τ) {Q : Unit → τ × σ → Prop} {E : ε → τ × σ → Prop}
    {p : τ × σ} : wp (assign f) Q E p ↔ Q () (f p.1, p.2) := Iff.rfl

@[simp] theorem wp_owned (a : τ) (destruct : τ → Prog σ ε Unit) (x : Prog (τ × σ) ε α)
    {Q : α × τ → σ → Prop} :
    wp (owned a destruct x) Q E s ↔ wp x (fun v t => Q (v, t.1) t.2)
      (fun e t => wp (destruct t.1) (fun _ => E e) E t.2) (a, s) := by
  simp only [wp, owned, Prog.bind]
  cases x (a, s) with
  | ok v t => rfl
  | error e t => cases hd : destruct t.1 t.2 <;> simp [hd]
  | undefined => rfl

@[simp] theorem wp_shared (x : Prog σ ε α) {Q : α → τ × σ → Prop} {E : ε → τ × σ → Prop}
    {p : τ × σ} :
    wp (shared x) Q E p ↔ wp x (fun v t => Q v (p.1, t)) (fun e t => E e (p.1, t)) p.2 := by
  simp only [wp, shared]
  cases x p.2 <;> rfl

@[simp] theorem wp_ensure (x : Prog σ ε α) (c : Prog σ ε Unit) :
    wp (ensure x c) Q E s ↔ wp x (fun a => wp c (fun _ => Q a) E)
      (fun e => wp c (fun _ => E e) E) s := by
  have hok : ∀ a, wp (c >>= fun _ => ofExcept (.ok a)) Q E = wp c (fun _ => Q a) E :=
    fun a => funext fun t => propext (wp_bind c _)
  have herror : ∀ e, wp (c >>= fun _ => ofExcept (.error e)) Q E = wp c (fun _ => E e) E :=
    fun e => funext fun t => propext (wp_bind c _)
  rw [ensure, wp_bind, wp_handle, wp_map]
  simp only [hok]
  exact iff_of_eq (congrArg (fun F => wp x _ F s) (funext herror))

/-- A loop keeps what its body keeps. -/
theorem wp_forEach {I : σ → Prop} {J : ε → σ → Prop} {f : α → Prog σ ε Unit} (as : List α)
    (hI : I s) (hf : ∀ a ∈ as, ∀ t, I t → wp (f a) (fun _ => I) J t) :
    wp (forEach f as) (fun _ => I) J s := by
  induction as generalizing s with
  | nil => exact hI
  | cons a as ih =>
    rw [forEach, wp_bind]
    refine wp_mono (hf a (by simp) s hI) (fun _ t ht => ?_) (fun _ _ h => h)
    exact ih ht fun b hb => hf b (by simp [hb])

/-- A loop whose invariant speaks of the elements it has been through. -/
theorem wp_forEach_visited {I : List α → σ → Prop} {J : ε → σ → Prop} {f : α → Prog σ ε Unit}
    {as : List α} (hI : I [] s)
    (hf : ∀ pre a post, as = pre ++ a :: post → ∀ t, I pre t →
      wp (f a) (fun _ => I (pre ++ [a])) J t) :
    wp (forEach f as) (fun _ => I as) J s := by
  have hrest : ∀ rest pre t, as = pre ++ rest → I pre t → wp (forEach f rest) (fun _ => I as) J t := by
    intro rest
    induction rest with
    | nil =>
      intro pre t has ht
      rw [List.append_nil] at has
      exact has ▸ ht
    | cons a rest ih =>
      intro pre t has ht
      rw [forEach, wp_bind]
      refine wp_mono (hf pre a rest has t ht) (fun _ u hu => ?_) (fun _ _ h => h)
      exact ih (pre ++ [a]) u (by rw [has, List.append_assoc, List.singleton_append]) hu
  exact hrest as [] s rfl hI

/-- A scan whose body only reads is a search. -/
theorem findFirst_of_reads {f : α → Prog σ ε Bool} {g : α → Option Bool} {e : ε}
    (h : ∀ a, f a s = (orRaise e (g a) : Prog σ ε Bool) s) (as : List α) :
    findFirst f as s = (orRaise e (as.findM? g) : Prog σ ε (Option α)) s := by
  induction as with
  | nil => rfl
  | cons a as ih =>
    rw [findFirst, bind_apply, h, List.findM?]
    cases hg : g a with
    | none => rfl
    | some b =>
      cases b with
      | true => rfl
      | false => exact ih

end Rules

/-- A search in a list of images. -/
theorem findM?_map (h : α → β) (g : β → Option Bool) (as : List α) :
    (as.map h).findM? g = (as.findM? fun a => g (h a)).map (Option.map h) := by
  induction as with
  | nil => rfl
  | cons a as ih =>
    rw [List.map_cons, List.findM?, List.findM?]
    cases hg : g (h a) with
    | none => rfl
    | some b =>
      cases b with
      | true => rfl
      | false => exact ih

end Prog
end Imperative
