import FreshCity.Imperative.Program

/-!
# Footprints: which kinds of change a program can make

The changes a state can undergo are sorted into kinds. A program stays within a
list of kinds when every run of it, however it ends, is a sequence of changes of
these kinds. An invariant that each of the kinds keeps is then kept by the
program, and the program's text is not looked at again. Footprints are classes:
the footprint of a program is found by instance search from those of its parts.
-/
namespace Imperative
open Relation

variable {σ τ ρ ε α β κ : Type}

/-- A finite sequence of changes whose kinds are all listed. -/
def Path (change : κ → σ → σ → Prop) (K : List κ) : σ → σ → Prop :=
  ReflTransGen fun s t => ∃ k ∈ K, change k s t

namespace Path
variable {change : κ → σ → σ → Prop} {K L : List κ} {s t u : σ}

theorem refl : Path change K s s := ReflTransGen.refl

theorem trans (h : Path change K s t) (h' : Path change K t u) : Path change K s u :=
  ReflTransGen.trans h h'

theorem single {k : κ} (hk : k ∈ K) (h : change k s t) : Path change K s t :=
  ReflTransGen.single ⟨k, hk, h⟩

theorem mono (hKL : K ⊆ L) (h : Path change K s t) : Path change L s t :=
  ReflTransGen.mono (fun _ _ ⟨k, hk, hc⟩ => ⟨k, hKL hk, hc⟩) _ _ h

/-- An invariant of every listed kind is an invariant of the sequence. -/
theorem invariant {I : σ → Prop} (hI : ∀ k ∈ K, ∀ s t, change k s t → I s → I t)
    (h : Path change K s t) (hs : I s) : I t := by
  induction h with
  | refl => exact hs
  | tail _ hc ih =>
    obtain ⟨k, hk, hkc⟩ := hc
    exact hI k hk _ _ hkc ih

/-- A view that no listed kind changes is the same at both ends. -/
theorem view_eq {γ : Type*} {view : σ → γ} (hv : ∀ k ∈ K, ∀ s t, change k s t → view t = view s)
    (h : Path change K s t) : view t = view s :=
  h.invariant (I := fun u => view u = view s) (fun k hk a b hab ha => (hv k hk a b hab).trans ha) rfl

end Path

/-- A kind stands in a list. -/
class Listed (k : κ) (K : List κ) : Prop where
  mem : k ∈ K

instance {k : κ} {K : List κ} : Listed k (k :: K) := ⟨List.mem_cons_self ..⟩

instance {j k : κ} {K : List κ} [h : Listed k K] : Listed k (j :: K) :=
  ⟨List.mem_cons_of_mem _ h.mem⟩

namespace Prog

/-- Every defined run of `x` is a sequence of changes of the kinds in `K`. -/
class Within (change : κ → σ → σ → Prop) (K : List κ) (x : Prog σ ε α) : Prop where
  path : ∀ s, wp x (fun _ => Path change K s) (fun _ => Path change K s) s

section Rules
variable {change : κ → σ → σ → Prop} {K L : List κ}

theorem Within.mono {x : Prog σ ε α} (hKL : K ⊆ L) (h : Within change K x) : Within change L x :=
  ⟨fun s => wp_mono (h.path s) (fun _ _ => Path.mono hKL) (fun _ _ => Path.mono hKL)⟩

/-- The rule by which an invariant of the kinds becomes an invariant of the program. -/
theorem Within.invariant {x : Prog σ ε α} {I : σ → Prop} (h : Within change K x)
    (hI : ∀ k ∈ K, ∀ s t, change k s t → I s → I t) {s : σ} (hs : I s) :
    wp x (fun _ => I) (fun _ => I) s :=
  wp_mono (h.path s) (fun _ _ hp => hp.invariant hI hs) (fun _ _ hp => hp.invariant hI hs)

instance within_pure (a : α) : Within change K (pure a : Prog σ ε α) := ⟨fun _ => Path.refl⟩

instance within_raise (e : ε) : Within change K (raise e : Prog σ ε α) := ⟨fun _ => Path.refl⟩

instance within_undefinedBehaviour : Within change K (undefinedBehaviour : Prog σ ε α) :=
  ⟨fun _ => wp_undefinedBehaviour⟩

instance within_gets (f : σ → α) : Within change K (gets f : Prog σ ε α) := ⟨fun _ => Path.refl⟩

theorem Within.modify (k : κ) [hk : Listed k K] {f : σ → σ} (h : ∀ s, change k s (f s)) :
    Within change K (modify f : Prog σ ε Unit) := ⟨fun s => Path.single hk.mem (h s)⟩

theorem Within.bind {x : Prog σ ε α} {f : α → Prog σ ε β} (hx : Within change K x)
    (hf : ∀ a, Within change K (f a)) : Within change K (x >>= f) := by
  refine ⟨fun s => ?_⟩
  rw [wp_bind]
  refine wp_mono (hx.path s) (fun a t ht => ?_) (fun _ _ h => h)
  exact wp_mono ((hf a).path t) (fun _ _ => ht.trans) (fun _ _ => ht.trans)

/-- The second part may rely on what the first one returns. -/
theorem Within.bind_of {x : Prog σ ε α} {f : α → Prog σ ε β} {P : α → Prop}
    (hx : Within change K x) (hP : ∀ s, wp x (fun a _ => P a) (fun _ _ => True) s)
    (hf : ∀ a, P a → Within change K (f a)) : Within change K (x >>= f) := by
  refine ⟨fun s => ?_⟩
  rw [wp_bind]
  refine wp_mono (wp_and (hx.path s) (hP s)) (fun a t ht => ?_) (fun _ _ h => h.1)
  exact wp_mono ((hf a ht.2).path t) (fun _ _ => ht.1.trans) (fun _ _ => ht.1.trans)

instance within_bind {x : Prog σ ε α} {f : α → Prog σ ε β} [i : Within change K x]
    [j : ∀ a, Within change K (f a)] : Within change K (x >>= f) := i.bind j

instance within_map {x : Prog σ ε α} {f : α → β} [Within change K x] :
    Within change K (f <$> x) := inferInstanceAs (Within change K (x >>= fun a => pure (f a)))

instance within_handle {x : Prog σ ε α} {h : ε → Prog σ ε α} [hx : Within change K x]
    [hh : ∀ e, Within change K (h e)] : Within change K (handle x h) := by
  refine ⟨fun s => ?_⟩
  rw [wp_handle]
  refine wp_mono (hx.path s) (fun _ _ h => h) (fun e t ht => ?_)
  exact wp_mono ((hh e).path t) (fun _ _ => ht.trans) (fun _ _ => ht.trans)

instance within_ite {c : Prop} [Decidable c] {x y : Prog σ ε α} [i : Within change K x]
    [j : Within change K y] : Within change K (if c then x else y) := by
  split <;> assumption

instance within_when {c : Prop} [Decidable c] {x : Prog σ ε Unit} [Within change K x] :
    Within change K (when c x) := within_ite

instance within_raiseIf (c : Prop) [Decidable c] (e : ε) :
    Within change K (raiseIf c e : Prog σ ε Unit) := within_ite

instance within_orRaise (e : ε) (o : Option α) : Within change K (orRaise e o : Prog σ ε α) := by
  cases o
  · exact within_raise _
  · exact within_pure _

instance within_orUndefined (o : Option α) : Within change K (orUndefined o : Prog σ ε α) := by
  cases o
  · exact within_undefinedBehaviour
  · exact within_pure _

instance within_ofExcept (r : Except ε α) : Within change K (ofExcept r : Prog σ ε α) := by
  cases r
  · exact within_raise _
  · exact within_pure _

instance within_ensure {x : Prog σ ε α} {c : Prog σ ε Unit} [Within change K x]
    [Within change K c] : Within change K (ensure x c) := within_bind

instance within_forEach {f : α → Prog σ ε Unit} (as : List α)
    [hf : ∀ a, Within change K (f a)] : Within change K (forEach f as) := by
  induction as with
  | nil => exact within_pure _
  | cons a as ih => exact (hf a).bind fun _ => ih

instance within_findFirst {f : α → Prog σ ε Bool} (as : List α)
    [hf : ∀ a, Within change K (f a)] : Within change K (findFirst f as) := by
  induction as with
  | nil => exact within_pure _
  | cons a as ih => exact (hf a).bind fun b => within_ite

end Rules

/-- A program that makes no change at all leaves the state it finds. -/
theorem Within.unchanged {change : κ → σ → σ → Prop} {x : Prog σ ε α} (h : Within change [] x)
    (s : σ) : wp x (fun _ t => t = s) (fun _ t => t = s) s :=
  h.invariant (fun _ hk => absurd hk (List.not_mem_nil)) rfl

/-! ## Invariants -/

/-- A program every run of which keeps an invariant. It is a footprint with the one
kind of changes that keep it, so that the same rules apply. -/
abbrev Keeps (I : σ → Prop) (x : Prog σ ε α) : Prop :=
  Within (fun (_ : Unit) s t => I s → I t) [()] x

section Invariants
variable {I : σ → Prop} {x : Prog σ ε α} {s : σ}

theorem Within.wp_of_keeps (h : Keeps I x) (hs : I s) : wp x (fun _ => I) (fun _ => I) s :=
  h.invariant (fun _ _ _ _ hst => hst) hs

theorem keeps_of_wp (h : ∀ s, I s → wp x (fun _ => I) (fun _ => I) s) : Keeps I x := by
  refine ⟨fun s => ?_⟩
  have hk : () ∈ [()] := List.mem_singleton_self _
  by_cases hs : I s
  · exact wp_mono (h s hs) (fun _ _ ht => Path.single hk fun _ => ht)
      (fun _ _ ht => Path.single hk fun _ => ht)
  · exact wp_mono (wp_true x) (fun _ _ _ => Path.single hk fun hI => absurd hI hs)
      (fun _ _ _ => Path.single hk fun hI => absurd hI hs)

/-- What follows a part that keeps an invariant can rely on it. -/
theorem wp_bind_keeps {f : α → Prog σ ε β} {Q : β → σ → Prop} (hx : Keeps I x) (hs : I s)
    (hf : ∀ a t, I t → wp (f a) Q (fun _ _ => True) t) :
    wp (x >>= f) Q (fun _ _ => True) s := by
  rw [wp_bind]
  exact wp_mono (hx.wp_of_keeps hs) hf (fun _ _ _ => trivial)

/-- An invariant of every kind of a footprint is kept. -/
theorem Within.keeps {change : κ → σ → σ → Prop} {K : List κ} (h : Within change K x)
    (hI : ∀ k ∈ K, ∀ s t, change k s t → I s → I t) : Keeps I x :=
  keeps_of_wp fun _ hs => h.invariant hI hs

end Invariants

/-! ## Methods -/

/-- Changes of an object together with the state around it: `none` changes the
object alone and `some k` changes the surroundings by `k`. -/
def methodChange (change : κ → σ → σ → Prop) : Option κ → τ × σ → τ × σ → Prop
  | none, p, q => q.2 = p.2
  | some k, p, q => q.1 = p.1 ∧ change k p.2 q.2

/-- A method that changes its object, and its surroundings within `K`. -/
abbrev MethodWithin (change : κ → σ → σ → Prop) (K : List κ) (x : Prog (τ × σ) ε α) : Prop :=
  Within (methodChange change) (none :: K.map some) x

section Methods
variable {change : κ → σ → σ → Prop} {K : List κ}

theorem path_of_methodPath {p q : τ × σ}
    (h : Path (methodChange change) (none :: K.map some) p q) : Path change K p.2 q.2 := by
  refine h.invariant (I := fun r => Path change K p.2 r.2) ?_ Path.refl
  intro k hk r r' hr hp
  rcases List.mem_cons.mp hk with rfl | hmem
  · exact hr ▸ hp
  · obtain ⟨j, hj, rfl⟩ := List.mem_map.mp hmem
    exact hp.trans (Path.single hj hr.2)

instance within_withLocal {a : τ} {x : Prog (τ × σ) ε α} [hx : MethodWithin change K x] :
    Within change K (withLocal a x) := by
  refine ⟨fun s => ?_⟩
  rw [wp_withLocal]
  exact wp_mono (hx.path (a, s)) (fun _ _ => path_of_methodPath) (fun _ _ => path_of_methodPath)

instance within_owned {a : τ} {d : τ → Prog σ ε Unit} {x : Prog (τ × σ) ε α}
    [hx : MethodWithin change K x] [hd : ∀ a, Within change K (d a)] :
    Within change K (owned a d x) := by
  refine ⟨fun s => ?_⟩
  rw [wp_owned]
  refine wp_mono (hx.path (a, s)) (fun _ _ => path_of_methodPath) (fun _ t ht => ?_)
  have hs := path_of_methodPath ht
  exact wp_mono ((hd t.1).path t.2) (fun _ _ => hs.trans) (fun _ _ => hs.trans)

/-- Storing the object back is itself a change of some kind. -/
theorem Within.focus (k : κ) [hk : Listed k K] {get : σ → Option τ} {put : τ → σ → σ}
    {x : Prog (τ × σ) ε α} (hput : ∀ a s, change k s (put a s)) (hx : MethodWithin change K x) :
    Within change K (focus get put x) := by
  refine ⟨fun s => ?_⟩
  rw [wp_focus]
  intro a _
  have hstore : ∀ t : τ × σ, Path change K s t.2 → Path change K s (put t.1 t.2) :=
    fun t ht => ht.trans (Path.single hk.mem (hput t.1 t.2))
  exact wp_mono (hx.path (a, s)) (fun _ t ht => hstore t (path_of_methodPath ht))
    (fun _ t ht => hstore t (path_of_methodPath ht))

theorem methodPath_of_path (a : τ) {s t : σ} (h : Path change K s t) :
    Path (methodChange change) (none :: K.map some) (a, s) (a, t) := by
  induction h with
  | refl => exact Path.refl
  | tail _ hc ih =>
    obtain ⟨k, hk, hkc⟩ := hc
    have hk' : some k ∈ none :: K.map some := List.mem_cons_of_mem _ (List.mem_map_of_mem hk)
    exact ih.trans (Path.single hk' ⟨rfl, hkc⟩)

instance methodWithin_shared {x : Prog σ ε α} [hx : Within change K x] :
    MethodWithin change K (shared x : Prog (τ × σ) ε α) := by
  refine ⟨fun p => ?_⟩
  rw [wp_shared]
  exact wp_mono (hx.path p.2) (fun _ _ => methodPath_of_path p.1) (fun _ _ => methodPath_of_path p.1)

instance methodWithin_part {get : τ → ρ} {put : ρ → τ → τ} {x : Prog (ρ × σ) ε α}
    [hx : MethodWithin change K x] : MethodWithin change K (part get put x) := by
  refine ⟨fun p => ?_⟩
  rw [wp_part]
  have hstore : ∀ t : ρ × σ, Path (methodChange change) (none :: K.map some) (get p.1, p.2) t →
      Path (methodChange change) (none :: K.map some) p (put t.1 p.1, t.2) := fun t ht =>
    (methodPath_of_path p.1 (path_of_methodPath ht)).trans
      (Path.single (List.mem_cons_self ..) rfl)
  exact wp_mono (hx.path (get p.1, p.2)) (fun _ => hstore) (fun _ => hstore)

instance within_self {change : κ → τ × σ → τ × σ → Prop} :
    Within change K (self : Prog (τ × σ) ε τ) := within_gets _

instance methodWithin_assign (f : τ → τ) :
    MethodWithin change K (assign f : Prog (τ × σ) ε Unit) :=
  .modify none fun _ => rfl

/-- What a method leaves to the state around its object does not change the object. -/
instance keeps_shared {P : τ → Prop} {x : Prog σ ε α} :
    Keeps (fun t : τ × σ => P t.1) (shared x : Prog (τ × σ) ε α) := by
  refine keeps_of_wp fun p hp => ?_
  rw [wp_shared]
  exact wp_mono (wp_true x) (fun _ _ _ => hp) (fun _ _ _ => hp)

/-- What a method leaves to the state around its object keeps there what it keeps alone. -/
instance keeps_shared_around {P : σ → Prop} {x : Prog σ ε α} [hx : Keeps P x] :
    Keeps (fun t : τ × σ => P t.2) (shared x : Prog (τ × σ) ε α) := by
  refine keeps_of_wp fun p hp => ?_
  rw [wp_shared]
  exact hx.wp_of_keeps hp

/-- A write to the object does not change the state around it. -/
instance keeps_assign_around {P : σ → Prop} {f : τ → τ} :
    Keeps (fun t : τ × σ => P t.2) (assign f : Prog (τ × σ) ε Unit) :=
  keeps_of_wp fun _ hp => hp

/-- A write to the object keeps what it does not touch. -/
theorem keeps_assign {P : τ → Prop} {f : τ → τ} (h : ∀ a, P a → P (f a)) :
    Keeps (fun t : τ × σ => P t.1) (assign f : Prog (τ × σ) ε Unit) :=
  keeps_of_wp fun p hp => h p.1 hp

end Methods
end Prog
end Imperative
