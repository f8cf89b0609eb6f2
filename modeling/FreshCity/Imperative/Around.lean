import FreshCity.Imperative.Footprint

/-!
# Invariants of the state around an object

A method works on its object and on the state around it. What it keeps of that state, the
program that runs the method keeps.
-/
namespace Imperative.Prog

variable {σ τ ρ ε α : Type} {P : σ → Prop}

instance keeps_part_around {get : τ → ρ} {put : ρ → τ → τ} {x : Prog (ρ × σ) ε α}
    [hx : Keeps (fun q : ρ × σ => P q.2) x] :
    Keeps (fun q : τ × σ => P q.2) (part get put x) := by
  refine keeps_of_wp fun q hq => ?_
  rw [wp_part]
  exact hx.wp_of_keeps (I := fun q : ρ × σ => P q.2) hq

instance keeps_withLocal_around {a : τ} {x : Prog (τ × σ) ε α}
    [hx : Keeps (fun q : τ × σ => P q.2) x] : Keeps P (withLocal a x) := by
  refine keeps_of_wp fun s hs => ?_
  rw [wp_withLocal]
  exact hx.wp_of_keeps (I := fun q : τ × σ => P q.2) hs

instance keeps_owned_around {a : τ} {destructor : τ → Prog σ ε Unit} {x : Prog (τ × σ) ε α}
    [hx : Keeps (fun q : τ × σ => P q.2) x] [hd : ∀ a, Keeps P (destructor a)] :
    Keeps P (owned a destructor x) := by
  refine keeps_of_wp fun s hs => ?_
  rw [wp_owned]
  refine wp_mono (hx.wp_of_keeps (I := fun q : τ × σ => P q.2) hs) (fun _ _ hq => hq)
    (fun _ q hq => ?_)
  exact (hd q.1).wp_of_keeps hq

/-- The object is stored back, which must keep the invariant too. -/
theorem keeps_focus_around {get : σ → Option τ} {put : τ → σ → σ} {x : Prog (τ × σ) ε α}
    (hput : ∀ a s, P s → P (put a s)) (hx : Keeps (fun q : τ × σ => P q.2) x) :
    Keeps P (focus get put x) := by
  refine keeps_of_wp fun s hs => ?_
  rw [wp_focus]
  intro a _
  exact wp_mono (hx.wp_of_keeps (I := fun q : τ × σ => P q.2) (s := (a, s)) hs)
    (fun _ q hq => hput q.1 q.2 hq) (fun _ q hq => hput q.1 q.2 hq)

end Imperative.Prog
