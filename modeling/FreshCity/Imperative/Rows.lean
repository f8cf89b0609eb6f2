import Mathlib.Data.Nat.Digits.Lemmas
import Mathlib.Tactic

/-!
# Rows of a text, and numbers written with digits

A list of rows is written one row after the other, each with a separator behind it. Whoever reads it
cuts the text at the separators, and may stop at an element that ends a text. A number is written
with as many digits as there is room for, the most significant one first.
-/
namespace Imperative.Rows

/-! ## Rows -/

section Rows
variable {α : Type} {sep stop : α}

/-- The rows, one after the other. -/
def render (sep : α) (rows : List (List α)) : List α := rows.flatMap fun r => r ++ [sep]

theorem render_cons {r : List α} {rows : List (List α)} :
    render sep (r :: rows) = r ++ sep :: render sep rows := by simp [render]

variable [BEq α] [LawfulBEq α]

/-- The rows of a text that ends before `stop`. -/
def read (sep stop : α) (text : List α) : List (List α) :=
  (text.takeWhile fun a => !(a == stop)).splitOn sep

/-- The first row is read up to the first separator. -/
theorem read_append {r text : List α} (hsep : sep ∉ r) (hstop : stop ∉ r) (hne : sep ≠ stop) :
    read sep stop (r ++ sep :: text) = r :: read sep stop text := by
  have hplain : ∀ a ∈ r, (!(a == stop)) = true := by
    intro a ha
    have hne : a ≠ stop := by
      rintro rfl
      exact hstop ha
    simpa using hne
  have hrest : (sep :: text).takeWhile (fun a => !(a == stop)) =
      sep :: text.takeWhile fun a => !(a == stop) := List.takeWhile_cons_of_pos (by simpa using hne)
  rw [read, List.takeWhile_append_of_pos hplain, hrest]
  exact List.splitOn_append_cons_self_of_not_mem hsep _

/-- A row is read back, whatever the rows behind it hold. -/
theorem read_render {rows : List (List α)} {k : ℕ} {r : List α} (hr : rows[k]? = some r)
    (hsep : ∀ r ∈ rows.take (k + 1), sep ∉ r) (hstop : ∀ r ∈ rows.take (k + 1), stop ∉ r)
    (hne : sep ≠ stop) : (read sep stop (render sep rows))[k]? = some r := by
  induction rows generalizing k with
  | nil => simp at hr
  | cons first rows ih =>
    rw [List.take_succ_cons, List.forall_mem_cons] at hsep hstop
    rw [render_cons, read_append hsep.1 hstop.1 hne]
    cases k with
    | zero => exact hr
    | succ k => exact ih hr hsep.2 hstop.2

end Rows

/-! ## Digits -/

/-- The value of digits, the most significant one first. -/
def value (b : ℕ) (ds : List ℕ) : ℕ := ds.foldl (fun n d => b * n + d) 0

theorem value_append {b : ℕ} {ds : List ℕ} {d : ℕ} : value b (ds ++ [d]) = b * value b ds + d := by
  simp [value]

theorem value_reverse {b : ℕ} {ds : List ℕ} : value b ds.reverse = Nat.ofDigits b ds := by
  induction ds with
  | nil => rfl
  | cons d ds ih => rw [List.reverse_cons, value_append, ih, Nat.ofDigits_cons, add_comm]

/-- The last `k` digits of a number. -/
def lastDigits (b k n : ℕ) : List ℕ := (List.range k).map fun i => n / b ^ (k - 1 - i) % b

theorem lastDigits_succ {b k n : ℕ} : lastDigits b (k + 1) n = lastDigits b k (n / b) ++ [n % b] := by
  have hshift : ∀ i ∈ List.range k, n / b ^ (k - i) % b = n / b / b ^ (k - 1 - i) % b := by
    intro i hi
    have hexp : k - i = k - 1 - i + 1 := by
      have hlt : i < k := List.mem_range.mp hi
      omega
    rw [hexp, pow_succ', Nat.div_div_eq_div_mul]
  rw [lastDigits, List.range_succ, List.map_append]
  simp only [Nat.add_sub_cancel, List.map_cons, List.map_nil, Nat.sub_self, pow_zero, Nat.div_one]
  rw [List.map_congr_left hshift]
  rfl

/-- The digits say the number, as far as there is room for it. -/
theorem value_lastDigits {b k n : ℕ} : value b (lastDigits b k n) = n % b ^ k := by
  induction k generalizing n with
  | zero => simp [lastDigits, value, Nat.mod_one]
  | succ k ih => rw [lastDigits_succ, value_append, ih, pow_succ', Nat.mod_mul, add_comm]

theorem lt_of_mem_lastDigits {b k n d : ℕ} (hb : 0 < b) (h : d ∈ lastDigits b k n) : d < b := by
  obtain ⟨i, -, rfl⟩ := List.mem_map.mp h
  exact Nat.mod_lt _ hb

/-- What is written element by element is read back element by element. -/
theorem mapM_map_of_inverse {α β : Type} {write : α → β} {read : β → Option α} {l : List α}
    (h : ∀ a ∈ l, read (write a) = some a) : (l.map write).mapM read = some l := by
  induction l with
  | nil => rfl
  | cons a l ih =>
    rw [List.forall_mem_cons] at h
    simp [List.mapM_cons, h.1, ih h.2]

/-- What is written stands at the place of what it was written for. -/
theorem getElem?_of_mapM {α β : Type} {f : α → Option β} {l : List α} {l' : List β} {k : ℕ} {b : β}
    (h : l.mapM f = some l') (hb : l'[k]? = some b) : ∃ a, l[k]? = some a ∧ f a = some b := by
  induction l generalizing l' k with
  | nil =>
    obtain rfl : [] = l' := by simpa using h
    simp at hb
  | cons a l ih =>
    simp only [List.mapM_cons, Option.pure_def, Option.bind_eq_bind, Option.bind_eq_some_iff] at h
    obtain ⟨b', hb', rest, hrest, heq⟩ := h
    obtain rfl := Option.some.inj heq
    cases k with
    | zero =>
      obtain rfl : b' = b := by simpa using hb
      exact ⟨a, rfl, hb'⟩
    | succ k => exact ih hrest hb

end Imperative.Rows
