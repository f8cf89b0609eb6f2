import FreshCity.Sha256
import Mathlib.Data.Nat.Digits.Lemmas

/-!
# The text of a digest

A word is printed with as many digits as it needs, so a digest is faithful
exactly when each of its words fills its eight digits.
-/
namespace FreshCity.Sha256

/-! ## Digits -/

/-- The digits of `fromDecimal` for base sixteen. -/
def hexDigits : Text := ascii "0123456789ABCDEF"

/-- The number that a digit stands for. -/
def digitValue (c : UInt8) : ℕ := (ascii "0123456789ABCDEFGHIJKLMNOPQRSTUVWXYZ").idxOf c

theorem digitValue_digitChar : ∀ d < 36, digitValue (digitChar d) = d := by decide

theorem digitChar_mem_hexDigits : ∀ d < 16, digitChar d ∈ hexDigits := by decide

/-! ## Numbers -/

/-- The loop prints the digits from the least significant one on, each before the last. -/
theorem fromDecimalLoop_eq {b : ℕ} (hb : 1 < b) (fuel n : ℕ) (hn : n < b ^ fuel) (result : Text) :
    fromDecimalLoop b fuel n result = ((Nat.digits b n).map digitChar).reverse ++ result := by
  induction fuel generalizing n result with
  | zero =>
    obtain rfl : n = 0 := by simpa using hn
    simp [fromDecimalLoop]
  | succ fuel ih =>
    rcases Nat.eq_zero_or_pos n with rfl | hpos
    · simp [fromDecimalLoop]
    have hdiv : n / b < b ^ fuel := by
      rw [Nat.div_lt_iff_lt_mul (by omega)]
      rwa [pow_succ] at hn
    rw [fromDecimalLoop, if_pos hpos, ih _ hdiv, Nat.digits_def' hb hpos]
    simp

theorem fromDecimal_eq (n : Word) {b : ℕ} (hb : 1 < b) :
    fromDecimal n b = ((Nat.digits b n.toNat).map digitChar).reverse := by
  have hn : n.toNat < b ^ 32 := lt_of_lt_of_le n.isLt (Nat.pow_le_pow_left hb 32)
  rw [fromDecimal, fromDecimalLoop_eq hb 32 n.toNat hn, List.append_nil]

/-- The number that a text printed by `fromDecimal` stands for. -/
def toDecimal (text : Text) (b : ℕ) : ℕ := Nat.ofDigits b (text.reverse.map digitValue)

/-- A number is read back from its print. -/
theorem toDecimal_fromDecimal (n : Word) {b : ℕ} (hb : 1 < b) (hb' : b ≤ 36) :
    toDecimal (fromDecimal n b) b = n.toNat := by
  have hvalues : ((Nat.digits b n.toNat).map digitChar).map digitValue = Nat.digits b n.toNat := by
    have hread : ∀ d ∈ Nat.digits b n.toNat, (digitValue ∘ digitChar) d = id d := by
      intro d hd
      have hlt : d < b := Nat.digits_lt_base hb hd
      exact digitValue_digitChar d (by omega)
    rw [List.map_map, List.map_congr_left hread, List.map_id]
  rw [fromDecimal_eq n hb, toDecimal, List.reverse_reverse, hvalues, Nat.ofDigits_digits]

theorem fromDecimal_injective {b : ℕ} (hb : 1 < b) (hb' : b ≤ 36) :
    Function.Injective fun n => fromDecimal n b := by
  intro n m h
  have hread : toDecimal (fromDecimal n b) b = toDecimal (fromDecimal m b) b := by
    rw [show fromDecimal n b = fromDecimal m b from h]
  rw [toDecimal_fromDecimal n hb hb', toDecimal_fromDecimal m hb hb'] at hread
  exact BitVec.eq_of_toNat_eq hread

theorem fromDecimal_hex (n : Word) : ∀ c ∈ fromDecimal n 16, c ∈ hexDigits := by
  intro c hc
  rw [fromDecimal_eq n (by omega), List.mem_reverse, List.mem_map] at hc
  obtain ⟨d, hd, rfl⟩ := hc
  exact digitChar_mem_hexDigits d (Nat.digits_lt_base (by omega) hd)

theorem length_fromDecimal_le (n : Word) : (fromDecimal n 16).length ≤ 8 := by
  rw [fromDecimal_eq n (by omega), List.length_reverse, List.length_map,
    Nat.digits_length_le_iff (by omega)]
  exact n.isLt

/-- A word has eight digits exactly if it is large enough. -/
theorem length_fromDecimal_iff (n : Word) : (fromDecimal n 16).length = 8 ↔ 2 ^ 28 ≤ n.toNat := by
  have hle := length_fromDecimal_le n
  have hlt : 7 < (fromDecimal n 16).length ↔ 2 ^ 28 ≤ n.toNat := by
    rw [fromDecimal_eq n (by omega), List.length_reverse, List.length_map,
      Nat.lt_digits_length_iff (by omega)]
    norm_num
  omega

/-! ## Texts of a fixed width -/

/-- Texts of one width can be told apart in a concatenation. -/
theorem flatMap_injective_of_width {α β : Type} {f : α → List β} (hf : Function.Injective f)
    {width : ℕ} {xs ys : List α} (hlen : xs.length = ys.length)
    (hxs : ∀ x ∈ xs, (f x).length = width) (hys : ∀ y ∈ ys, (f y).length = width)
    (h : xs.flatMap f = ys.flatMap f) : xs = ys := by
  induction xs generalizing ys with
  | nil => exact (List.length_eq_zero_iff.mp hlen.symm).symm
  | cons x xs ih =>
    obtain ⟨y, ys, rfl⟩ := List.exists_cons_of_length_pos (by rw [← hlen]; simp : 0 < ys.length)
    rw [List.flatMap_cons, List.flatMap_cons] at h
    have hwidth : (f x).length = (f y).length := by rw [hxs x (by simp), hys y (by simp)]
    obtain ⟨hhead, htail⟩ := List.append_inj h hwidth
    have hrest := ih (by simpa using hlen) (fun a ha => hxs a (by simp [ha]))
      (fun a ha => hys a (by simp [ha])) htail
    rw [hf hhead, hrest]

/-- A concatenation of texts of at most a width has the full length only if each text has. -/
theorem length_flatMap_eq_iff {α β : Type} {f : α → List β} {width : ℕ} (xs : List α)
    (hle : ∀ x ∈ xs, (f x).length ≤ width) :
    (xs.flatMap f).length = xs.length * width ↔ ∀ x ∈ xs, (f x).length = width := by
  induction xs with
  | nil => simp
  | cons x xs ih =>
    have hxs : ∀ y ∈ xs, (f y).length ≤ width := fun y hy => hle y (by simp [hy])
    have hx := hle x (by simp)
    have hbound : (xs.flatMap f).length ≤ xs.length * width := by
      rw [List.length_flatMap]
      simpa using List.sum_le_card_nsmul (xs.map fun y => (f y).length) width (by simpa using hxs)
    rw [List.flatMap_cons, List.length_append, List.length_cons, List.forall_mem_cons, ← ih hxs,
      Nat.succ_mul]
    omega

/-! ## Digests -/

/-- The words of a state, in the order in which they are printed. -/
def Hash.words (H : Hash) : List Word := [H.w0, H.w1, H.w2, H.w3, H.w4, H.w5, H.w6, H.w7]

theorem Hash.words_injective : Function.Injective Hash.words := by
  rintro ⟨_, _, _, _, _, _, _, _⟩ ⟨_, _, _, _, _, _, _, _⟩ h
  simpa [Hash.words] using h

@[simp] theorem Hash.length_words (H : Hash) : H.words.length = 8 := rfl

theorem print_eq (H : Hash) : print H = H.words.flatMap fun w => fromDecimal w 16 := rfl

/-- Every word of the state needs all eight of its digits. -/
def Hash.Wide (H : Hash) : Prop := ∀ w ∈ H.words, 2 ^ 28 ≤ w.toNat

theorem length_print_iff (H : Hash) : (print H).length = 64 ↔ H.Wide := by
  rw [print_eq, show 64 = H.words.length * 8 from rfl,
    length_flatMap_eq_iff H.words fun w _ => length_fromDecimal_le w]
  simp only [Hash.Wide, length_fromDecimal_iff]

theorem print_hex (H : Hash) : ∀ c ∈ print H, c ∈ hexDigits := by
  intro c hc
  obtain ⟨w, -, hw⟩ := List.mem_flatMap.mp hc
  exact fromDecimal_hex w c hw

/-- Wide states are told apart by their prints. -/
theorem print_inj_of_wide {H H' : Hash} (hH : H.Wide) (hH' : H'.Wide)
    (h : print H = print H') : H = H' := by
  apply Hash.words_injective
  refine flatMap_injective_of_width (fromDecimal_injective (b := 16) (by omega) (by omega)) rfl
    (fun w hw => (length_fromDecimal_iff w).mpr (hH w hw))
    (fun w hw => (length_fromDecimal_iff w).mpr (hH' w hw)) h

/-- The texts of two states are digests of full length, equal only if the states are. -/
structure Lossless (H H' : Hash) : Prop where
  length_left : (print H).length = 64
  length_right : (print H').length = 64
  hex_left : ∀ c ∈ print H, c ∈ hexDigits
  hex_right : ∀ c ∈ print H', c ∈ hexDigits
  eq_of_print_eq : print H = print H' → H = H'

/-- Leading zeros are not printed, so a digest keeps its state exactly if no word has one. -/
theorem lossless_iff (H H' : Hash) : Lossless H H' ↔ H.Wide ∧ H'.Wide := by
  constructor
  · intro h
    exact ⟨(length_print_iff H).mp h.length_left, (length_print_iff H').mp h.length_right⟩
  · rintro ⟨hH, hH'⟩
    exact {
      length_left := (length_print_iff H).mpr hH
      length_right := (length_print_iff H').mpr hH'
      hex_left := print_hex H
      hex_right := print_hex H'
      eq_of_print_eq := print_inj_of_wide hH hH' }

/-- A digit moves from one word to the next, and a digest is not told from another. -/
theorem digests_collide :
    print ⟨0x1, 0x11, 0, 0, 0, 0, 0, 0⟩ = print ⟨0x11, 0x1, 0, 0, 0, 0, 0, 0⟩ ∧
      ¬ Lossless ⟨0x1, 0x11, 0, 0, 0, 0, 0, 0⟩ ⟨0x11, 0x1, 0, 0, 0, 0, 0, 0⟩ := by
  have heq : print ⟨0x1, 0x11, 0, 0, 0, 0, 0, 0⟩ = print ⟨0x11, 0x1, 0, 0, 0, 0, 0, 0⟩ := by
    decide
  refine ⟨heq, fun h => ?_⟩
  have hne := h.eq_of_print_eq heq
  revert hne
  decide

end FreshCity.Sha256
