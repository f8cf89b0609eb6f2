import Mathlib.Analysis.SpecialFunctions.Pow.NthRootLemmas
import Mathlib.NumberTheory.PrimeCounting
import Mathlib.Tactic.IntervalCases
import Mathlib.Tactic.NormNum.Prime

/-!
# The Secure Hash Standard

SHA-256 as the standard defines it: padding, parsing into words, the message
schedule as a recurrence, the rounds and the chaining of the blocks. The
constants are the fractional parts of the square and cube roots of the first
primes.
-/
namespace SecureHash

abbrev Word : Type := BitVec 32

/-! ## Functions on words -/

def Ch (x y z : Word) : Word := (x &&& y) ^^^ (~~~x &&& z)

def Maj (x y z : Word) : Word := (x &&& y) ^^^ (x &&& z) ^^^ (y &&& z)

/-- The capital sigmas of the rounds. -/
def bigSigma0 (x : Word) : Word := x.rotateRight 2 ^^^ x.rotateRight 13 ^^^ x.rotateRight 22

def bigSigma1 (x : Word) : Word := x.rotateRight 6 ^^^ x.rotateRight 11 ^^^ x.rotateRight 25

/-- The small sigmas of the schedule. -/
def smallSigma0 (x : Word) : Word := x.rotateRight 7 ^^^ x.rotateRight 18 ^^^ x >>> 3

def smallSigma1 (x : Word) : Word := x.rotateRight 17 ^^^ x.rotateRight 19 ^^^ x >>> 10

/-! ## Constants -/

/-- The first 32 bits of the fractional part of the cube root of the prime at `t`. -/
noncomputable def K (t : ℕ) : Word :=
  BitVec.ofNat 32 (Nat.nthRoot 3 (Nat.nth Nat.Prime t * 2 ^ 96))

/-- The first 32 bits of the fractional part of the square root of the prime at `t`. -/
noncomputable def H0 (t : ℕ) : Word :=
  BitVec.ofNat 32 (Nat.sqrt (Nat.nth Nat.Prime t * 2 ^ 64))

/-- The numbers below a bound with a property are its first ones. -/
theorem filter_range_getElem? (p : ℕ → Prop) [DecidablePred p] (n t : ℕ)
    (ht : t < ((List.range n).filter p).length) :
    ((List.range n).filter p)[t]? = some (Nat.nth p t) := by
  induction n with
  | zero => simp at ht
  | succ n ih =>
    have hcount : ((List.range n).filter p).length = Nat.count p n := by
      rw [Nat.count, List.countP_eq_length_filter]
    rw [List.range_succ, List.filter_append] at ht ⊢
    by_cases hlt : t < ((List.range n).filter p).length
    · rw [List.getElem?_append_left hlt, ih hlt]
    by_cases hp : p n
    · have heq : t = Nat.count p n := by simp [hp] at ht; omega
      rw [List.getElem?_append_right (by omega), heq, Nat.nth_count hp]
      simp [hp, hcount]
    · simp [hp] at ht
      omega

/-- The first 64 primes. -/
def firstPrimes : List ℕ :=
  [2, 3, 5, 7, 11, 13, 17, 19, 23, 29, 31, 37, 41, 43, 47, 53, 59, 61, 67, 71, 73, 79, 83, 89, 97,
   101, 103, 107, 109, 113, 127, 131, 137, 139, 149, 151, 157, 163, 167, 173, 179, 181, 191, 193,
   197, 199, 211, 223, 227, 229, 233, 239, 241, 251, 257, 263, 269, 271, 277, 281, 283, 293, 307,
   311]

/-- Trial division by the primes below 19 settles the numbers below 361. -/
theorem prime_iff_trial {n : ℕ} (hn : n < 361) :
    n.Prime ↔ 2 ≤ n ∧ ∀ p ∈ [2, 3, 5, 7, 11, 13, 17], p ∣ n → p = n := by
  constructor
  · intro h
    refine ⟨h.two_le, fun p hp hdvd => (h.eq_one_or_self_of_dvd p hdvd).resolve_left ?_⟩
    rintro rfl
    simp at hp
  · rintro ⟨htwo, h⟩
    by_contra hcomp
    have hsq := Nat.minFac_sq_le_self (by omega : 0 < n) hcomp
    have hlt : n.minFac < 19 := by nlinarith
    have hprime : n.minFac.Prime := Nat.minFac_prime (by omega)
    have hmem : n.minFac ∈ [2, 3, 5, 7, 11, 13, 17] := by
      revert hprime
      interval_cases n.minFac <;> norm_num
    have hself := h n.minFac hmem n.minFac_dvd
    exact hcomp (hself ▸ hprime)

theorem filter_prime_eq : (List.range 312).filter Nat.Prime = firstPrimes := by
  have htrial : (List.range 312).filter
      (fun n => 2 ≤ n ∧ ∀ p ∈ [2, 3, 5, 7, 11, 13, 17], p ∣ n → p = n) = firstPrimes := by
    decide +kernel
  rw [← htrial]
  refine List.filter_congr fun n hn => ?_
  have hlt := List.mem_range.mp hn
  exact decide_eq_decide.mpr (prime_iff_trial (by omega))

theorem nth_prime_eq {t : ℕ} (ht : t < 64) : Nat.nth Nat.Prime t = firstPrimes.getD t 0 := by
  have hnth := filter_range_getElem? Nat.Prime 312 t (by rw [filter_prime_eq]; exact ht)
  rw [filter_prime_eq] at hnth
  rw [List.getD_eq_getElem?_getD, hnth, Option.getD_some]

/-! ## Padding -/

/-- The bytes of a number, most significant first. -/
def toBytes : ℕ → ℕ → List UInt8
  | 0, _ => []
  | width + 1, n => toBytes width (n / 256) ++ [UInt8.ofNat (n % 256)]

/-- The number with the given bytes, most significant first. -/
def ofBytes (bytes : List UInt8) : ℕ := bytes.foldl (fun n b => n * 256 + b.toNat) 0

@[simp] theorem length_toBytes (width n : ℕ) : (toBytes width n).length = width := by
  induction width generalizing n with
  | zero => rfl
  | succ width ih => rw [toBytes, List.length_append, ih]; rfl

theorem toBytes_zero (width : ℕ) : toBytes width 0 = List.replicate width 0 := by
  induction width with
  | zero => rfl
  | succ width ih => simp [toBytes, ih, List.replicate_succ']

/-- A number that fits in less bytes has leading zeros. -/
theorem toBytes_of_lt (width extra n : ℕ) (hn : n < 256 ^ width) :
    toBytes (extra + width) n = List.replicate extra 0 ++ toBytes width n := by
  induction width generalizing n with
  | zero =>
    obtain rfl : n = 0 := by simpa using hn
    simp [toBytes_zero]
  | succ width ih =>
    have hdiv : n / 256 < 256 ^ width := by
      rw [Nat.div_lt_iff_lt_mul (by omega), ← pow_succ]
      exact hn
    rw [← Nat.add_assoc, toBytes, ih _ hdiv, toBytes, List.append_assoc]

/-- The number of zero bytes between the end mark and the length of a message. -/
def zeros (n : ℕ) : ℕ := (119 - n % 64) % 64

/-- It is the least number that completes the last block. -/
theorem zeros_isLeast (n : ℕ) : IsLeast {k | 64 ∣ n + 1 + k + 8} (zeros n) := by
  constructor
  · simp only [Set.mem_ofPred_eq, zeros]
    omega
  · intro k hk
    simp only [Set.mem_ofPred_eq] at hk
    simp only [zeros]
    omega

/-- The padded message: an end mark, zeros and the number of bits in 64 bits. -/
def pad (message : List UInt8) : List UInt8 :=
  message ++ [0x80] ++ List.replicate (zeros message.length) 0 ++ toBytes 8 (8 * message.length)

theorem length_pad (message : List UInt8) :
    (pad message).length = message.length + 1 + zeros message.length + 8 := by
  simp [pad]
  omega

theorem dvd_length_pad (message : List UInt8) : 64 ∣ (pad message).length := by
  rw [length_pad]
  exact (zeros_isLeast message.length).1

/-! ## Parsing -/

/-- The words of a padded message, four bytes each. -/
def words : List UInt8 → List Word
  | a :: b :: c :: d :: bytes => BitVec.ofNat 32 (ofBytes [a, b, c, d]) :: words bytes
  | _ => []

/-- Word `t` of block `i`. -/
def blockWord (padded : List UInt8) (i t : ℕ) : Word := (words padded).getD (16 * i + t) 0

theorem length_words (bytes : List UInt8) : (words bytes).length = bytes.length / 4 := by
  fun_induction words bytes with
  | case1 a b c d bytes ih => simp [ih]; omega
  | case2 bytes h =>
    match bytes, h with
    | [], _ | [_], _ | [_, _], _ | [_, _, _], _ => simp
    | a :: b :: c :: d :: bytes, h => exact absurd rfl (h a b c d bytes)

theorem words_drop (k : ℕ) (bytes : List UInt8) :
    words (bytes.drop (4 * k)) = (words bytes).drop k := by
  induction k generalizing bytes with
  | zero => simp
  | succ k ih =>
    match bytes with
    | [] | [_] | [_, _] | [_, _, _] => simp [words, Nat.mul_succ]
    | a :: b :: c :: d :: bytes => simp [words, Nat.mul_succ, ih]

theorem words_take (k : ℕ) (bytes : List UInt8) :
    words (bytes.take (4 * k)) = (words bytes).take k := by
  induction k generalizing bytes with
  | zero => simp [words]
  | succ k ih =>
    match bytes with
    | [] | [_] | [_, _] | [_, _, _] => simp [words, Nat.mul_succ]
    | a :: b :: c :: d :: bytes => simp [words, Nat.mul_succ, ih]

/-! ## The hash computation -/

/-- The message schedule of a block. -/
def W (M : ℕ → Word) (t : ℕ) : Word :=
  if t < 16 then M t
  else smallSigma1 (W M (t - 2)) + W M (t - 7) + smallSigma0 (W M (t - 15)) + W M (t - 16)

/-- The schedule is made from the first sixteen words. -/
theorem W_congr {M M' : ℕ → Word} (h : ∀ t < 16, M t = M' t) (t : ℕ) : W M t = W M' t := by
  induction t using Nat.strong_induction_on with
  | _ t ih =>
    rw [W.eq_def M, W.eq_def M']
    by_cases ht : t < 16
    · rw [if_pos ht, if_pos ht, h t ht]
    · rw [if_neg ht, if_neg ht, ih (t - 2) (by omega), ih (t - 7) (by omega),
        ih (t - 15) (by omega), ih (t - 16) (by omega)]

/-- The eight working variables, and the eight words of a hash value. -/
@[ext] structure State where
  a : Word
  b : Word
  c : Word
  d : Word
  e : Word
  f : Word
  g : Word
  h : Word
  deriving DecidableEq

/-- One round. -/
noncomputable def round (schedule : ℕ → Word) (v : State) (t : ℕ) : State :=
  let T1 := v.h + bigSigma1 v.e + Ch v.e v.f v.g + K t + schedule t
  let T2 := bigSigma0 v.a + Maj v.a v.b v.c
  ⟨T1 + T2, v.a, v.b, v.c, v.d + T1, v.e, v.f, v.g⟩

/-- The words of two states, added. -/
def State.add (v w : State) : State :=
  ⟨v.a + w.a, v.b + w.b, v.c + w.c, v.d + w.d, v.e + w.e, v.f + w.f, v.g + w.g, v.h + w.h⟩

/-- The next hash value, from the last one and a block. -/
noncomputable def compress (H : State) (M : ℕ → Word) : State :=
  ((List.range 64).foldl (round (W M)) H).add H

theorem compress_congr {M M' : ℕ → Word} (h : ∀ t < 16, M t = M' t) (H : State) :
    compress H M = compress H M' := by
  rw [compress, compress, funext (W_congr h)]

noncomputable def initial : State := ⟨H0 0, H0 1, H0 2, H0 3, H0 4, H0 5, H0 6, H0 7⟩

/-- The hash value of a message. -/
noncomputable def sha256 (message : List UInt8) : State :=
  (List.range ((pad message).length / 64)).foldl
    (fun H i => compress H (blockWord (pad message) i)) initial

end SecureHash
