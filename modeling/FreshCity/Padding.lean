import FreshCity.SecureHash
import FreshCity.Sha256

/-!
# Padding in 32 bits

The code rounds and subtracts lengths in unsigned 32-bit words. Its padding is the
one of the standard exactly if the last block has room for the end mark and the
length, and the number of bits after padding fits in a word.
-/
namespace FreshCity.Sha256

variable {msg : Text}

/-! ## Lengths -/

theorem toNat_size (h : 8 * msg.length < 2 ^ 32) : (size msg).toNat = msg.length := by
  rw [size, BitVec.toNat_ofNat]
  omega

/-- The number of bits of the message. -/
theorem toNat_size_mul (h : 8 * msg.length < 2 ^ 32) :
    (size msg * 8).toNat = 8 * msg.length := by
  have hsize := toNat_size h
  rw [BitVec.toNat_mul, hsize, show (8 : Word).toNat = 8 from rfl]
  omega

theorem toNat_curLen (h : 8 * msg.length < 2 ^ 32) :
    (curLen msg).toNat = (8 * msg.length + 8) % 2 ^ 32 := by
  rw [curLen, BitVec.toNat_add, toNat_size_mul h, show (8 : Word).toNat = 8 from rfl]

theorem toNat_reqdLen (h : 8 * msg.length < 2 ^ 32) :
    (reqdLen msg).toNat = (8 * msg.length / 512 + 1) * 512 % 2 ^ 32 := by
  rw [reqdLen, BitVec.toNat_mul, BitVec.toNat_add, BitVec.toNat_udiv, toNat_size_mul h,
    show (512 : Word).toNat = 512 from rfl, show (1 : Word).toNat = 1 from rfl]
  omega

theorem toNat_padLen (h : 8 * msg.length < 2 ^ 32) :
    (padLen msg).toNat =
      ((8 * msg.length / 512 + 1) * 512 + 2 ^ 33 - (8 * msg.length + 8) - 64) % 2 ^ 32 := by
  rw [padLen, BitVec.toNat_sub, BitVec.toNat_sub, toNat_curLen h, toNat_reqdLen h,
    show (64 : Word).toNat = 64 from rfl]
  omega

/-! ## The padded message -/

/-- The end mark and the length fit in the last block of the message. -/
def Fits (msg : Text) : Prop := msg.length % 64 ≤ 55

/-- The difference is right even where the lengths it is taken of have wrapped. -/
theorem padLen_eq_zeros (h : 8 * msg.length < 2 ^ 32) (hfits : Fits msg) :
    (padLen msg / 8).toNat = SecureHash.zeros msg.length := by
  rw [BitVec.toNat_udiv, toNat_padLen h, show (8 : Word).toNat = 8 from rfl, SecureHash.zeros]
  simp only [Fits] at hfits
  omega

theorem mynum_eq (x : Word) : mynum x = SecureHash.toBytes 8 x.toNat := by
  have hlow : bigEndian x = SecureHash.toBytes 4 x.toNat := by
    simp [bigEndian, SecureHash.toBytes, Nat.div_div_eq_div_mul]
  rw [mynum, hlow, show (8 : ℕ) = 4 + 4 from rfl, SecureHash.toBytes_of_lt 4 4 x.toNat x.isLt]
  rfl

theorem padded_eq_pad (h : 8 * msg.length < 2 ^ 32) (hfits : Fits msg) :
    padded msg = SecureHash.pad msg := by
  rw [padded, padLen_eq_zeros h hfits, mynum_eq, toNat_size_mul h, SecureHash.pad]

/-- The padded message ends with the block that the message ends in. -/
theorem length_pad_of_fits (hfits : Fits msg) :
    (SecureHash.pad msg).length = 64 * (msg.length / 64 + 1) := by
  rw [SecureHash.length_pad, SecureHash.zeros]
  simp only [Fits] at hfits
  omega

/-- The number of bits after padding must fit in a word, or no block is left. -/
theorem numBlk_eq (h : 8 * msg.length < 2 ^ 32) (hfits : Fits msg) :
    numBlk msg = (msg.length / 64 + 1) % 2 ^ 23 := by
  have hlen := length_pad_of_fits hfits
  rw [numBlk, BitVec.toNat_udiv, BitVec.toNat_mul, size, BitVec.toNat_ofNat,
    padded_eq_pad h hfits, hlen, show (8 : Word).toNat = 8 from rfl,
    show (512 : Word).toNat = 512 from rfl]
  omega

/-! ## Writing the blocks -/

/-- Blocks are written exactly if each index is one of a block. -/
theorem isSome_splitLoop_iff (text : Text) (is : List ℕ) (blks : List (List Word)) :
    (splitLoop text is blks).isSome ↔ ∀ i ∈ is, i < blks.length := by
  induction is generalizing blks with
  | nil => simp [splitLoop]
  | cons i is ih =>
    rw [List.forall_mem_cons]
    cases hblk : blks[i]? with
    | none =>
      have hle : blks.length ≤ i := List.getElem?_eq_none_iff.mp hblk
      simp [splitLoop, Nat.not_lt.mpr hle]
    | some blk =>
      have hlt : i < blks.length := (List.getElem?_eq_some_iff.mp hblk).1
      simp [splitLoop, ih, hlt]

theorem isSome_split_iff (text : Text) (blks : List (List Word)) :
    (split blks text).isSome ↔ text.length ≤ 64 * blks.length := by
  rw [split, isSome_splitLoop_iff]
  constructor
  · intro h
    by_contra hlt
    have hlast := h blks.length (List.mem_range.mpr (by omega))
    omega
  · intro h i hi
    have hlt := List.mem_range.mp hi
    omega

/-! ## The padding -/

/-- The computation keeps to the numbers it is meant to compute: no length wraps, the padded
message is the one of the standard, and every block that is written exists. -/
structure PadsAsStandard (msg : Text) : Prop where
  curLen_eq : (curLen msg).toNat = 8 * msg.length + 8
  reqdLen_eq : (reqdLen msg).toNat = (8 * msg.length / 512 + 1) * 512
  padLen_eq : (curLen msg).toNat + 64 + (padLen msg).toNat = (reqdLen msg).toNat
  padded_eq : padded msg = SecureHash.pad msg
  dvd_length : 64 ∣ (padded msg).length
  numBlk_eq : numBlk msg = (padded msg).length / 64
  split_isSome : (split (List.replicate (numBlk msg) emptyBlock) (padded msg)).isSome

/-- The padding of a message of less than 2^32 bits is the one of the standard exactly if the
last block has room for its length and the padded message has less than 2^32 bits, too. -/
theorem pads_as_standard_iff (msg : Text) (h : 8 * msg.length < 2 ^ 32) :
    PadsAsStandard msg ↔ msg.length % 64 ≤ 55 ∧ 8 * msg.length + 512 < 2 ^ 32 := by
  have hcur := toNat_curLen h
  have hreqd := toNat_reqdLen h
  constructor
  · intro hpads
    have hpad := hpads.padLen_eq
    have hlt := (reqdLen msg).isLt
    rw [hpads.curLen_eq, hpads.reqdLen_eq] at hpad
    rw [hpads.reqdLen_eq] at hlt
    omega
  · rintro ⟨hfits, hbits⟩
    have hpadded := padded_eq_pad h hfits
    have hlen := length_pad_of_fits hfits
    have hblocks : numBlk msg = (padded msg).length / 64 := by
      rw [numBlk_eq h hfits, hpadded, hlen]
      omega
    refine {
      curLen_eq := by rw [hcur]; omega
      reqdLen_eq := by rw [hreqd]; omega
      padLen_eq := ?_
      padded_eq := hpadded
      dvd_length := by rw [hpadded]; exact SecureHash.dvd_length_pad msg
      numBlk_eq := hblocks
      split_isSome := ?_ }
    · rw [hcur, hreqd, toNat_padLen h]
      omega
    · rw [isSome_split_iff, List.length_replicate, hblocks, hpadded, hlen]
      omega

/-- A password of eight characters is padded as in the standard. -/
theorem password_pads_as_standard : PadsAsStandard (salt1 ++ ascii "password" ++ salt2) := by
  have hlen : (salt1 ++ ascii "password" ++ salt2).length = 136 := by
    rw [List.length_append, List.length_append]
    decide
  rw [pads_as_standard_iff _ (by rw [hlen]; decide), hlen]
  decide

/-- A password of 56 characters leaves no room for the length in the last block. -/
theorem pad_len_wraps :
    8 * (salt1 ++ List.replicate 56 97 ++ salt2).length < 2 ^ 32 ∧
      ¬ PadsAsStandard (salt1 ++ List.replicate 56 97 ++ salt2) := by
  have hlen : (salt1 ++ List.replicate 56 97 ++ salt2).length = 184 := by
    rw [List.length_append, List.length_append, List.length_replicate]
    decide
  have hbits : 8 * (salt1 ++ List.replicate 56 97 ++ salt2).length < 2 ^ 32 := by omega
  refine ⟨hbits, ?_⟩
  rw [pads_as_standard_iff _ hbits, hlen]
  decide

end FreshCity.Sha256
