import FreshCity.Padding

/-!
# The hash is the standard's

Each function of the code is compared with the one of the standard that it is
written after. The chain of blocks then computes the hash value of the standard,
as long as the number of blocks does not wrap.
-/
namespace FreshCity.Sha256

/-! ## Functions on words -/

theorem rotr_eq (x : Word) {n : ℕ} (hn : n < 32) : rotr x n = x.rotateRight n := by
  rw [rotr, shr, BitVec.rotateRight_def, Nat.mod_eq_of_lt hn]

@[simp] theorem ch_eq (x y z : Word) : ch x y z = SecureHash.Ch x y z := rfl

@[simp] theorem maj_eq (x y z : Word) : maj x y z = SecureHash.Maj x y z := by
  rw [maj, SecureHash.Maj, BitVec.and_comm z x, BitVec.xor_assoc, BitVec.xor_comm (y &&& z),
    BitVec.xor_assoc]

@[simp] theorem fn0_eq (x : Word) : fn0 x = SecureHash.bigSigma0 x := by
  simp only [fn0, SecureHash.bigSigma0, rotr_eq x (by decide : 2 < 32),
    rotr_eq x (by decide : 13 < 32), rotr_eq x (by decide : 22 < 32)]

@[simp] theorem fn1_eq (x : Word) : fn1 x = SecureHash.bigSigma1 x := by
  simp only [fn1, SecureHash.bigSigma1, rotr_eq x (by decide : 6 < 32),
    rotr_eq x (by decide : 11 < 32), rotr_eq x (by decide : 25 < 32)]

@[simp] theorem sigma0_eq (x : Word) : sigma0 x = SecureHash.smallSigma0 x := by
  simp only [sigma0, SecureHash.smallSigma0, rotr_eq x (by decide : 7 < 32),
    rotr_eq x (by decide : 18 < 32), shr]

@[simp] theorem sigma1_eq (x : Word) : sigma1 x = SecureHash.smallSigma1 x := by
  simp only [sigma1, SecureHash.smallSigma1, rotr_eq x (by decide : 17 < 32),
    rotr_eq x (by decide : 19 < 32), shr]

/-! ## Constants -/

/-- The table holds the cube roots of the first primes. -/
theorem K_eq {t : ℕ} (ht : t < 64) : K.getD t 0 = SecureHash.K t := by
  have hroots : ∀ t < 64, K.getD t 0 =
      BitVec.ofNat 32 (Nat.nthRoot 3 (SecureHash.firstPrimes.getD t 0 * 2 ^ 96)) := by
    decide +kernel
  rw [SecureHash.K, SecureHash.nth_prime_eq ht, hroots t ht]

/-- The words as the working variables of the standard. -/
def Hash.toState (H : Hash) : SecureHash.State := ⟨H.w0, H.w1, H.w2, H.w3, H.w4, H.w5, H.w6, H.w7⟩

theorem toState_initial : initial.toState = SecureHash.initial := by
  have hroots : ∀ t < 8, SecureHash.H0 t =
      BitVec.ofNat 32 (Nat.sqrt (SecureHash.firstPrimes.getD t 0 * 2 ^ 64)) := by
    intro t ht
    rw [SecureHash.H0, SecureHash.nth_prime_eq (by omega)]
  rw [SecureHash.initial, hroots 0 (by decide), hroots 1 (by decide), hroots 2 (by decide),
    hroots 3 (by decide), hroots 4 (by decide), hroots 5 (by decide), hroots 6 (by decide),
    hroots 7 (by decide)]
  decide +kernel

/-! ## Rounds -/

/-- A block as the function from positions to words. -/
def wordAt (blk : List Word) (t : ℕ) : Word := blk.getD t 0

/-- The words computed so far are those of the recurrence. -/
theorem foldl_scheduleNext {blk : List Word} (hblk : blk.length = 16) (k : ℕ) :
    (List.range' 16 k).foldl scheduleNext (blk.take 16) =
      (List.range (16 + k)).map (SecureHash.W (wordAt blk)) := by
  induction k with
  | zero =>
    refine List.ext_getElem (by simp [hblk]) fun t ht _ => ?_
    have hlt : t < 16 := by simpa [hblk] using ht
    simp [SecureHash.W, hlt, wordAt, List.getD_eq_getElem?_getD,
      List.getElem?_eq_getElem (hblk ▸ hlt : t < blk.length)]
  | succ k ih =>
    have hget : ∀ t < 16 + k, ((List.range (16 + k)).map (SecureHash.W (wordAt blk))).getD t 0 =
        SecureHash.W (wordAt blk) t := by
      intro t ht
      simp [List.getD_eq_getElem?_getD, ht]
    rw [List.range'_1_concat, List.foldl_append, ih, List.foldl_cons, List.foldl_nil,
      scheduleNext, hget _ (by omega), hget _ (by omega), hget _ (by omega), hget _ (by omega),
      ← Nat.add_assoc, List.range_succ, List.map_append, List.map_singleton,
      SecureHash.W.eq_def _ (16 + k), if_neg (by omega), sigma0_eq, sigma1_eq]

theorem schedule_getD {blk : List Word} (hblk : blk.length = 16) {t : ℕ} (ht : t < 64) :
    (schedule blk).getD t 0 = SecureHash.W (wordAt blk) t := by
  rw [schedule, foldl_scheduleNext hblk]
  simp [List.getD_eq_getElem?_getD, ht]

theorem toState_round {W : List Word} {schedule : ℕ → Word} (work : Hash) {t : ℕ} (ht : t < 64)
    (hW : W.getD t 0 = schedule t) :
    (round W work t).toState = SecureHash.round schedule work.toState t := by
  simp only [round, SecureHash.round, Hash.toState, K_eq ht, hW, ch_eq, maj_eq, fn0_eq, fn1_eq]

theorem toState_rounds {W : List Word} {schedule : ℕ → Word}
    (hW : ∀ t < 64, W.getD t 0 = schedule t) (work : Hash) (k : ℕ) (hk : k ≤ 64) :
    ((List.range k).foldl (round W) work).toState =
      (List.range k).foldl (SecureHash.round schedule) work.toState := by
  induction k with
  | zero => rfl
  | succ k ih =>
    rw [List.range_succ, List.foldl_append, List.foldl_append, ← ih (by omega)]
    exact toState_round _ (by omega) (hW k (by omega))

/-- One block goes through the rounds of the standard. -/
theorem toState_compress (H : Hash) {blk : List Word} (hblk : blk.length = 16) :
    (compress H blk).toState = SecureHash.compress H.toState (wordAt blk) := by
  have hrounds := toState_rounds (fun t ht => schedule_getD hblk ht) H 64 le_rfl
  rw [SecureHash.compress, ← hrounds]
  rfl

/-! ## Blocks -/

theorem shiftLeft_or_byte (n : ℕ) (b : UInt8) :
    BitVec.ofNat 32 n <<< 8 ||| BitVec.ofNat 32 b.toNat = BitVec.ofNat 32 (n * 256 + b.toNat) := by
  have hb : b.toNat < 2 ^ 8 := b.toNat_lt
  have hhigh : (n % 2 ^ 32) <<< 8 % 2 ^ 32 = (n % 2 ^ 24) <<< 8 := by
    rw [Nat.shiftLeft_eq, Nat.shiftLeft_eq]
    omega
  apply BitVec.eq_of_toNat_eq
  rw [BitVec.toNat_or, BitVec.toNat_shiftLeft, BitVec.toNat_ofNat, BitVec.toNat_ofNat,
    BitVec.toNat_ofNat, hhigh, Nat.mod_eq_of_lt (by omega : b.toNat < 2 ^ 32),
    ← Nat.shiftLeft_add_eq_or_of_lt hb, Nat.shiftLeft_eq]
  omega

/-- Four bytes make a word. -/
theorem makeblockLoop_word {i : ℕ} (hi : i % 4 = 0) (ind : ℕ) (ret : List Word) (a b c d : UInt8)
    (p : Text) :
    makeblockLoop i { ind := ind, ret := ret } (a :: b :: c :: d :: p) =
      makeblockLoop (i + 4)
        { ind := ind + 1, ret := ret.set ind (BitVec.ofNat 32 (SecureHash.ofBytes [a, b, c, d])) }
        p := by
  have h0 : ¬ i % 4 = 3 := by omega
  have h1 : ¬ (i + 1) % 4 = 3 := by omega
  have h2 : ¬ (i + 2) % 4 = 3 := by omega
  have h3 : (i + 3) % 4 = 3 := by omega
  have hword : ((((0 : Word) <<< 8 ||| BitVec.ofNat 32 a.toNat) <<< 8 ||| BitVec.ofNat 32 b.toNat) <<< 8 |||
      BitVec.ofNat 32 c.toNat) <<< 8 ||| BitVec.ofNat 32 d.toNat =
        BitVec.ofNat 32 (SecureHash.ofBytes [a, b, c, d]) := by
    rw [show (0 : Word) = BitVec.ofNat 32 0 from rfl, shiftLeft_or_byte, shiftLeft_or_byte,
      shiftLeft_or_byte, shiftLeft_or_byte]
    rfl
  simp only [makeblockLoop, MakeBlock.next, if_neg h0, if_neg h1, if_neg h2, if_pos h3, hword]

/-- The loop stores the words of the standard one after the other. -/
theorem makeblockLoop_eq {i : ℕ} (hi : i % 4 = 0) (ind : ℕ) (ret : List Word) (p : Text)
    (hp : 4 ∣ p.length) (hlen : ind + p.length / 4 ≤ ret.length) :
    makeblockLoop i { ind := ind, ret := ret } p =
      ret.take ind ++ SecureHash.words p ++ ret.drop (ind + p.length / 4) := by
  fun_induction SecureHash.words p generalizing i ind ret with
  | case1 a b c d p ih =>
    have hcount : (a :: b :: c :: d :: p).length / 4 = p.length / 4 + 1 := by
      simp only [List.length_cons]
      omega
    have hind : ind < ret.length := by omega
    have htake : (ret.set ind (BitVec.ofNat 32 (SecureHash.ofBytes [a, b, c, d]))).take (ind + 1) =
        ret.take ind ++ [BitVec.ofNat 32 (SecureHash.ofBytes [a, b, c, d])] := by
      rw [List.take_add_one, List.take_set_of_le le_rfl, List.getElem?_set_self hind]
      rfl
    rw [makeblockLoop_word hi, ih (by omega) _ _ (by simpa using hp) (by simp; omega), htake,
      List.drop_set_of_lt (by omega), hcount]
    simp [Nat.add_assoc, Nat.add_comm 1]
  | case2 p h =>
    have hnil : p = [] := by
      rcases p with _ | ⟨a, _ | ⟨b, _ | ⟨c, _ | ⟨d, p⟩⟩⟩⟩
      · rfl
      · simp at hp
      · simp at hp
      · simp at hp
      · exact absurd rfl (h a b c d p)
    subst hnil
    simp [makeblockLoop]

/-- A block of 64 bytes is stored as the words that the standard parses. -/
theorem makeblock_eq {p : Text} (hp : p.length = 64) :
    makeblock emptyBlock p = SecureHash.words p := by
  rw [makeblock, makeblockLoop_eq rfl 0 emptyBlock p (by omega) (by rw [hp]; decide), hp]
  simp [emptyBlock]

/-- The blocks that are written hold what is made of their part of the text, the others stay. -/
theorem splitLoop_eq (text : Text) (is : List ℕ) (blks : List (List Word)) (his : is.Nodup)
    (hlt : ∀ i ∈ is, i < blks.length) :
    ∃ out, splitLoop text is blks = some out ∧ ∀ i, out[i]? =
      if i ∈ is then blks[i]?.map fun blk => makeblock blk ((text.drop (64 * i)).take 64)
      else blks[i]? := by
  induction is generalizing blks with
  | nil => exact ⟨blks, rfl, fun i => by simp⟩
  | cons j is ih =>
    obtain ⟨hj, his⟩ := List.nodup_cons.mp his
    have hjlt : j < blks.length := hlt j (by simp)
    obtain ⟨out, hout, hget⟩ := ih
      (blks.set j (makeblock blks[j] ((text.drop (64 * j)).take 64))) his
      (fun i hi => by rw [List.length_set]; exact hlt i (by simp [hi]))
    refine ⟨out, by simpa [splitLoop, List.getElem?_eq_getElem hjlt] using hout, fun i => ?_⟩
    rw [hget i]
    by_cases hij : i = j
    · subst hij
      simp [hj, hjlt]
    · simp [hij, List.getElem?_set_ne (Ne.symm hij)]

/-- The text is split into the blocks that the standard parses. -/
theorem split_eq {text : Text} {N : ℕ} (hlen : text.length = 64 * N) :
    split (List.replicate N emptyBlock) text =
      some ((List.range N).map fun i => SecureHash.words ((text.drop (64 * i)).take 64)) := by
  have hcount : (text.length + 63) / 64 = N := by omega
  obtain ⟨out, hout, hget⟩ := splitLoop_eq text (List.range N) (List.replicate N emptyBlock)
    List.nodup_range (by simp)
  rw [split, hcount, hout]
  congr 1
  apply List.ext_getElem?
  intro i
  rw [hget i]
  by_cases hi : i < N
  · have hblk : ((text.drop (64 * i)).take 64).length = 64 := by simp; omega
    simp [hi, makeblock_eq hblk]
  · simp [hi]

/-- A block has the words that the standard finds at its place. -/
theorem wordAt_block (text : Text) (i : ℕ) :
    ∀ t < 16, wordAt (SecureHash.words ((text.drop (64 * i)).take 64)) t =
      SecureHash.blockWord text i t := by
  intro t ht
  rw [show 64 * i = 4 * (16 * i) by omega, show 64 = 4 * 16 from rfl, SecureHash.words_take,
    SecureHash.words_drop, wordAt, SecureHash.blockWord]
  simp [List.getD_eq_getElem?_getD, ht]

/-! ## The chain -/

theorem toState_chain {text : Text} {N : ℕ} (hlen : text.length = 64 * N) (H : Hash)
    (is : List ℕ) (his : ∀ i ∈ is, i < N) :
    ((is.map fun i => SecureHash.words ((text.drop (64 * i)).take 64)).foldl compress H).toState =
      is.foldl (fun H i => SecureHash.compress H (SecureHash.blockWord text i)) H.toState := by
  induction is generalizing H with
  | nil => rfl
  | cons i is ih =>
    have hi : i < N := his i (by simp)
    have hblk : (SecureHash.words ((text.drop (64 * i)).take 64)).length = 16 := by
      rw [SecureHash.length_words]
      simp
      omega
    rw [List.map_cons, List.foldl_cons, ih _ (fun j hj => his j (by simp [hj])), List.foldl_cons,
      toState_compress H hblk, SecureHash.compress_congr (wordAt_block text i)]

/-- As long as the number of blocks does not wrap, the words are those of the standard. -/
theorem hash_eq_sha256 {msg : Text} (hfits : Fits msg) (hbits : 8 * msg.length + 512 < 2 ^ 32) :
    (hash msg).map Hash.toState = some (SecureHash.sha256 msg) := by
  have h : 8 * msg.length < 2 ^ 32 := by omega
  have hlen := length_pad_of_fits hfits
  have hblocks : numBlk msg = msg.length / 64 + 1 := by
    rw [numBlk_eq h hfits]
    omega
  rw [hash, hblocks, padded_eq_pad h hfits, split_eq hlen, Option.map_some, Option.map_some,
    toState_chain hlen initial _ (fun i hi => List.mem_range.mp hi), toState_initial,
    SecureHash.sha256, hlen, Nat.mul_div_cancel_left _ (by omega)]

/-- Where it wraps, no block is left to write to. -/
theorem hash_eq_none {msg : Text} (h : 8 * msg.length < 2 ^ 32) (hfits : Fits msg)
    (hbits : 2 ^ 32 ≤ 8 * msg.length + 512) : hash msg = none := by
  have hblocks : numBlk msg = 0 := by
    simp only [Fits] at hfits
    rw [numBlk_eq h hfits]
    omega
  have hnone : ¬ (split (List.replicate (numBlk msg) emptyBlock) (padded msg)).isSome := by
    rw [isSome_split_iff, hblocks, padded_eq_pad h hfits, length_pad_of_fits hfits]
    simp
  rw [hash, Option.not_isSome_iff_eq_none.mp hnone, Option.map_none]

/-- For a message whose length fits in its last block, the loop leaves the hash value of the
standard exactly if the padded message has less than 2^32 bits. -/
theorem hash_standard_iff (msg : Text) (hfits : msg.length % 64 ≤ 55)
    (h : 8 * msg.length < 2 ^ 32) :
    (hash msg).map Hash.toState = some (SecureHash.sha256 msg) ↔
      8 * msg.length + 512 < 2 ^ 32 := by
  constructor
  · intro heq
    by_contra hbits
    rw [hash_eq_none h hfits (by omega), Option.map_none] at heq
    exact absurd heq (by simp)
  · exact hash_eq_sha256 hfits

theorem hash_standard_password :
    (hash (salt1 ++ ascii "password" ++ salt2)).map Hash.toState =
      some (SecureHash.sha256 (salt1 ++ ascii "password" ++ salt2)) := by
  have hlen : (salt1 ++ ascii "password" ++ salt2).length = 136 := by
    rw [List.length_append, List.length_append]
    decide
  exact (hash_standard_iff _ (by rw [hlen]; decide) (by rw [hlen]; decide)).mpr
    (by rw [hlen]; decide)

/-- With one byte more than 2^29 - 65, the padded message has 2^32 bits and no hash value. -/
theorem hash_wraps :
    (List.replicate (2 ^ 29 - 64) (0 : UInt8)).length % 64 ≤ 55 ∧
      8 * (List.replicate (2 ^ 29 - 64) (0 : UInt8)).length < 2 ^ 32 ∧
      (hash (List.replicate (2 ^ 29 - 64) 0)).map Hash.toState ≠
        some (SecureHash.sha256 (List.replicate (2 ^ 29 - 64) 0)) := by
  have hlen : (List.replicate (2 ^ 29 - 64) (0 : UInt8)).length = 2 ^ 29 - 64 :=
    List.length_replicate
  have hfits : (List.replicate (2 ^ 29 - 64) (0 : UInt8)).length % 64 ≤ 55 := by omega
  have hbits : 8 * (List.replicate (2 ^ 29 - 64) (0 : UInt8)).length < 2 ^ 32 := by omega
  refine ⟨hfits, hbits, ?_⟩
  rw [Ne, hash_standard_iff _ hfits hbits]
  omega

end FreshCity.Sha256
