import FreshCity.Types

/-!
# The password digest

The hash is written out over strings and 32-bit words as the code has it. The
code writes blocks through an unchecked index, so a message for which it would
write past the last block has no digest here.
-/
namespace FreshCity.Sha256

abbrev Word : Type := BitVec 32

/-- The round constants `K`. -/
def K : List Word :=
  [0x428a2f98, 0x71374491, 0xb5c0fbcf, 0xe9b5dba5, 0x3956c25b, 0x59f111f1, 0x923f82a4, 0xab1c5ed5,
   0xd807aa98, 0x12835b01, 0x243185be, 0x550c7dc3, 0x72be5d74, 0x80deb1fe, 0x9bdc06a7, 0xc19bf174,
   0xe49b69c1, 0xefbe4786, 0x0fc19dc6, 0x240ca1cc, 0x2de92c6f, 0x4a7484aa, 0x5cb0a9dc, 0x76f988da,
   0x983e5152, 0xa831c66d, 0xb00327c8, 0xbf597fc7, 0xc6e00bf3, 0xd5a79147, 0x06ca6351, 0x14292967,
   0x27b70a85, 0x2e1b2138, 0x4d2c6dfc, 0x53380d13, 0x650a7354, 0x766a0abb, 0x81c2c92e, 0x92722c85,
   0xa2bfe8a1, 0xa81a664b, 0xc24b8b70, 0xc76c51a3, 0xd192e819, 0xd6990624, 0xf40e3585, 0x106aa070,
   0x19a4c116, 0x1e376c08, 0x2748774c, 0x34b0bcb5, 0x391c0cb3, 0x4ed8aa4a, 0x5b9cca4f, 0x682e6ff3,
   0x748f82ee, 0x78a5636f, 0x84c87814, 0x8cc70208, 0x90befffa, 0xa4506ceb, 0xbef9a3f7, 0xc67178f2]

/-- The eight words of `H` and of `work`. -/
structure Hash where
  w0 : Word
  w1 : Word
  w2 : Word
  w3 : Word
  w4 : Word
  w5 : Word
  w6 : Word
  w7 : Word
  deriving DecidableEq

def initial : Hash :=
  ⟨0x6a09e667, 0xbb67ae85, 0x3c6ef372, 0xa54ff53a, 0x510e527f, 0x9b05688c, 0x1f83d9ab, 0x5be0cd19⟩

/-! ## Output -/

/-- A digit of a number, as `fromDecimal` prints it. -/
def digitChar (d : ℕ) : UInt8 := (ascii "0123456789ABCDEFGHIJKLMNOPQRSTUVWXYZ").getD d 0

/-- The loop of `fromDecimal`. A word has at most 32 digits. -/
def fromDecimalLoop (b : ℕ) : ℕ → ℕ → Text → Text
  | 0, _, result => result
  | fuel + 1, n, result =>
    if 0 < n then fromDecimalLoop b fuel (n / b) (digitChar (n % b) :: result) else result

/-- `fromDecimal`, for bases from two on. -/
def fromDecimal (n : Word) (b : ℕ) : Text := fromDecimalLoop b 32 n.toNat []

/-! ## Input -/

/-- The state of the loop of `makeblock`. -/
structure MakeBlock where
  cur : Word := 0
  ind : ℕ := 0
  ret : List Word

def MakeBlock.next (m : MakeBlock) (i : ℕ) (b : UInt8) : MakeBlock :=
  let cur := m.cur <<< 8 ||| BitVec.ofNat 32 b.toNat
  if i % 4 = 3 then { cur := 0, ind := m.ind + 1, ret := m.ret.set m.ind cur }
  else { m with cur := cur }

def makeblockLoop : ℕ → MakeBlock → Text → List Word
  | _, m, [] => m.ret
  | i, m, b :: p => makeblockLoop (i + 1) (m.next i b) p

def makeblock (ret : List Word) (p : Text) : List Word := makeblockLoop 0 { ret := ret } p

/-- The default constructor of `Block`. -/
def emptyBlock : List Word := List.replicate 16 0

/-- `split`: block `i` is made from the bytes from `64 * i` on. Writing past the last
block leaves the defined behaviour of the language. -/
def splitLoop (msg : Text) : List ℕ → List (List Word) → Option (List (List Word))
  | [], blks => some blks
  | i :: is, blks =>
    match blks[i]? with
    | none => none
    | some blk => splitLoop msg is (blks.set i (makeblock blk ((msg.drop (64 * i)).take 64)))

def split (blks : List (List Word)) (msg : Text) : Option (List (List Word)) :=
  splitLoop msg (List.range ((msg.length + 63) / 64)) blks

/-- The bytes of a word, most significant first. -/
def bigEndian (x : Word) : Text :=
  [3, 2, 1, 0].map fun i => UInt8.ofNat ((x.toNat / 256 ^ i) % 256)

def mynum (x : Word) : Text := [0, 0, 0, 0] ++ bigEndian x

/-! ## The rounds -/

def shr (x : Word) (n : ℕ) : Word := x >>> n

def rotr (x : Word) (n : ℕ) : Word := shr x n ||| x <<< (32 - n)

def ch (x y z : Word) : Word := (x &&& y) ^^^ (~~~x &&& z)

def maj (x y z : Word) : Word := (x &&& y) ^^^ (y &&& z) ^^^ (z &&& x)

def fn0 (x : Word) : Word := rotr x 2 ^^^ rotr x 13 ^^^ rotr x 22

def fn1 (x : Word) : Word := rotr x 6 ^^^ rotr x 11 ^^^ rotr x 25

def sigma0 (x : Word) : Word := rotr x 7 ^^^ rotr x 18 ^^^ shr x 3

def sigma1 (x : Word) : Word := rotr x 17 ^^^ rotr x 19 ^^^ shr x 10

/-- One more word of the schedule `W`. -/
def scheduleNext (W : List Word) (t : ℕ) : List Word :=
  W ++ [sigma1 (W.getD (t - 2) 0) + W.getD (t - 7) 0 + sigma0 (W.getD (t - 15) 0) +
    W.getD (t - 16) 0]

def schedule (blk : List Word) : List Word := (List.range' 16 48).foldl scheduleNext (blk.take 16)

def round (W : List Word) (work : Hash) (t : ℕ) : Hash :=
  let t1 := work.w7 + fn1 work.w4 + ch work.w4 work.w5 work.w6 + K.getD t 0 + W.getD t 0
  let t2 := fn0 work.w0 + maj work.w0 work.w1 work.w2
  ⟨t1 + t2, work.w0, work.w1, work.w2, work.w3 + t1, work.w4, work.w5, work.w6⟩

/-- The body of the loop over the blocks. -/
def compress (H : Hash) (blk : List Word) : Hash :=
  let work := (List.range 64).foldl (round (schedule blk)) H
  ⟨work.w0 + H.w0, work.w1 + H.w1, work.w2 + H.w2, work.w3 + H.w3,
   work.w4 + H.w4, work.w5 + H.w5, work.w6 + H.w6, work.w7 + H.w7⟩

/-! ## The digest -/

/-- `msg.size()`; a `size_t` has 32 bits. -/
def size (msg : Text) : Word := BitVec.ofNat 32 msg.length

def curLen (msg : Text) : Word := size msg * 8 + 8

def reqdLen (msg : Text) : Word := (size msg * 8 / 512 + 1) * 512

def padLen (msg : Text) : Word := reqdLen msg - curLen msg - 64

def padded (msg : Text) : Text :=
  msg ++ [0x80] ++ List.replicate (padLen msg / 8).toNat 0 ++ mynum (size msg * 8)

def numBlk (msg : Text) : ℕ := (size (padded msg) * 8 / 512).toNat

/-- The words left in `H`. -/
def hash (msg : Text) : Option Hash :=
  (split (List.replicate (numBlk msg) emptyBlock) (padded msg)).map fun M => M.foldl compress initial

def print (H : Hash) : Text :=
  [H.w0, H.w1, H.w2, H.w3, H.w4, H.w5, H.w6, H.w7].flatMap fun w => fromDecimal w 16

def sha256 (msg : Text) : Option Text := (hash msg).map print

end FreshCity.Sha256

namespace FreshCity

def salt1 : Text := ascii "Y5Nz.MM;K?xtQkd80V@l?p*RF)I8mH.6n>o`,;`Rlh!3c.?#FZdWMuFPOvnQi#Da"

def salt2 : Text := ascii "~MDf|JN3?/0w%WHWYcK@/ZDv4ci/vF|UIZi# ^?J*k0oh0`Dy8X.].Tagm!#^0Wu"

/-- `GetPasswordDigest`. -/
def getPasswordDigest (source : Text) : Option Text := Sha256.sha256 (salt1 ++ source ++ salt2)

end FreshCity
