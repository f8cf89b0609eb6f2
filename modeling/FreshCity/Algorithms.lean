import FreshCity.Natives

/-!
# Reading numbers, object ids and positions

The C library's `sscanf` leaves a number as it is when it finds none. An object id
is read from its 24 hexadecimal digits.
-/
namespace FreshCity
open Imperative Prog

/-! ## Reading text -/

def isSpace (b : UInt8) : Bool := b = 32 || (9 ≤ b && b ≤ 13)

def isDigit (b : UInt8) : Bool := 48 ≤ b && b ≤ 57

def digitsValue (ds : Text) : ℕ := ds.foldl (fun n d => 10 * n + (d.toNat - 48)) 0

/-- A sign, if there is one, and what follows it. -/
def readSign : Text → ℤ × Text
  | 45 :: t => (-1, t)
  | 43 :: t => (1, t)
  | t => (1, t)

/-- A number, brought into the range of an `int`. -/
def int32 (x : ℤ) : ℤ := Int.bmod x 4294967296

/-- The number `sscanf(t, "%d", ..)` stores, if it stores one. The C library counts the digits up
in 32 bits, so that a number too large for an `int` wraps around. -/
def scanInt (t : Text) : Option ℤ :=
  let (sign, t) := readSign (t.dropWhile isSpace)
  let ds := t.takeWhile isDigit
  if ds.isEmpty then none else some (int32 (sign * digitsValue ds))

/-- `(int)` of a floating point number. -/
def truncate (q : ℚ) : ℤ := Int.tdiv q.num q.den

/-- The name and the rest of a command line:
`sscanf(cmdtext, "%s%*[ ]%[^\0]", cmdname, cmdline)` and `&cmdname[1]`. Both buffers
hold 128 bytes; a longer text is written past their ends. -/
def scanCommand (platform : Platform) (cmdtext : Text) : Option (Text × Text) :=
  let t := cmdtext.dropWhile isSpace
  let cmdname := t.takeWhile fun b => !isSpace b
  let rest := t.dropWhile fun b => !isSpace b
  let cmdline := if rest.head? = some 32 then rest.dropWhile (· = 32) else []
  if cmdname.length < 128 ∧ cmdline.length < 128 then
    some (platform.toLower (cmdname.drop 1), cmdline)
  else none

def hexValue (b : UInt8) : Option ℕ :=
  if 48 ≤ b && b ≤ 57 then some (b.toNat - 48)
  else if 97 ≤ b && b ≤ 102 then some (b.toNat - 87)
  else if 65 ≤ b && b ≤ 70 then some (b.toNat - 55)
  else none

/-- `mongo::OID(std::string)`. Anything but 24 hexadecimal digits fails an assertion. -/
def OID.ofText (t : Text) : Option OID :=
  if t.length ≠ 24 then none
  else (t.mapM hexValue).map fun ds => ⟨BitVec.ofNat 96 (ds.foldl (fun n d => 16 * n + d) 0)⟩

/-- `OID::str`. -/
def OID.str (o : OID) : Text :=
  (List.range 24).map fun i =>
    let d := o.data.toNat / 16 ^ (23 - i) % 16
    UInt8.ofNat (if d < 10 then 48 + d else 87 + d)

/-- `std::string(inputtext, n)`: the terminator and the memory after it are read too. -/
def Env.stringOf (env : Env) (inputtext : Text) (n : ℕ) : Text :=
  inputtext.take n ++ (List.range (n - inputtext.length)).map fun i =>
    if i = 0 then 0 else env.beyond i

/-! ## Documents -/

/-- `elem.Number()` as an `int`. -/
def readInt (v : Option (Bson Field)) : Option ℤ := (v.bind Bson.asNumber).map truncate

/-- The value at an index of an array. Reading past its end is not checked. -/
abbrev elementAt {σ : Type} (es : List (Bson Field)) (i : ℕ) : Prog σ Exn (Bson Field) :=
  orUndefined es[i]?

/-- A value of the asked type, or the client's `UserException`. -/
abbrev check {σ α : Type} (v : Option α) : Prog σ Exn α := orRaise .userException v

/-- `try x catch(mongo::UserException)`, throwing another text. -/
def rethrowAs {σ α : Type} (text : ErrorText) (x : Prog σ Exn α) : Prog σ Exn α :=
  handle x fun e => if e = .userException then raise (.runtimeError text) else raise e

/-! ## Positions -/

def angleToRadian (angle : ℚ) : ℚ := angle / 180 * (314 / 100)

/-- The point `GenerateDirectionalPoint` computes from a facing angle and a position. -/
def directionalPoint (platform : Platform) (angle : ℚ) (pos : Coordinate3D) (distance : ℚ) :
    Option Coordinate3D :=
  let sin a := platform.sin (angleToRadian a) * distance
  let cos a := platform.cos (angleToRadian a) * distance
  if angle > 0 ∧ angle < 90 then
    some { pos with x := pos.x - sin angle, y := pos.y + cos angle }
  else if angle > 90 ∧ angle < 180 then
    some { pos with x := pos.x - cos (angle - 90), y := pos.y - sin (angle - 90) }
  else if angle > 180 ∧ angle < 270 then
    some { pos with x := pos.x + sin (angle - 180), y := pos.y - cos (angle - 180) }
  else if angle > 270 ∧ angle < 360 then
    some { pos with x := pos.x + cos (angle - 270), y := pos.y + sin (angle - 270) }
  else if angle = 0 then some { pos with y := pos.y + distance }
  else if angle = 90 then some { pos with x := pos.x - distance }
  else if angle = 180 then some { pos with y := pos.y - distance }
  else if angle = 270 then some { pos with x := pos.x + distance }
  else none

def generateDirectionalPoint (p : ℤ) (distance : ℚ) : Game Coordinate3D := do
  let point ← gets fun s =>
    directionalPoint s.platform (s.env.facing p) (s.env.pos p) distance
  orRaise (.runtimeError .incorrectFacingAngle) point

/-! ## Footprints -/

section Footprints
variable {K : List Kind}

instance {p : ℤ} {d : ℚ} : Stays K (generateDirectionalPoint p d) := within_bind

instance within_rethrowAs {σ κ α : Type} {change : κ → σ → σ → Prop} {K : List κ}
    {text : ErrorText} {x : Prog σ Exn α} [Within change K x] :
    Within change K (rethrowAs text x) := within_handle

end Footprints
end FreshCity
