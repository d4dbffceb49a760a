import MixMachine.Word.Basic

/-!
# Arithmetic on words

Addition, multiplication, division, comparison and byte shifts of words. The
functions are pure: which register gets a result, and whether an overflow is
noted, is the machine's business.

Numbers are signs and magnitudes, so a result of zero still has a sign. A zero
sum keeps the sign of the first operand, a product of any magnitude has the
product of the signs, and a remainder has the sign of the dividend.
-/

namespace MixMachine.Word

/-- The sum in a register that holds magnitudes up to `limit`, and whether the
exact sum exceeds it. The bits of the sum that `limit` has are kept; the sign is
that of the exact sum, or of `a` when that is zero. -/
def addUpTo (limit : Nat) (a b : Word) : Word × Bool :=
  let sum := a.value + b.value
  let sign := if sum = 0 then a.sign else Sign.of sum
  (ofSignMagnitude sign (sum.natAbs &&& limit), decide (limit < sum.natAbs))

/-- The sum of two words, and whether it exceeds thirty bits. -/
def add (a b : Word) : Word × Bool :=
  addUpTo maxMagnitude a b

/-- The difference of two words, and whether it exceeds thirty bits. -/
def subtract (a b : Word) : Word × Bool :=
  add a b.negate

/-- The two halves of the product, the high one first. Both have the sign of the
product. -/
def multiply (a b : Word) : Word × Word :=
  let product := a.magnitude * b.magnitude
  let sign := a.sign * b.sign
  (ofSignMagnitude sign (product / 0x40000000), ofSignMagnitude sign (product % 0x40000000))

/-- The magnitude of two words taken as one number of sixty bits. -/
def doubleMagnitude (high low : Word) : Nat :=
  0x40000000 * high.magnitude + low.magnitude

/-- The quotient and the remainder of the double word `high`, `low` by a divisor,
or none when the divisor is zero or the quotient exceeds thirty bits. The sign
of the dividend is that of `high`. -/
def divide (high low divisor : Word) : Option (Word × Word) :=
  let dividend := doubleMagnitude high low
  let quotient := dividend / divisor.magnitude
  if divisor.magnitude = 0 ∨ maxMagnitude < quotient then none
  else some
    (ofSignMagnitude (high.sign * divisor.sign) quotient,
      ofSignMagnitude high.sign (dividend % divisor.magnitude))

/-- The order of the numbers that two words stand for. -/
def compare (a b : Word) : Ordering :=
  Ord.compare a.value b.value

/-! ## Shifting bytes -/

/-- Which way bytes move. -/
inductive Direction where
  | left
  | right
  deriving DecidableEq

/-- What comes in at the end that bytes move away from. -/
inductive Fill where
  /-- Zero bytes. -/
  | zeros
  /-- The bytes that leave at the other end, in order. -/
  | wrapped
  deriving DecidableEq

/-- The bytes moved by `count` positions, where `count` is taken modulo their
number. -/
def shiftBytes (direction : Direction) (fill : Fill) (count : Nat) (bytes : List Nat) :
    List Nat :=
  let n := bytes.length
  let c := count % n
  match direction with
  | .left =>
    let leaving := bytes.take c
    bytes.drop c ++ (match fill with
      | .zeros => List.replicate leaving.length 0
      | .wrapped => leaving)
  | .right =>
    let leaving := bytes.drop (n - c)
    (match fill with
      | .zeros => List.replicate leaving.length 0
      | .wrapped => leaving) ++ bytes.take (n - c)

/-- Shifting changes no list's length, the empty list's included. -/
@[simp] theorem length_shiftBytes (d : Direction) (f : Fill) (count : Nat) (bytes : List Nat) :
    (shiftBytes d f count bytes).length = bytes.length := by
  cases d <;> cases f <;> simp [shiftBytes] <;>
    cases bytes <;> simp <;> have := Nat.mod_lt count (Nat.succ_pos ‹List Nat›.length) <;> omega

end MixMachine.Word
