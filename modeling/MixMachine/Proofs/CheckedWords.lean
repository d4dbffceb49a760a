import Mathlib.Algebra.Group.Nat.Defs
import MixMachine.Proofs.EffectiveAddress
import MixMachine.Proofs.Encoding
import MixMachine.Proofs.Fields

/-!
# Words in integers of fixed width

The machine is described with numbers of any size. Here the functions on words are written once
more as a program in integers of 8, 32 and 64 bits has them, each operation with the check that
such a program makes or leaves out: a result that its type does not hold, a shift by the width
of the type, a conversion that loses bits, a division by zero, a byte of a word that is none of
the five, a part of a run that is not in it, and a copy between runs of different lengths are
all a `Panic`.

No such function panics, and each has the result of the function that it is the program of. The
equations have no hypothesis but that a field is valid.

* `Checked.extract_eq`, `Checked.insert_eq`: a field is read and written by masks and shifts.
* `Checked.decode_eq`: a word is decoded with opcodes counted from the first of their row.
-/

namespace MixMachine.Checked

/-- Why a program in integers of fixed width stops. -/
inductive Panic where
  /-- A result that its type does not hold. -/
  | overflow
  /-- A shift by as many bits as the type has, or more. -/
  | shiftAmount
  /-- A conversion that loses bits. -/
  | conversion
  | divisionByZero
  /-- A position at which a word has no byte. -/
  | bytePosition
  /-- A part of a run that is not within it. -/
  | range
  /-- A copy from a run of one length into a run of another. -/
  | lengths
  deriving DecidableEq

end Checked

/-- A result of a program in integers of fixed width. -/
abbrev Checked := Except Checked.Panic

namespace Checked

variable {α β : Type}

/-- The result `a`, or a panic unless `p` holds. -/
def ensure (p : Prop) [Decidable p] (panic : Panic) (a : α) : Checked α :=
  if p then .ok a else .error panic

theorem ensure_ok {p : Prop} [Decidable p] {panic : Panic} {a : α} (h : p) :
    ensure p panic a = .ok a := if_pos h

/-- A result is handed on. -/
theorem ok_bind {ε : Type} (a : α) (f : α → Except ε β) : Except.ok a >>= f = f a := rfl

theorem pure_eq (a : α) : (pure a : Checked α) = .ok a := rfl

/-! ## Unsigned integers

A type is given by the number of its values, or by the number of its bits. -/

/-- The number of values of eight bits. -/
abbrev u8 : Nat := 0x100

/-- The number of values of sixteen bits. -/
abbrev u16 : Nat := 0x10000

/-- The number of values of thirty-two bits. -/
abbrev u32 : Nat := 0x100000000

/-- The number of values of sixty-four bits. -/
abbrev u64 : Nat := 0x10000000000000000

section Unsigned

variable {size a b : Nat}

def add (size a b : Nat) : Checked Nat :=
  ensure (a + b < size) .overflow (a + b)

def sub (a b : Nat) : Checked Nat :=
  ensure (b ≤ a) .overflow (a - b)

def mul (size a b : Nat) : Checked Nat :=
  ensure (a * b < size) .overflow (a * b)

def div (a b : Nat) : Checked Nat :=
  ensure (b ≠ 0) .divisionByZero (a / b)

def rem (a b : Nat) : Checked Nat :=
  ensure (b ≠ 0) .divisionByZero (a % b)

/-- The bits of a number moved to the left. Those that leave the type are lost. -/
def shl (bits a amount : Nat) : Checked Nat :=
  ensure (amount < bits) .shiftAmount ((a <<< amount) % 2 ^ bits)

def shr (bits a amount : Nat) : Checked Nat :=
  ensure (amount < bits) .shiftAmount (a >>> amount)

/-- A number as one of a type of so many values. -/
def narrow (size a : Nat) : Checked Nat :=
  ensure (a < size) .conversion a

theorem add_ok (h : a + b < size) : add size a b = .ok (a + b) := ensure_ok h

theorem sub_ok (h : b ≤ a) : sub a b = .ok (a - b) := ensure_ok h

theorem mul_ok (h : a * b < size) : mul size a b = .ok (a * b) := ensure_ok h

theorem div_ok (h : b ≠ 0) : div a b = .ok (a / b) := ensure_ok h

theorem rem_ok (h : b ≠ 0) : rem a b = .ok (a % b) := ensure_ok h

theorem shl_ok {bits : Nat} (h : b < bits) : shl bits a b = .ok ((a <<< b) % 2 ^ bits) :=
  ensure_ok h

/-- A shift that moves no bit out of the type. -/
theorem shl_small {bits : Nat} (h : b < bits) (small : a <<< b < 2 ^ bits) :
    shl bits a b = .ok (a <<< b) := by
  rw [shl_ok h, Nat.mod_eq_of_lt small]

theorem shr_ok {bits : Nat} (h : b < bits) : shr bits a b = .ok (a >>> b) := ensure_ok h

theorem narrow_ok (h : a < size) : narrow size a = .ok a := ensure_ok h

end Unsigned

/-! ## Signed integers of sixty-four bits -/

section Signed

/-- The numbers of sixty-four bits, one of them for the sign. -/
def InI64 (v : Int) : Prop :=
  -0x8000000000000000 ≤ v ∧ v < 0x8000000000000000

instance (v : Int) : Decidable (InI64 v) :=
  inferInstanceAs (Decidable (_ ∧ _))

variable {v w : Int} {n size : Nat}

def addI (v w : Int) : Checked Int :=
  ensure (InI64 (v + w)) .overflow (v + w)

def subI (v w : Int) : Checked Int :=
  ensure (InI64 (v - w)) .overflow (v - w)

def mulI (v w : Int) : Checked Int :=
  ensure (InI64 (v * w)) .overflow (v * w)

/-- An unsigned number as a signed one. -/
def toSigned (n : Nat) : Checked Int :=
  ensure (InI64 n) .conversion n

/-- A signed number as an unsigned one of a type of so many values. -/
def toUnsigned (size : Nat) (v : Int) : Checked Nat :=
  ensure (0 ≤ v ∧ v < size) .conversion v.toNat

theorem addI_ok (h : InI64 (v + w)) : addI v w = .ok (v + w) := ensure_ok h

theorem subI_ok (h : InI64 (v - w)) : subI v w = .ok (v - w) := ensure_ok h

theorem mulI_ok (h : InI64 (v * w)) : mulI v w = .ok (v * w) := ensure_ok h

theorem toSigned_ok (h : InI64 n) : toSigned n = .ok n := ensure_ok h

theorem toUnsigned_ok (h : 0 ≤ v ∧ v < size) : toUnsigned size v = .ok v.toNat := ensure_ok h

end Signed

/-! ## Runs -/

/-- The words of `xs`, copied into a run of `length`. -/
def copy (length : Nat) (xs : List α) : Checked (List α) :=
  ensure (xs.length = length) .lengths xs

theorem copy_ok {length : Nat} {xs : List α} (h : xs.length = length) :
    copy length xs = .ok xs := ensure_ok h

/-! ## Words -/

/-- The number that a word stands for, its magnitude times one with its sign. -/
def value (w : Word) : Checked Int :=
  mulI w.sign.unit w.magnitude

theorem value_eq (w : Word) : value w = .ok w.value := by
  have short := w.magnitude_lt
  have product : w.sign.unit * w.magnitude = w.value := by
    unfold Word.value
    cases w.sign with
    | plus => exact Int.one_mul _
    | minus => exact Int.neg_one_mul _
  unfold value
  rw [mulI_ok, product]
  rw [product]
  have size := w.natAbs_value
  unfold InI64
  omega

/-- The byte at a position of a word. -/
def byte (w : Word) (position : Nat) : Checked Nat := do
  let position ← ensure (1 ≤ position ∧ position ≤ 5) .bytePosition position
  let places ← narrow u32 (← sub 5 position)
  let moved ← shr 32 w.magnitude (← mul u32 places 6)
  narrow u8 (moved &&& 63)

/-- The five bytes of a word. -/
def bytes (w : Word) : Checked (List Nat) :=
  (List.range 5).mapM fun k => do byte w (← add u64 k 1)

/-- A magnitude with one more byte behind it. -/
def push (magnitude b : Nat) : Checked Nat := do
  return (← shl 32 magnitude 6) ||| Word.clampByte b

/-- The word of a sign and five bytes. -/
def ofBytes (sign : Sign) (bytes : List Nat) : Checked Word := do
  return Word.ofSignMagnitude sign (← bytes.foldlM push 0)

theorem placeValue_eq (n : Nat) : Word.placeValue n = 2 ^ (n * 6) := by
  rw [Word.placeValue_eq_pow, Nat.mul_comm, Nat.pow_mul]

theorem byte_eq (w : Word) {position : Nat} (low : 1 ≤ position) (high : position ≤ 5) :
    byte w position = .ok (w.byte position) := by
  have digit : (w.magnitude >>> ((5 - position) * 6)) &&& 63 = w.byte position := by
    rw [Nat.shiftRight_eq_div_pow, ← placeValue_eq]
    exact Nat.and_two_pow_sub_one_eq_mod _ 6
  unfold byte
  rw [ensure_ok ⟨low, high⟩, ok_bind, sub_ok high, ok_bind, narrow_ok (by grind), ok_bind,
    mul_ok (by grind), ok_bind, shr_ok (by omega), ok_bind, digit]
  exact narrow_ok (Nat.lt_trans (w.byte_lt position) (by decide))

theorem bytes_eq (w : Word) : bytes w = .ok w.bytes := by
  have one : ∀ k < 5, (do byte w (← add u64 k 1)) = .ok (w.byte (k + 1)) := by
    intro k below
    rw [add_ok (by grind), ok_bind, byte_eq w (Nat.le_add_left 1 k) below]
  show [0, 1, 2, 3, 4].mapM _ = _
  simp only [List.mapM_cons, List.mapM_nil, one 0 (by decide), one 1 (by decide),
    one 2 (by decide), one 3 (by decide), one 4 (by decide), ok_bind, pure_eq]
  rfl

/-- The bytes of a run go to the right end of a magnitude that has room for them. -/
theorem foldlM_push {magnitude : Nat} {bytes : List Nat}
    (room : (magnitude + 1) * Word.placeValue bytes.length ≤ 0x40000000) :
    bytes.foldlM push magnitude =
      .ok (bytes.foldl (fun m b => 64 * m + Word.clampByte b) magnitude) := by
  induction bytes generalizing magnitude with
  | nil => rfl
  | cons b bytes ih =>
      have small := Word.clampByte_lt b
      have further : (64 * magnitude + Word.clampByte b + 1) * Word.placeValue bytes.length ≤
          0x40000000 := by
        refine Nat.le_trans (Nat.mul_le_mul_right _ (?_ : _ ≤ (magnitude + 1) * 64)) ?_
        · omega
        · rwa [Nat.mul_assoc]
      have front : (magnitude + 1) * 64 ≤ 0x40000000 := by
        refine Nat.le_trans (Nat.le_mul_of_pos_right _ (Word.placeValue_pos bytes.length)) ?_
        rwa [Nat.mul_assoc]
      have moved : magnitude <<< 6 = 64 * magnitude := by
        rw [Nat.shiftLeft_eq, Nat.mul_comm]
      have pushed : push magnitude b = .ok (64 * magnitude + Word.clampByte b) := by
        unfold push
        rw [shl_small (by decide) (by omega), ok_bind, pure_eq, ← moved,
          Nat.shiftLeft_add_eq_or_of_lt small]
      rw [List.foldlM_cons, pushed, ok_bind, List.foldl_cons]
      exact ih further

theorem ofBytes_eq (sign : Sign) {bytes : List Nat} (five : bytes.length = 5) :
    ofBytes sign bytes = .ok (Word.ofBytes sign bytes) := by
  unfold ofBytes
  rw [foldlM_push (by rw [five]; decide), ok_bind]
  rfl

/-! ## Arithmetic -/

/-- The sum in a register that holds magnitudes up to `limit`. -/
def addUpTo (limit : Nat) (a b : Word) : Checked (Word × Bool) := do
  let sum ← addI (← value a) (← value b)
  let kept ← narrow u32 (sum.natAbs &&& limit)
  let sign := if sum = 0 then a.sign else Sign.of sum
  return (Word.ofSignMagnitude sign kept, decide (limit < sum.natAbs))

/-- The two halves of a product. -/
def multiply (a b : Word) : Checked (Word × Word) := do
  let product ← mul u64 a.magnitude b.magnitude
  let high ← narrow u32 (← shr 64 product 30)
  let low ← narrow u32 (product &&& Word.maxMagnitude)
  return (Word.ofSignMagnitude (a.sign * b.sign) high,
    Word.ofSignMagnitude (a.sign * b.sign) low)

/-- The quotient and the remainder of a double word. -/
def divide (high low divisor : Word) : Checked (Option (Word × Word)) := do
  if divisor.isZero then return none
  let dividend := (← shl 64 high.magnitude 30) ||| low.magnitude
  let quotient ← div dividend divisor.magnitude
  if Word.maxMagnitude < quotient then return none
  let remainder ← rem dividend divisor.magnitude
  return some
    (Word.ofSignMagnitude (high.sign * divisor.sign) (← narrow u32 quotient),
      Word.ofSignMagnitude high.sign (← narrow u32 remainder))

/-- The word that stands for a number. -/
def ofInt (v : Int) : Checked (Except WordError Word) := do
  if Word.maxMagnitude < v.natAbs then return .error (.magnitudeOverflow v)
  return .ok (Word.ofSignMagnitude (Sign.of v) (← narrow u32 v.natAbs))

/-- Bytes with the first `count` of them moved behind the others. -/
def rotateLeft (bytes : List Nat) (count : Nat) : Checked (List Nat) :=
  ensure (count ≤ bytes.length) .range (bytes.drop count ++ bytes.take count)

/-- Bytes with the last `count` of them moved in front of the others. -/
def rotateRight (bytes : List Nat) (count : Nat) : Checked (List Nat) :=
  ensure (count ≤ bytes.length) .range
    (bytes.drop (bytes.length - count) ++ bytes.take (bytes.length - count))

/-- Bytes with zeros from `first` up to `stop`, the end excluded. -/
def clear (bytes : List Nat) (first stop : Nat) : Checked (List Nat) :=
  ensure (first ≤ stop ∧ stop ≤ bytes.length) .range
    (bytes.take first ++ List.replicate (stop - first) 0 ++ bytes.drop stop)

/-- Bytes moved by `count` positions, modulo their number. -/
def shiftBytes (direction : Word.Direction) (fill : Word.Fill) (count : Nat)
    (bytes : List Nat) : Checked (List Nat) := do
  if bytes.length = 0 then return bytes
  let count ← rem count bytes.length
  if count = 0 then return bytes
  match direction with
  | .left => do
    let moved ← rotateLeft bytes count
    match fill with
    | .zeros => clear moved (← sub bytes.length count) bytes.length
    | .wrapped => return moved
  | .right => do
    let moved ← rotateRight bytes count
    match fill with
    | .zeros => clear moved 0 count
    | .wrapped => return moved

theorem addUpTo_eq {limit : Nat} (small : limit < u32) (a b : Word) :
    addUpTo limit a b = .ok (Word.addUpTo limit a b) := by
  have shortA := a.magnitude_lt
  have shortB := b.magnitude_lt
  have sizeA := a.natAbs_value
  have sizeB := b.natAbs_value
  unfold addUpTo
  rw [value_eq, ok_bind, value_eq, ok_bind, addI_ok (by unfold InI64; omega), ok_bind,
    narrow_ok (Nat.lt_of_le_of_lt Nat.and_le_right small), ok_bind]
  rfl

theorem multiply_eq (a b : Word) : multiply a b = .ok (Word.multiply a b) := by
  have product : a.magnitude * b.magnitude < 0x1000000000000000 :=
    Nat.mul_lt_mul'' a.magnitude_lt b.magnitude_lt
  have high : (a.magnitude * b.magnitude) >>> 30 = a.magnitude * b.magnitude / 0x40000000 :=
    Nat.shiftRight_eq_div_pow _ 30
  have low : a.magnitude * b.magnitude &&& Word.maxMagnitude =
      a.magnitude * b.magnitude % 0x40000000 := Nat.and_two_pow_sub_one_eq_mod _ 30
  unfold multiply
  rw [mul_ok (Nat.lt_trans product (by decide)), ok_bind, shr_ok (by decide), ok_bind, high,
    low, narrow_ok (by grind), ok_bind, narrow_ok (by grind), ok_bind]
  rfl

theorem divide_eq (high low divisor : Word) :
    divide high low divisor = .ok (Word.divide high low divisor) := by
  have shortHigh := high.magnitude_lt
  have shortLow := low.magnitude_lt
  have shortDivisor := divisor.magnitude_lt
  have front : high.magnitude <<< 30 = 0x40000000 * high.magnitude := by
    rw [Nat.shiftLeft_eq, Nat.mul_comm]
  have dividend : high.magnitude <<< 30 ||| low.magnitude = Word.doubleMagnitude high low := by
    rw [← Nat.shiftLeft_add_eq_or_of_lt shortLow, front]
    rfl
  unfold divide Word.divide
  by_cases zero : divisor.magnitude = 0
  · rw [if_pos (by rw [Word.isZero, zero]; rfl), if_pos (.inl zero)]
    rfl
  · rw [if_neg (by rw [Word.isZero, beq_iff_eq]; exact zero), shl_small (by decide) (by omega),
      ok_bind, dividend]
    dsimp only
    rw [div_ok zero, ok_bind]
    by_cases large : Word.maxMagnitude < Word.doubleMagnitude high low / divisor.magnitude
    · rw [if_pos large, if_pos (.inr large)]
      rfl
    · have rest := Nat.mod_lt (Word.doubleMagnitude high low) (Nat.pos_of_ne_zero zero)
      rw [if_neg large, if_neg (not_or.2 ⟨zero, large⟩), rem_ok zero, ok_bind,
        narrow_ok (Nat.lt_of_le_of_lt (Nat.le_of_not_lt large) (by decide)), ok_bind,
        narrow_ok (by grind), ok_bind]
      rfl

theorem ofInt_eq (v : Int) : ofInt v = .ok (Word.ofInt v) := by
  unfold ofInt Word.ofInt
  by_cases large : Word.maxMagnitude < v.natAbs
  · rw [if_pos large, if_pos large, pure_eq]
  · have limit : Word.maxMagnitude = 0x3FFFFFFF := rfl
    rw [if_neg large, if_neg large, narrow_ok (by grind), ok_bind, pure_eq]

/-- Zeros take the place of the bytes that were moved to the end. -/
theorem clear_back {front back : List Nat} {first stop : Nat} (begins : first = front.length)
    (ends : stop = front.length + back.length) :
    clear (front ++ back) first stop =
      .ok (front ++ List.replicate back.length 0) := by
  unfold clear
  rw [ensure_ok ⟨by omega, by rw [List.length_append]; omega⟩, begins, ends,
    List.take_left, Nat.add_sub_cancel_left, ← List.length_append, List.drop_length,
    List.append_nil]

/-- Zeros take the place of the bytes that were moved to the front. -/
theorem clear_front {front back : List Nat} {stop : Nat} (ends : stop = front.length) :
    clear (front ++ back) 0 stop = .ok (List.replicate front.length 0 ++ back) := by
  unfold clear
  rw [ensure_ok ⟨Nat.zero_le _, by rw [List.length_append]; omega⟩, ends, List.drop_left]
  rfl

theorem shiftBytes_eq (direction : Word.Direction) (fill : Word.Fill) (count : Nat)
    (bytes : List Nat) :
    shiftBytes direction fill count bytes =
      .ok (Word.shiftBytes direction fill count bytes) := by
  by_cases empty : bytes.length = 0
  · have still := (Word.length_shiftBytes direction fill count bytes).trans empty
    unfold shiftBytes
    rw [if_pos empty, pure_eq, List.length_eq_zero_iff.1 still, List.length_eq_zero_iff.1 empty]
  · have below := Nat.mod_lt count (Nat.pos_of_ne_zero empty)
    unfold shiftBytes
    rw [if_neg empty, rem_ok empty, ok_bind]
    by_cases still : count % bytes.length = 0
    · rw [if_pos still]
      unfold Word.shiftBytes
      dsimp only
      rw [still]
      cases direction <;> cases fill <;> simp [pure_eq]
    · rw [if_neg still]
      cases direction with
      | left =>
          unfold rotateLeft Word.shiftBytes
          dsimp only
          rw [ensure_ok (Nat.le_of_lt below), ok_bind]
          cases fill with
          | wrapped => rfl
          | zeros =>
              dsimp only
              rw [sub_ok (Nat.le_of_lt below), ok_bind,
                clear_back List.length_drop.symm (by grind)]
      | right =>
          unfold rotateRight Word.shiftBytes
          dsimp only
          rw [ensure_ok (Nat.le_of_lt below), ok_bind]
          cases fill with
          | wrapped => rfl
          | zeros =>
              dsimp only
              rw [clear_front (by grind)]

/-! ## Fields -/

/-- The first byte of a field. -/
def firstByte (f : Field) : Nat :=
  if f.left = 0 then 1 else f.left

/-- The number of bytes of a field. -/
def width (f : Field) : Checked Nat := do
  if f.right = 0 then return 0
  add u8 (← sub f.right (firstByte f)) 1

/-- The number of bits right of a field. -/
def distance (f : Field) : Checked Nat := do
  mul u32 (← sub 5 f.right) 6

/-- Ones in the bits of a field. -/
def mask (f : Field) : Checked Nat := do
  let bits ← mul u32 (← width f) 6
  if bits = 0 then return 0
  let ones ← narrow u32 (← sub (← shl 64 1 bits) 1)
  shl 32 ones (← distance f)

/-- The field of a word as a word of its own. -/
def extract (f : Field) (w : Word) : Checked Word := do
  let inside := w.magnitude &&& (← mask f)
  let magnitude ← shr 32 inside (← distance f)
  return Word.ofSignMagnitude (if f.includesSign then w.sign else .plus) magnitude

/-- The word `w` with its field replaced by the low bytes of a value. -/
def insert (f : Field) (w v : Word) : Checked Word := do
  let mask ← mask f
  let moved ← shl 32 v.magnitude (← distance f)
  let magnitude := w.magnitude &&& (0xFFFFFFFF ^^^ mask) ||| moved &&& mask
  return Word.ofSignMagnitude (if f.includesSign then v.sign else w.sign) magnitude

section Fields

variable {f : Field}

theorem width_eq (valid : f.Valid) : width f = .ok f.width := by
  obtain ⟨order, last⟩ := valid
  unfold width Field.width firstByte
  by_cases signOnly : f.right = 0
  · rw [if_pos signOnly, if_pos signOnly, pure_eq]
  · rw [if_neg signOnly, if_neg signOnly]
    split
    · rw [sub_ok (by omega), ok_bind, add_ok (by grind)]
      grind
    · rw [sub_ok (by omega), ok_bind, add_ok (by grind)]
      grind

theorem distance_eq (valid : f.Valid) : distance f = .ok ((5 - f.right) * 6) := by
  unfold distance
  rw [sub_ok valid.2, ok_bind, mul_ok (by grind)]

theorem mask_eq (valid : f.Valid) :
    mask f = .ok ((2 ^ (f.width * 6) - 1) <<< ((5 - f.right) * 6)) := by
  have places := Field.places_le valid
  have ones : 2 ^ (f.width * 6) - 1 < 2 ^ (f.width * 6) :=
    Nat.sub_lt (Nat.two_pow_pos _) Nat.one_pos
  have narrowed : 2 ^ (f.width * 6) ≤ 2 ^ 30 := Nat.pow_le_pow_right (by decide) (by omega)
  have inPlace : (2 ^ (f.width * 6) - 1) <<< ((5 - f.right) * 6) < 2 ^ 32 := by
    rw [Nat.shiftLeft_eq]
    calc (2 ^ (f.width * 6) - 1) * 2 ^ ((5 - f.right) * 6)
        < 2 ^ (f.width * 6) * 2 ^ ((5 - f.right) * 6) :=
          Nat.mul_lt_mul_of_pos_right ones (Nat.two_pow_pos _)
      _ = 2 ^ (f.width * 6 + (5 - f.right) * 6) := (Nat.pow_add _ _ _).symm
      _ ≤ 2 ^ 32 := Nat.pow_le_pow_right (by decide) (by omega)
  unfold mask
  rw [width_eq valid, ok_bind, mul_ok (by grind), ok_bind]
  by_cases none : f.width * 6 = 0
  · rw [if_pos none, none, Nat.pow_zero, Nat.sub_self, Nat.zero_shiftLeft, pure_eq]
  · rw [if_neg none, shl_small (by omega) (by rw [Nat.one_shiftLeft]; omega), ok_bind,
      Nat.one_shiftLeft, sub_ok (Nat.one_le_two_pow), ok_bind, narrow_ok (by grind), ok_bind,
      distance_eq valid, ok_bind, shl_small (by omega) inPlace]

theorem extract_eq (valid : f.Valid) (w : Word) : extract f w = .ok (f.extract w) := by
  have read : (w.magnitude &&& (2 ^ (f.width * 6) - 1) <<< ((5 - f.right) * 6)) >>>
      ((5 - f.right) * 6) = w.magnitude / f.weight % f.capacity := by
    rw [Nat.shiftRight_and_distrib, Nat.shiftLeft_shiftRight, Nat.and_two_pow_sub_one_eq_mod,
      Nat.shiftRight_eq_div_pow, ← placeValue_eq, ← placeValue_eq]
    rfl
  unfold extract
  rw [mask_eq valid, ok_bind]
  dsimp only
  rw [distance_eq valid, ok_bind, shr_ok (by omega), ok_bind, read]
  rfl

/-- Bits put in place by a mask are digits put in place by their weights: `s` bits are kept
below, `k` are new, and the rest is kept above. -/
theorem masked_eq {s k d v : Nat} (places : s + k ≤ 30) (short : d < 2 ^ 30) :
    d &&& (0xFFFFFFFF ^^^ (2 ^ k - 1) <<< s) |||
        (v <<< s % 2 ^ 32) &&& (2 ^ k - 1) <<< s =
      2 ^ s * (2 ^ k * (d / (2 ^ s * 2 ^ k)) + v % 2 ^ k) + d % 2 ^ s := by
  apply Nat.eq_of_testBit_eq
  intro i
  have all : Nat.testBit 0xFFFFFFFF i = decide (i < 32) := Nat.testBit_two_pow_sub_one 32 i
  have high : 30 ≤ i → d.testBit i = false := fun above =>
    Nat.testBit_lt_two_pow (Nat.lt_of_lt_of_le short (Nat.pow_le_pow_right (by decide) above))
  rw [Nat.testBit_two_pow_mul_add _ (Nat.mod_lt _ (Nat.two_pow_pos s)),
    Nat.testBit_two_pow_mul_add _ (Nat.mod_lt _ (Nat.two_pow_pos k)), ← Nat.pow_add]
  simp only [Nat.testBit_or, Nat.testBit_and, Nat.testBit_xor, Nat.testBit_mod_two_pow,
    Nat.testBit_shiftLeft, Nat.testBit_two_pow_sub_one, Nat.testBit_div_two_pow, all]
  by_cases below : i < s
  · simp [below, show i < 32 by omega, Nat.not_le.2 below]
  · by_cases inside : i - s < k
    · simp [below, inside, show i < 32 by omega, show s ≤ i by omega]
    · rw [if_neg below, if_neg inside, show i - s - k + (s + k) = i by omega]
      by_cases above : 30 ≤ i
      · simp [high above, inside]
      · simp [inside, show i < 32 by omega]

theorem insert_eq (valid : f.Valid) (w v : Word) : insert f w v = .ok (f.insert w v) := by
  have places := Field.places_le valid
  have weight : f.weight = 2 ^ ((5 - f.right) * 6) := placeValue_eq _
  have capacity : f.capacity = 2 ^ (f.width * 6) := placeValue_eq _
  unfold insert Field.insert
  rw [mask_eq valid, ok_bind, distance_eq valid, ok_bind, shl_ok (by omega), ok_bind, weight,
    capacity]
  dsimp only
  rw [masked_eq (by omega) w.magnitude_lt, pure_eq]

end Fields

/-! ## Decoding -/

/-- The register that the place of an opcode names in the row that starts at `base`. -/
def registerAt (opcode base : Nat) : Checked (Except DecodeError Register) := do
  let offset ← sub opcode base
  match Register.ofOffset? offset with
  | some r => return .ok r
  | none => return .error (.invalidOpcode opcode)

/-- An operation of the row that starts at `base`, of the register that the opcode names and
what the modifier says. -/
def inRow (opcode base : Nat) (make : Register → α → Operation) (said : Except DecodeError α) :
    Checked (Except DecodeError Operation) := do
  let r ← registerAt opcode base
  return make <$> r <*> said

/-- The operation of an opcode and a modifier. -/
def operation (opcode modifier : Nat) : Checked (Except DecodeError Operation) :=
  match opcode / 8 with
  | 1 => inRow opcode Opcode.load .load (Operation.decodeField opcode modifier)
  | 2 => inRow opcode Opcode.loadNegative .loadNegative (Operation.decodeField opcode modifier)
  | 3 => inRow opcode Opcode.store .store (Operation.decodeField opcode modifier)
  | 5 =>
    inRow opcode Opcode.jumpRegister .jumpRegister (Operation.decodeVariant opcode modifier)
  | 6 => inRow opcode Opcode.transfer .transfer (Operation.decodeVariant opcode modifier)
  | 7 => inRow opcode Opcode.compare .compare (Operation.decodeField opcode modifier)
  | _ => return Operation.decode opcode modifier

/-- The instruction that a word holds. -/
def decode (w : Word) : Checked (Except DecodeError Instruction) := do
  let address ← extract .address w
  let index ← byte w 3
  let modifier ← byte w 4
  let opcode ← byte w 5
  if index > 6 then return .error (.invalidIndex index)
  let op ← operation opcode modifier
  return (Instruction.mk address index ·) <$> op

theorem registerAt_eq {opcode base row : Nat} (start : base = 8 * row)
    (place : opcode / 8 = row) :
    registerAt opcode base = .ok (Operation.decodeRegister opcode) := by
  unfold registerAt Operation.decodeRegister
  rw [sub_ok (by omega), ok_bind, show opcode - base = opcode % 8 by omega]
  cases Register.ofOffset? (opcode % 8) <;> rfl

theorem inRow_eq {opcode base row : Nat} (start : base = 8 * row) (place : opcode / 8 = row)
    (make : Register → α → Operation) (said : Except DecodeError α) :
    inRow opcode base make said = .ok (make <$> Operation.decodeRegister opcode <*> said) := by
  unfold inRow
  rw [registerAt_eq start place, ok_bind, pure_eq]

theorem operation_eq (opcode modifier : Nat) :
    operation opcode modifier = .ok (Operation.decode opcode modifier) := by
  unfold operation
  split
  case h_7 => rfl
  all_goals
    rename_i place
    refine (inRow_eq ?_ place _ _).trans ?_
    · rfl
    · unfold Operation.decode
      rw [place]
      rfl

theorem decode_eq (w : Word) : decode w = .ok (Instruction.decode w) := by
  unfold decode Instruction.decode
  rw [extract_eq (by decide), ok_bind, byte_eq w (by decide) (by decide), ok_bind,
    byte_eq w (by decide) (by decide), ok_bind, byte_eq w (by decide) (by decide), ok_bind]
  split
  · rfl
  · rw [operation_eq, ok_bind, pure_eq]

/-! ## Codes -/

/-- The byte that packs a field. -/
def toByte (f : Field) : Checked Nat := do
  add u8 (← mul u8 8 f.left) f.right

/-- The code of an operation of the row that starts at `base`. J has none. -/
def codeInRow (base : Nat) (r : Register) (modifier : Nat) : Checked (Option (Nat × Nat)) := do
  match r.offset? with
  | none => return none
  | some k => return some (← add u8 base k, modifier)

/-- The opcode and the modifier of an operation. -/
def code? : Operation → Checked (Option (Nat × Nat))
  | .nop => return some (0, 0)
  | .arithmetic kind f => do return some (1 + Variants.number kind, ← toByte f)
  | .halt => return some (Opcode.special, haltModifier)
  | .shift kind => return some (Opcode.shift, Variants.number kind)
  | .move count => return some (Opcode.move, count)
  | .load r f => do codeInRow Opcode.load r (← toByte f)
  | .loadNegative r f => do codeInRow Opcode.loadNegative r (← toByte f)
  | .store r f => do
    if r = .j then return some (Opcode.storeJump, ← toByte f)
    codeInRow Opcode.store r (← toByte f)
  | .storeZero f => do return some (Opcode.storeZero, ← toByte f)
  | .device op unit => do return some (← add u8 Opcode.device (Variants.number op), unit)
  | .jump condition => return some (Opcode.jump, Variants.number condition)
  | .jumpRegister r test => codeInRow Opcode.jumpRegister r (Variants.number test)
  | .transfer r kind => codeInRow Opcode.transfer r (Variants.number kind)
  | .compare r f => do codeInRow Opcode.compare r (← toByte f)

theorem toByte_eq {f : Field} (valid : f.Valid) : toByte f = .ok f.toByte := by
  obtain ⟨order, last⟩ := valid
  unfold toByte
  rw [mul_ok (by grind), ok_bind, add_ok (by grind)]
  rfl

theorem codeInRow_eq {base : Nat} (row : base < 0x80) (r : Register) (modifier : Nat) :
    codeInRow base r modifier = .ok (r.offset?.map fun k => (base + k, modifier)) := by
  unfold codeInRow
  cases place : r.offset? with
  | none => rfl
  | some k =>
      have below := Register.offset?_lt place
      dsimp only
      rw [add_ok (by grind), ok_bind]
      rfl

theorem code?_eq {op : Operation} (valid : ∀ f ∈ op.field?, f.Valid) :
    code? op = .ok op.code? := by
  unfold code? Operation.code?
  cases op with
  | arithmetic kind f =>
      dsimp only
      rw [toByte_eq (valid f rfl), ok_bind, pure_eq]
  | load r f =>
      dsimp only
      rw [toByte_eq (valid f rfl), ok_bind, codeInRow_eq (by decide)]
  | loadNegative r f =>
      dsimp only
      rw [toByte_eq (valid f rfl), ok_bind, codeInRow_eq (by decide)]
  | store r f =>
      dsimp only
      rw [toByte_eq (valid f rfl), ok_bind, ok_bind, codeInRow_eq (by decide)]
      cases r <;> rfl
  | storeZero f =>
      dsimp only
      rw [toByte_eq (valid f rfl), ok_bind, pure_eq]
  | device op unit => cases op <;> rfl
  | jumpRegister r test => exact codeInRow_eq (by decide) r _
  | transfer r kind => exact codeInRow_eq (by decide) r _
  | compare r f =>
      dsimp only
      rw [toByte_eq (valid f rfl), ok_bind, codeInRow_eq (by decide)]
  | _ => rfl

end Checked

end MixMachine
