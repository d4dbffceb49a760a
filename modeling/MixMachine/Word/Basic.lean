import MixMachine.Sign
import MixMachine.Text.Quoted
import MixMachine.Text.Decimal

/-!
# Machine words

A word is a sign in front of five bytes of six bits each, so its magnitude has
thirty bits. It is packed into thirty-two bits:

```text
 bit 30   29..24  23..18  17..12  11..6   5..0
 sign     byte 1  byte 2  byte 3  byte 4  byte 5
```

Byte 1 is the most significant. Negative zero is a word of its own: equality of
words is equality of their bits, and numbers are compared through `Word.value`.

Bit 31 stands for nothing. A word is *proper* when it is clear. Building a word
from a sign and a magnitude or from bytes gives a proper word; a word read with
all its bits may be improper, and copying and negating it keep bit 31.
-/

namespace MixMachine

/-- A machine word, packed. -/
structure Word where
  bits : UInt32
  deriving DecidableEq, Inhabited

/-- Why a word could not be built or read. -/
inductive WordError where
  /-- The number has more than thirty bits. -/
  | magnitudeOverflow (value : Int)
  /-- The byte value is above 63. -/
  | invalidByte (value : Nat)
  /-- The word is written with a wrong number of bytes. -/
  | wrongLength (expected got : Nat)
  /-- The text is neither of the two ways to write a word. -/
  | unreadable (text : String)
  /-- A word has no byte at this position. -/
  | positionOutOfRange (position : Nat)
  deriving DecidableEq

namespace WordError

/-- What a user is told. -/
def message : WordError → String
  | magnitudeOverflow value => s!"value {Decimal.integer value} does not fit in a 30-bit magnitude"
  | invalidByte value => s!"byte value {Decimal.natural value} exceeds 63"
  | wrongLength expected got =>
    s!"expected {Decimal.natural expected} bytes, got {Decimal.natural got}"
  | unreadable text => s!"cannot parse word from {Text.quoted text.toList}"
  | positionOutOfRange position =>
    s!"byte position {Decimal.natural position} out of range (1-5)"

end WordError

namespace Word

/-! ## Sign, magnitude and value -/

/-- The largest magnitude, thirty bits of ones. -/
def maxMagnitude : Nat := 0x3FFFFFFF

/-- The sign, bit 30. -/
def sign (w : Word) : Sign :=
  Sign.ofBit (w.bits.toNat / 0x40000000)

/-- The magnitude, the thirty low bits. -/
def magnitude (w : Word) : Nat :=
  w.bits.toNat % 0x40000000

/-- The number a word stands for. Both zeros stand for 0. -/
def value (w : Word) : Int :=
  w.sign.apply w.magnitude

/-- Whether the word is one of the two zeros. -/
def isZero (w : Word) : Bool :=
  w.magnitude == 0

/-- The word with this sign and the thirty low bits of `m`. -/
def ofSignMagnitude (s : Sign) (m : Nat) : Word :=
  ⟨UInt32.ofNat (0x40000000 * s.bit + m % 0x40000000)⟩

/-- Positive zero. -/
def zero : Word := ⟨0⟩

/-- The word with the other sign. Moving bit 30 in or out touches no other bit. -/
def negate (w : Word) : Word :=
  match w.sign with
  | .plus => ⟨UInt32.ofNat (w.bits.toNat + 0x40000000)⟩
  | .minus => ⟨UInt32.ofNat (w.bits.toNat - 0x40000000)⟩

instance : Neg Word := ⟨negate⟩

/-- The word that stands for a number of at most thirty bits. Zero gets a plus
sign. -/
def ofInt (v : Int) : Except WordError Word :=
  if v.natAbs > maxMagnitude then .error (.magnitudeOverflow v)
  else .ok (ofSignMagnitude (Sign.of v) v.natAbs)

/-! ## Raw bits -/

/-- The word with the low 31 bits of `n`, its bit 31 clear. -/
def ofBits (n : Nat) : Word :=
  ⟨UInt32.ofNat (n % 0x80000000)⟩

/-- The word with exactly these 32 bits. -/
def ofRawBits? (n : Nat) : Option Word :=
  if n < 0x100000000 then some ⟨UInt32.ofNat n⟩ else none

/-- A word is proper when bit 31 is clear. -/
def Proper (w : Word) : Prop :=
  w.bits.toNat < 0x80000000

instance (w : Word) : Decidable w.Proper :=
  inferInstanceAs (Decidable (_ < _))

/-- The proper word with the same sign and magnitude. -/
def canonical (w : Word) : Word :=
  ofSignMagnitude w.sign w.magnitude

/-! ## Bytes -/

/-- The largest value of a byte. -/
def byteMax : Nat := 63

/-- What a byte weighs that has `n` bytes to its right: 64 to the power `n`. -/
def placeValue : Nat → Nat
  | 0 => 1
  | n + 1 => 64 * placeValue n

/-- Byte `i` of a word, for `i` from 1, the most significant, to 5. -/
def byte (w : Word) (i : Nat) : Nat :=
  w.magnitude / placeValue (5 - i) % 64

/-- The byte at a position from outside, which may be none of the five. -/
def byteAt (w : Word) (position : Nat) : Except WordError Nat :=
  if 1 ≤ position ∧ position ≤ 5 then .ok (w.byte position)
  else .error (.positionOutOfRange position)

/-- The five bytes, the most significant first. -/
def bytes (w : Word) : List Nat :=
  [w.byte 1, w.byte 2, w.byte 3, w.byte 4, w.byte 5]

/-- A byte value that fits its six bits; one that does not becomes 0. -/
def clampByte (b : Nat) : Nat :=
  if b > byteMax then 0 else b

/-- The magnitude that bytes stand for, the most significant first. -/
def magnitudeOfBytes (bytes : List Nat) : Nat :=
  bytes.foldl (fun m b => 64 * m + clampByte b) 0

/-- The word with this sign and these five bytes. A byte above 63 counts as 0. -/
def ofBytes (s : Sign) (bytes : List Nat) : Word :=
  ofSignMagnitude s (magnitudeOfBytes bytes)

/-! ## Reading back what a word was built from -/

theorem ext_toNat {v w : Word} (h : v.bits.toNat = w.bits.toNat) : v = w := by
  cases v; cases w; exact congrArg mk (UInt32.toNat_inj.1 h)

theorem magnitude_lt (w : Word) : w.magnitude < 0x40000000 :=
  Nat.mod_lt _ (by decide)

theorem toNat_bits_ofSignMagnitude (s : Sign) (m : Nat) :
    (ofSignMagnitude s m).bits.toNat = 0x40000000 * s.bit + m % 0x40000000 := by
  have hs := s.bit_lt_two
  have hm := Nat.mod_lt m (show 0x40000000 > 0 by decide)
  simp only [ofSignMagnitude, UInt32.toNat_ofNat']
  omega

@[simp] theorem magnitude_ofSignMagnitude (s : Sign) (m : Nat) :
    (ofSignMagnitude s m).magnitude = m % 0x40000000 := by
  rw [magnitude, toNat_bits_ofSignMagnitude]; omega

@[simp] theorem sign_ofSignMagnitude (s : Sign) (m : Nat) : (ofSignMagnitude s m).sign = s := by
  have h : (0x40000000 * s.bit + m % 0x40000000) / 0x40000000 = s.bit := by omega
  rw [sign, toNat_bits_ofSignMagnitude, h, Sign.ofBit_bit]

/-- A word built from a sign and a magnitude is proper. -/
theorem proper_ofSignMagnitude (s : Sign) (m : Nat) : (ofSignMagnitude s m).Proper := by
  have hs := s.bit_lt_two
  rw [Proper, toNat_bits_ofSignMagnitude]; omega

/-- A proper word is determined by its sign and its magnitude. -/
theorem Proper.canonical_eq {w : Word} (h : w.Proper) : w.canonical = w := by
  apply ext_toNat
  rw [Word.canonical, toNat_bits_ofSignMagnitude, magnitude, sign, Sign.ofBit]
  simp only [Proper] at h
  split <;> simp only [Sign.bit] <;> omega

theorem sign_eq_plus_iff (w : Word) : w.sign = .plus ↔ w.bits.toNat / 0x40000000 % 2 = 0 := by
  unfold sign Sign.ofBit; split <;> simp_all

theorem sign_eq_minus_iff (w : Word) : w.sign = .minus ↔ w.bits.toNat / 0x40000000 % 2 = 1 := by
  unfold sign Sign.ofBit; split <;> simp_all

theorem toNat_bits_negate_plus {w : Word} (h : w.sign = .plus) :
    w.negate.bits.toNat = w.bits.toNat + 0x40000000 := by
  have hw := w.bits.toNat_lt
  have := w.sign_eq_plus_iff.1 h
  simp only [negate, h, UInt32.toNat_ofNat']
  omega

theorem toNat_bits_negate_minus {w : Word} (h : w.sign = .minus) :
    w.negate.bits.toNat = w.bits.toNat - 0x40000000 := by
  have hw := w.bits.toNat_lt
  simp only [negate, h, UInt32.toNat_ofNat']
  omega

@[simp] theorem sign_negate (w : Word) : w.negate.sign = w.sign.flip := by
  cases h : w.sign
  · have := toNat_bits_negate_plus h
    have := w.sign_eq_plus_iff.1 h
    exact w.negate.sign_eq_minus_iff.2 (by omega)
  · have := toNat_bits_negate_minus h
    have := w.sign_eq_minus_iff.1 h
    exact w.negate.sign_eq_plus_iff.2 (by omega)

@[simp] theorem magnitude_negate (w : Word) : w.negate.magnitude = w.magnitude := by
  unfold magnitude
  cases h : w.sign
  · have := toNat_bits_negate_plus h; omega
  · have := toNat_bits_negate_minus h
    have := w.sign_eq_minus_iff.1 h
    omega

/-- A word that was built is negated by building it with the other sign. -/
theorem negate_ofSignMagnitude (s : Sign) (m : Nat) :
    (ofSignMagnitude s m).negate = ofSignMagnitude s.flip m := by
  apply ext_toNat
  cases s with
  | plus =>
      rw [toNat_bits_negate_plus (sign_ofSignMagnitude _ _), toNat_bits_ofSignMagnitude,
        toNat_bits_ofSignMagnitude]
      simp only [Sign.flip, Sign.bit]
      omega
  | minus =>
      rw [toNat_bits_negate_minus (sign_ofSignMagnitude _ _), toNat_bits_ofSignMagnitude,
        toNat_bits_ofSignMagnitude]
      simp only [Sign.flip, Sign.bit]
      omega

/-- Negating a word negates its number. -/
theorem value_negate (w : Word) : w.negate.value = -w.value := by
  rw [value, sign_negate, magnitude_negate, Sign.apply_flip, value]

end Word

end MixMachine
