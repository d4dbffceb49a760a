import MixMachine.Variants

/-!
# Signs

A machine word is a sign in front of five bytes, so a number is a sign and a
magnitude and there are two zeros. This module holds the sign alone: its bit,
its effect on a number, and its two characters.
-/

namespace MixMachine

/-- The sign position of a word. -/
inductive Sign where
  | plus
  | minus
  deriving DecidableEq, Inhabited

instance : Variants Sign where
  all := [.plus, .minus]
  name
    | .plus => "Plus"
    | .minus => "Minus"

namespace Sign

/-- The bit that stands for a sign in a packed word: plus is 0 and minus is 1. -/
def bit : Sign → Nat
  | plus => 0
  | minus => 1

/-- The sign that the lowest bit of `n` stands for. -/
def ofBit (n : Nat) : Sign :=
  if n % 2 = 0 then plus else minus

/-- The sign of a number. Zero counts as positive. -/
def of (value : Int) : Sign :=
  if value < 0 then minus else plus

/-- One with the given sign. -/
def unit : Sign → Int
  | plus => 1
  | minus => -1

/-- The other sign. -/
def flip : Sign → Sign
  | plus => minus
  | minus => plus

instance : Neg Sign := ⟨flip⟩

/-- The sign of a product: plus when both signs agree. -/
def mul (s t : Sign) : Sign :=
  if s = t then plus else minus

instance : Mul Sign := ⟨mul⟩

/-- Whether the sign is minus. -/
def isMinus : Sign → Bool
  | plus => false
  | minus => true

/-- The number with sign `s` and magnitude `m`. -/
def apply (s : Sign) (m : Nat) : Int :=
  match s with
  | plus => m
  | minus => -(m : Int)

/-- The character a sign is written with. -/
def char : Sign → Char
  | plus => '+'
  | minus => '-'

/-- Reads a sign character. -/
def ofChar? (c : Char) : Option Sign :=
  if c = '+' then some plus else if c = '-' then some minus else none

/-! ## Laws of the sign -/

@[simp] theorem flip_flip (s : Sign) : s.flip.flip = s := by
  cases s <;> rfl

@[simp] theorem neg_eq_flip (s : Sign) : -s = s.flip := rfl

@[simp] theorem mul_eq (s t : Sign) : s * t = s.mul t := rfl

@[simp] theorem ofBit_bit (s : Sign) : ofBit s.bit = s := by
  cases s <;> rfl

theorem bit_lt_two (s : Sign) : s.bit < 2 := by
  cases s <;> decide

@[simp] theorem ofChar?_char (s : Sign) : ofChar? s.char = some s := by
  cases s <;> rfl

/-- The magnitude survives giving it a sign. -/
@[simp] theorem natAbs_apply (s : Sign) (m : Nat) : (s.apply m).natAbs = m := by
  cases s <;> simp [apply]

/-- Flipping the sign negates the number. -/
theorem apply_flip (s : Sign) (m : Nat) : s.flip.apply m = -s.apply m := by
  cases s <;> simp [apply, flip]

end Sign

end MixMachine
