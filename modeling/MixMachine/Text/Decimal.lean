/-!
# Decimal numbers

How numbers are written and read. A written number has no leading zeros unless
a width asks for them. A number is read from ASCII digits only, at least one,
with leading zeros allowed; a sign in front is allowed where the function says
so, and a value outside the asked range is no number.
-/

namespace MixMachine.Decimal

/-! ## Writing -/

/-- The digits of `n`, most significant first, without leading zeros. -/
def digits (n : Nat) : List Char :=
  Nat.toDigits 10 n

/-- The text of a natural number. -/
def natural (n : Nat) : String :=
  String.ofList (digits n)

/-- The text of an integer: a minus sign in front of a negative one, nothing in
front of any other. -/
def integer (v : Int) : String :=
  if v < 0 then "-" ++ natural v.natAbs else natural v.natAbs

/-- The text of `n` with zeros in front up to `width` digits. A longer number is
written whole. -/
def padded (width n : Nat) : String :=
  String.ofList (List.replicate (width - (digits n).length) '0' ++ digits n)

/-! ## Reading -/

/-- Reads one or more ASCII digits. -/
def natural? (cs : List Char) : Option Nat :=
  if cs ≠ [] ∧ cs.all Char.isDigit then some (Nat.ofDigitChars 10 cs 0) else none

/-- Reads a natural number of at most `limit`. One plus sign may stand in front. -/
def unsigned? (limit : Nat) (cs : List Char) : Option Nat :=
  let read :=
    match cs with
    | '+' :: rest => natural? rest
    | _ => natural? cs
  read.filter (· ≤ limit)

/-- The numbers of a signed 64-bit integer. -/
def InRange64 (v : Int) : Prop :=
  -0x8000000000000000 ≤ v ∧ v < 0x8000000000000000

instance (v : Int) : Decidable (InRange64 v) :=
  inferInstanceAs (Decidable (_ ∧ _))

/-- Reads a signed 64-bit integer. One plus or minus sign may stand in front. -/
def signed? (cs : List Char) : Option Int :=
  let read :=
    match cs with
    | '+' :: rest => (natural? rest).map fun n => (n : Int)
    | '-' :: rest => (natural? rest).map fun n => -(n : Int)
    | _ => (natural? cs).map fun n => (n : Int)
  read.filter fun v => InRange64 v

/-! ## Reading what was written -/

theorem digits_ne_nil (n : Nat) : digits n ≠ [] :=
  List.ne_nil_of_length_pos Nat.length_toDigits_pos

theorem all_isDigit_digits (n : Nat) : (digits n).all Char.isDigit = true :=
  List.all_eq_true.2 fun _ h => Nat.isDigit_of_mem_toDigits (by decide) (by decide) h

/-- A number is read back from its digits. -/
@[simp] theorem natural?_digits (n : Nat) : natural? (digits n) = some n := by
  rw [natural?, if_pos ⟨digits_ne_nil n, all_isDigit_digits n⟩]
  exact congrArg some (Nat.ofDigitChars_toDigits (by decide) (by decide))

theorem ofDigitChars_replicate_zero (k : Nat) (cs : List Char) :
    Nat.ofDigitChars 10 (List.replicate k '0' ++ cs) 0 = Nat.ofDigitChars 10 cs 0 := by
  induction k with
  | zero => rfl
  | succ k ih => exact ih

/-- Zeros in front do not change the number that is read. -/
@[simp] theorem natural?_padded (width n : Nat) : natural? (padded width n).toList = some n := by
  have hd : ((padded width n).toList).all Char.isDigit = true := by
    simp only [padded, String.toList_ofList, List.all_append, all_isDigit_digits, Bool.and_true,
      List.all_replicate]
    split <;> decide
  have hn : (padded width n).toList ≠ [] := by
    simp only [padded, String.toList_ofList]
    exact List.append_ne_nil_of_right_ne_nil _ (digits_ne_nil n)
  rw [natural?, if_pos ⟨hn, hd⟩, padded, String.toList_ofList, ofDigitChars_replicate_zero]
  exact congrArg some (Nat.ofDigitChars_toDigits (by decide) (by decide))

end MixMachine.Decimal
