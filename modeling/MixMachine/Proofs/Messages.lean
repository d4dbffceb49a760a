import MixMachine.Machine.Basic
import MixMachine.Proofs.Numerals

/-!
# What a printed text tells

A message is fixed words with numbers and names between them. Two messages of different kinds
differ in the words they start with; two of one kind differ in a number, which ends where the
words go on. So a message determines what it reports.

* `Text.literal_append_ne`: texts that start with different words are different.
* `Decimal.natural_append_inj`: a number in front of words is told from them.
* `Text.quoted_injective`: a quoted text is told from its quotation.
* `Fault.message_injective`: a message determines its fault.
* `Registers.comparisonRecord_injective`: the record of the indicator determines it.
-/

namespace MixMachine

namespace Text

variable {a b cs : List Char}

/-- A text put into a message stands there as it is. -/
theorem toString_eq (s : String) : toString s = s := rfl

/-- Texts that start with different words are different, whatever follows. -/
theorem literal_append_ne (apart : ¬ a <+: b ∧ ¬ b <+: a) (x y : String) :
    String.ofList a ++ x ≠ String.ofList b ++ y := by
  intro same
  have left : a <+: (String.ofList a ++ x).toList := by
    rw [String.toList_append, String.toList_ofList]
    exact List.prefix_append ..
  have right : b <+: (String.ofList a ++ x).toList := by
    rw [same, String.toList_append, String.toList_ofList]
    exact List.prefix_append ..
  exact (List.prefix_or_prefix_of_prefix left right).elim apart.1 apart.2

/-! ## Quotations -/

theorem digitChar_injective {m n : Nat} (hm : m < 16) (hn : n < 16)
    (same : Nat.digitChar m = Nat.digitChar n) : m = n := by
  have all : ∀ m < 16, ∀ n < 16, Nat.digitChar m = Nat.digitChar n → m = n := by decide
  exact all m hm n hn same

theorem toDigits_injective {m n : Nat} (same : Nat.toDigits 16 m = Nat.toDigits 16 n) :
    m = n := by
  have length_pos : ∀ n, 0 < (Nat.toDigits 16 n).length := fun n => Nat.length_toDigits_pos
  induction m using Nat.strongRecOn generalizing n with
  | _ m ih =>
      by_cases hm : m < 16 <;> by_cases hn : n < 16
      · rw [Nat.toDigits_of_lt_base hm, Nat.toDigits_of_lt_base hn] at same
        exact digitChar_injective hm hn (List.cons.inj same).1
      · have size := congrArg List.length same
        rw [Nat.toDigits_of_lt_base hm, Nat.toDigits_of_base_le (by decide) (Nat.not_lt.1 hn),
          List.length_append, List.length_singleton, List.length_singleton] at size
        have some := length_pos (n / 16)
        omega
      · have size := congrArg List.length same
        rw [Nat.toDigits_of_lt_base hn, Nat.toDigits_of_base_le (by decide) (Nat.not_lt.1 hm),
          List.length_append, List.length_singleton, List.length_singleton] at size
        have some := length_pos (m / 16)
        omega
      · -- the last digits agree, and so do the numbers in front of them
        rw [Nat.toDigits_of_base_le (by decide) (Nat.not_lt.1 hm),
          Nat.toDigits_of_base_le (by decide) (Nat.not_lt.1 hn)] at same
        obtain ⟨front, last⟩ := List.append_inj' same rfl
        have quotients := ih (m / 16) (by omega) front
        have rests := digitChar_injective (Nat.mod_lt m (by decide)) (Nat.mod_lt n (by decide))
          (List.cons.inj last).1
        omega

theorem notMem_toDigits (n : Nat) : '\x7d' ∉ Nat.toDigits 16 n := by
  have digit : ∀ d < 16, '\x7d' ≠ Nat.digitChar d := by decide
  induction n using Nat.strongRecOn with
  | _ n ih =>
      by_cases short : n < 16
      · rw [Nat.toDigits_of_lt_base short, List.mem_singleton]
        exact digit n short
      · rw [Nat.toDigits_of_base_le (by decide) (Nat.not_lt.1 short), List.mem_append,
          List.mem_singleton]
        rintro (front | last)
        · exact ih (n / 16) (by omega) front
        · exact digit (n % 16) (Nat.mod_lt n (by decide)) last

/-- The characters that have an escape of two characters, each with the second of them. -/
def shortEscapes : List (Char × Char) :=
  [('"', '"'), ('\\', '\\'), ('\t', 't'), ('\n', 'n'), ('\r', 'r'), ('\x00', '0')]

/-- The ways in which a character stands inside quotes. -/
inductive Quotes (c : Char) : List Char → Prop
  | plain : c ≠ '\\' → Quotes c [c]
  | short {e : Char} : (c, e) ∈ shortEscapes → Quotes c ['\\', e]
  | codePoint : Quotes c (['\\', 'u', '\x7b'] ++ Nat.toDigits 16 c.toNat ++ ['\x7d'])

theorem quotes_quoteChar (c : Char) : Quotes c (quoteChar c) := by
  unfold quoteChar
  split
  · next h => subst h; exact .short (by decide)
  split
  · next h => subst h; exact .short (by decide)
  split
  · next h => subst h; exact .short (by decide)
  split
  · next h => subst h; exact .short (by decide)
  split
  · next h => subst h; exact .short (by decide)
  split
  · next h => subst h; exact .short (by decide)
  split
  · exact .plain ‹_›
  · exact .codePoint

/-- **A character inside quotes is told from what follows it.** -/
theorem Quotes.append_inj {c d : Char} {xs ys : List Char} (left : Quotes c a)
    (right : Quotes d b) (same : a ++ xs = b ++ ys) : c = d ∧ xs = ys := by
  have distinct : ∀ p ∈ shortEscapes, ∀ q ∈ shortEscapes, p.2 = q.2 → p.1 = q.1 := by decide
  have noCodePoint : ∀ p ∈ shortEscapes, p.2 ≠ 'u' := by decide
  cases left with
  | plain solid =>
      cases right with
      | plain => exact List.cons.inj same
      | short => exact absurd (List.cons.inj same).1 solid
      | codePoint => exact absurd (List.cons.inj same).1 solid
  | short listed =>
      cases right with
      | plain solid => exact absurd (List.cons.inj same).1.symm solid
      | short listed' =>
          obtain ⟨escapes, rests⟩ := List.cons.inj (List.cons.inj same).2
          exact ⟨distinct _ listed _ listed' escapes, rests⟩
      | codePoint =>
          exact absurd (List.cons.inj (List.cons.inj same).2).1 (noCodePoint _ listed)
  | codePoint =>
      cases right with
      | plain solid => exact absurd (List.cons.inj same).1.symm solid
      | short listed =>
          exact absurd (List.cons.inj (List.cons.inj same).2).1.symm (noCodePoint _ listed)
      | codePoint =>
          simp only [List.append_assoc, List.append_cancel_left_eq, List.singleton_append] at same
          obtain ⟨digits, rests⟩ := append_cons_inj (notMem_toDigits _) (notMem_toDigits _) same
          exact ⟨Char.toNat_inj.1 (toDigits_injective digits), rests⟩

theorem Quotes.ne_nil {c : Char} (h : Quotes c a) : a ≠ [] := by
  cases h <;> exact List.cons_ne_nil _ _

/-- **A quotation determines the text in it.** -/
theorem quoted_injective {xs ys : List Char} (same : quoted xs = quoted ys) : xs = ys := by
  unfold quoted at same
  rw [String.ofList_inj] at same
  replace same := List.append_cancel_right (List.cons.inj same).2
  induction xs generalizing ys with
  | nil =>
      cases ys with
      | nil => rfl
      | cons y ys =>
          rw [List.flatMap_cons, List.flatMap_nil] at same
          exact absurd (List.append_eq_nil_iff.1 same.symm).1 (quotes_quoteChar y).ne_nil
  | cons x xs ih =>
      cases ys with
      | nil =>
          rw [List.flatMap_cons, List.flatMap_nil] at same
          exact absurd (List.append_eq_nil_iff.1 same).1 (quotes_quoteChar x).ne_nil
      | cons y ys =>
          rw [List.flatMap_cons, List.flatMap_cons] at same
          obtain ⟨rfl, rests⟩ := (quotes_quoteChar x).append_inj (quotes_quoteChar y) same
          rw [ih rests]

end Text

/-! ## Numbers between words -/

namespace Decimal

variable {m n : Nat} {v w : Int} {c : Char} {cs : List Char} {x y : String}

theorem natural_injective (same : natural m = natural n) : m = n := by
  rw [← String.toList_inj, toList_natural, toList_natural] at same
  exact digits_injective same

theorem integer_injective (same : integer v = integer w) : v = w := by
  have signed : ∀ m n, '-' :: digits m ≠ digits n := fun m n same =>
    ne_cons_of_natural? (natural?_digits n) rfl _ same.symm
  rw [← String.toList_inj, toList_integer, toList_integer] at same
  split at same <;> split at same
  · have size := digits_injective (List.cons.inj same).2
    omega
  · exact absurd same (signed _ _)
  · exact absurd same.symm (signed _ _)
  · have size := digits_injective same
    omega

/-- Words end a number when they do not start with a digit. -/
theorem endsNumeral_literal (other : c.isDigit = false) :
    EndsNumeral (String.ofList (c :: cs)).toList := by
  rw [String.toList_ofList]
  exact endsNumeral_cons other cs

theorem endsNumeral_literal_append (other : c.isDigit = false) (x : String) :
    EndsNumeral (String.ofList (c :: cs) ++ x).toList := by
  rw [String.toList_append, String.toList_ofList]
  exact endsNumeral_cons other _

/-- **A number in front of words is told from them.** -/
theorem natural_append_inj (hx : EndsNumeral x.toList) (hy : EndsNumeral y.toList)
    (same : natural m ++ x = natural n ++ y) : m = n ∧ x = y := by
  rw [← String.toList_inj, String.toList_append, String.toList_append, toList_natural,
    toList_natural] at same
  obtain ⟨numbers, rests⟩ := digits_append_inj hx hy same
  exact ⟨numbers, String.toList_inj.1 rests⟩

end Decimal

open Decimal Text

/-! ## Errors -/

theorem FieldError.message_injective {a b : FieldError} (same : a.message = b.message) :
    a = b := by
  unfold message at same
  cases a <;> cases b <;>
    simp only [toString_eq, String.append_assoc, String.append_right_inj] at same
  -- the bounds come first, and the words behind them tell the kind
  all_goals
    obtain ⟨rfl, rest⟩ := natural_append_inj (endsNumeral_literal_append (by decide) _)
      (endsNumeral_literal_append (by decide) _) same
    rw [String.append_right_inj] at rest
    obtain ⟨rfl, kind⟩ := natural_append_inj (endsNumeral_literal (by decide))
      (endsNumeral_literal (by decide)) rest
  case rightOutOfRange.rightOutOfRange => rfl
  case reversed.reversed => rfl
  all_goals exact absurd kind (by decide)

theorem MemoryError.message_injective {a b : MemoryError} (same : a.message = b.message) :
    a = b := by
  unfold message at same
  cases a <;> cases b <;> simp only [toString_eq, String.append_assoc] at same
  case addressOutOfRange.addressOutOfRange =>
    rw [String.append_right_inj, String.append_left_inj] at same
    rw [integer_injective same]
  case programTooLarge.programTooLarge =>
    rw [String.append_right_inj] at same
    obtain ⟨rfl, rest⟩ := natural_append_inj (endsNumeral_literal_append (by decide) _)
      (endsNumeral_literal_append (by decide) _) same
    rw [natural_injective ((String.append_right_inj _).1 rest)]
  all_goals exact absurd same (literal_append_ne (by decide) _ _)

theorem DecodeError.message_injective {a b : DecodeError} (same : a.message = b.message) :
    a = b := by
  unfold message at same
  cases a <;> cases b <;> simp only [toString_eq, String.append_assoc] at same
  case invalidOpcode.invalidOpcode =>
    rw [natural_injective ((String.append_right_inj _).1 same)]
  case invalidField.invalidField =>
    rw [String.append_right_inj] at same
    obtain ⟨rfl, rest⟩ := natural_append_inj (endsNumeral_literal_append (by decide) _)
      (endsNumeral_literal_append (by decide) _) same
    rw [FieldError.message_injective ((String.append_right_inj _).1 rest)]
  case invalidModifier.invalidModifier =>
    rw [String.append_right_inj] at same
    obtain ⟨rfl, rest⟩ := natural_append_inj (endsNumeral_literal_append (by decide) _)
      (endsNumeral_literal_append (by decide) _) same
    rw [natural_injective ((String.append_right_inj _).1 rest)]
  case invalidIndex.invalidIndex =>
    rw [natural_injective ((String.append_right_inj _).1 same)]
  case unsupported.unsupported => rw [(String.append_right_inj _).1 same]
  all_goals exact absurd same (literal_append_ne (by decide) _ _)

theorem DeviceError.message_injective {a b : DeviceError} (same : a.message = b.message) :
    a = b := by
  unfold message at same
  cases a <;> cases b <;> simp only [toString_eq, String.append_assoc] at same
  case noSuchDevice.noSuchDevice =>
    rw [natural_injective ((String.append_right_inj _).1 same)]
  case blockSize.blockSize =>
    rw [String.append_right_inj] at same
    obtain ⟨rfl, rest⟩ := natural_append_inj (endsNumeral_literal_append (by decide) _)
      (endsNumeral_literal_append (by decide) _) same
    rw [String.append_right_inj, String.append_right_inj] at rest
    rw [natural_injective rest]
  all_goals exact absurd same (literal_append_ne (by decide) _ _)

theorem WordError.message_injective {a b : WordError} (same : a.message = b.message) :
    a = b := by
  unfold message at same
  cases a <;> cases b <;> simp only [toString_eq, String.append_assoc] at same
  case magnitudeOverflow.magnitudeOverflow =>
    rw [String.append_right_inj, String.append_left_inj] at same
    rw [integer_injective same]
  case invalidByte.invalidByte =>
    rw [String.append_right_inj, String.append_left_inj] at same
    rw [natural_injective same]
  case wrongLength.wrongLength =>
    rw [String.append_right_inj] at same
    obtain ⟨rfl, rest⟩ := natural_append_inj (endsNumeral_literal_append (by decide) _)
      (endsNumeral_literal_append (by decide) _) same
    rw [String.append_right_inj] at rest
    rw [natural_injective rest]
  case unreadable.unreadable =>
    have texts := quoted_injective ((String.append_right_inj _).1 same)
    rw [String.toList_inj.1 texts]
  case positionOutOfRange.positionOutOfRange =>
    rw [String.append_right_inj, String.append_left_inj] at same
    rw [natural_injective same]
  all_goals exact absurd same (literal_append_ne (by decide) _ _)

/-! ## Faults -/

theorem RunState.name_injective {a b : RunState} (same : Variants.name a = Variants.name b) :
    a = b := by
  cases a <;> cases b
  case running.running => rfl
  case halted.halted => rfl
  all_goals exact absurd same (by decide)

/-- **A message determines its fault**, with everything that the fault carries. -/
theorem Fault.message_injective {a b : Fault} (same : a.message = b.message) : a = b := by
  unfold message at same
  cases a <;> cases b <;> simp only [toString_eq] at same
  case notRunning.notRunning =>
    rw [RunState.name_injective ((String.append_right_inj _).1 same)]
  case memory.memory => rw [MemoryError.message_injective ((String.append_right_inj _).1 same)]
  case decode.decode => rw [DecodeError.message_injective ((String.append_right_inj _).1 same)]
  case device.device => rw [DeviceError.message_injective ((String.append_right_inj _).1 same)]
  case word.word => rw [WordError.message_injective ((String.append_right_inj _).1 same)]
  case negativeShift.negativeShift =>
    rw [integer_injective ((String.append_right_inj _).1 same)]
  all_goals exact absurd same (literal_append_ne (by decide) _ _)

/-! ## The indicator -/

/-- **The record of the indicator determines it**: unset, or one of the three orders. -/
theorem Registers.comparisonRecord_injective {a b : Option Ordering}
    (same : comparisonRecord a = comparisonRecord b) : a = b := by
  rcases a with _ | (_ | _ | _) <;> rcases b with _ | (_ | _ | _)
  all_goals first | rfl | exact absurd same (by decide)

end MixMachine
