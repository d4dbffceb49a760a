import MixMachine.Proofs.Splitting
import MixMachine.Text.Decimal

/-!
# Numerals

A text that reads as a natural number is made of digits alone, so it is solid, holds none
of the characters that part a line, and is read alike by the readers that allow a sign.
The digits of a number determine it.

* `Decimal.solid_of_natural?`, `Decimal.notMem_of_natural?`: what a numeral is made of.
* `Decimal.signed?_of_natural?`, `Decimal.unsigned?_of_natural?`: numerals within bounds.
* `Decimal.digits_injective`, `Decimal.digits_append_inj`: a number by its digits.
-/

namespace MixMachine

theorem Text.toNat_of_isDigit {c : Char} (digit : c.isDigit = true) :
    48 ≤ c.toNat ∧ c.toNat ≤ 57 := by
  simp only [Char.isDigit, Bool.and_eq_true, decide_eq_true_eq, ge_iff_le,
    UInt32.le_iff_toNat_le] at digit
  exact digit

theorem Text.isBlank_of_isDigit {c : Char} (digit : c.isDigit = true) : isBlank c = false := by
  have range := toNat_of_isDigit digit
  unfold isBlank
  rw [List.contains_eq_mem, decide_eq_false_iff_not]
  intro member
  simp only [blanks, List.mem_cons, List.not_mem_nil, or_false] at member
  omega

namespace Decimal

variable {cs : List Char} {n : Nat}

/-! ## What a numeral is made of -/

theorem of_natural?_eq_some (h : natural? cs = some n) :
    cs ≠ [] ∧ ∀ c ∈ cs, c.isDigit = true := by
  obtain ⟨⟨some, digits⟩, -⟩ := Option.ite_none_right_eq_some.1 h
  exact ⟨some, List.all_eq_true.1 digits⟩

theorem solid_of_natural? (h : natural? cs = some n) : Text.Solid cs where
  ne_nil := (of_natural?_eq_some h).1
  free c member := Text.isBlank_of_isDigit ((of_natural?_eq_some h).2 c member)

theorem notMem_of_natural? (h : natural? cs = some n) {c : Char} (other : c.isDigit = false) :
    c ∉ cs := by
  intro member
  have digit := (of_natural?_eq_some h).2 c member
  rw [other] at digit
  cases digit

/-- A numeral starts with nothing but a digit. -/
theorem ne_cons_of_natural? (h : natural? cs = some n) {c : Char} (other : c.isDigit = false)
    (rest : List Char) : cs ≠ c :: rest := by
  rintro rfl
  exact notMem_of_natural? h other (List.mem_cons_self ..)

/-- A numeral has no letters to put in upper case. -/
theorem map_toUpper_of_natural? (h : natural? cs = some n) : cs.map Char.toUpper = cs := by
  have kept : ∀ c ∈ cs, Char.toUpper c = c := by
    intro c member
    have digit := (of_natural?_eq_some h).2 c member
    have range := Text.toNat_of_isDigit digit
    have small : ¬ (c.val ≥ 97 ∧ c.val ≤ 122) := by
      rw [ge_iff_le, UInt32.le_iff_toNat_le]
      intro letter
      have low : 97 ≤ c.toNat := letter.1
      omega
    exact dif_neg small
  rw [List.map_congr_left kept, List.map_id']

/-! ## Readers that allow a sign -/

/-- A numeral within the range of signed numbers is one of them. -/
theorem signed?_of_natural? (h : natural? cs = some n) (short : n < 0x8000000000000000) :
    signed? cs = some (n : Int) := by
  have range : InRange64 n := ⟨by omega, by omega⟩
  unfold signed?
  split
  · exact absurd rfl (ne_cons_of_natural? h rfl _)
  · exact absurd rfl (ne_cons_of_natural? h rfl _)
  · rw [h]
    show Option.filter (fun v => decide (InRange64 v)) (some (n : Int)) = _
    rw [Option.filter_some, if_pos (decide_eq_true range)]

/-- A numeral within the limit of unsigned numbers is one of them. -/
theorem unsigned?_of_natural? {limit : Nat} (h : natural? cs = some n) (short : n ≤ limit) :
    unsigned? limit cs = some n := by
  unfold unsigned?
  split
  · exact absurd rfl (ne_cons_of_natural? h rfl _)
  · rw [h, Option.filter_some, if_pos (decide_eq_true short)]

/-! ## A number by its digits -/

/-- The first digit of a number is no zero, but for zero itself. -/
theorem head?_digits_ne_zero {n : Nat} (nonzero : n ≠ 0) : (digits n).head? ≠ some '0' := by
  unfold digits
  induction n using Nat.strongRecOn with
  | _ n ih =>
      by_cases short : n < 10
      · rw [Nat.toDigits_of_lt_base short]
        simpa using nonzero
      · have front := ih (n / 10) (by omega) (by omega)
        rw [Nat.toDigits_of_base_le (by decide) (Nat.not_lt.1 short),
          List.head?_append_of_ne_nil _ Nat.toDigits_ne_nil]
        exact front

theorem digits_injective {a b : Nat} (same : digits a = digits b) : a = b := by
  have read := natural?_digits a
  rw [same, natural?_digits] at read
  exact (Option.some.inj read).symm

/-- No digit stands at the front of the text, so a numeral in front of it ends there. -/
def EndsNumeral (rest : List Char) : Prop :=
  ∀ c ∈ rest.head?, c.isDigit = false

theorem endsNumeral_cons {c : Char} (other : c.isDigit = false) (rest : List Char) :
    EndsNumeral (c :: rest) := by
  intro d head
  cases head
  exact other

/-- A numeral in front of a rest that ends it is told from the rest. -/
theorem digits_append_inj {a b : Nat} {xs ys : List Char} (hx : EndsNumeral xs)
    (hy : EndsNumeral ys) (same : digits a ++ xs = digits b ++ ys) : a = b ∧ xs = ys := by
  have numeral : ∀ n, ∀ c ∈ digits n, c.isDigit = true :=
    fun n => List.all_eq_true.1 (all_isDigit_digits n)
  obtain ⟨digits, rests⟩ := Text.append_inj_of_stop (numeral a) (numeral b) hx hy same
  exact ⟨digits_injective digits, rests⟩

/-- A numeral starts with no other character than a digit. -/
theorem digits_append_ne_cons {c : Char} (other : c.isDigit = false) (xs ys : List Char) :
    digits n ++ xs ≠ c :: ys := by
  intro same
  have some := digits_ne_nil n
  have none := notMem_of_natural? (natural?_digits n) other
  cases numeral : digits n with
  | nil => exact some numeral
  | cons d ds =>
      rw [numeral] at same none
      cases same
      exact none (List.mem_cons_self ..)

theorem toList_natural (n : Nat) : (natural n).toList = digits n :=
  String.toList_ofList

/-- The text of an integer as characters: a minus sign, when there is one, and digits. -/
theorem toList_integer (v : Int) :
    (integer v).toList = if v < 0 then '-' :: digits v.natAbs else digits v.natAbs := by
  unfold integer
  split
  · rw [String.toList_append, toList_natural]
    rfl
  · exact toList_natural _

end Decimal

end MixMachine
