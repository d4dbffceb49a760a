import Mathlib.Algebra.Group.Nat.Defs
import MixMachine.Proofs.FailureConditions
import MixMachine.Proofs.Flags

/-!
# Products and quotients

A product of two words has sixty bits, which two words hold as a high and a low half, and a
quotient takes two words apart again. Nothing is lost on the way: the halves hold the exact
product, and the quotient and the remainder determine the dividend. So a product that is
divided by one of its factors gives back the other one, with its sign, and a zero remainder.

* `Word.doubleMagnitude_multiply`: the halves of a product hold the exact product.
* `Word.isQuotient_of_divide`: what a division answers.
* `Word.divide_multiply`: a division undoes a multiplication.
* `Machine.multiply_divide_inverse`: the same for the instructions, on reached machines.
-/

namespace MixMachine

/-- A sign that is multiplied by another one twice is the same. -/
theorem Sign.mul_mul_cancel (s t : Sign) : (s * t) * t = s := by
  cases s <;> cases t <;> rfl

/-! ## Words -/

namespace Word

variable {high low divisor quotient remainder : Word}

/-- The two halves of a product hold all of it. -/
theorem doubleMagnitude_multiply (a b : Word) :
    doubleMagnitude (multiply a b).1 (multiply a b).2 = a.magnitude * b.magnitude := by
  have product : a.magnitude * b.magnitude < 0x40000000 * 0x40000000 :=
    Nat.mul_lt_mul'' a.magnitude_lt b.magnitude_lt
  unfold doubleMagnitude multiply
  dsimp only
  rw [magnitude_ofSignMagnitude, magnitude_ofSignMagnitude]
  omega

theorem sign_multiply (a b : Word) :
    (multiply a b).1.sign = a.sign * b.sign ∧ (multiply a b).2.sign = a.sign * b.sign :=
  ⟨sign_ofSignMagnitude _ _, sign_ofSignMagnitude _ _⟩

/-- The two words that the double word `high`, `low` comes to when it is divided. The sign of
the dividend is that of `high`. -/
structure IsQuotient (high low divisor quotient remainder : Word) : Prop where
  exact : doubleMagnitude high low =
    quotient.magnitude * divisor.magnitude + remainder.magnitude
  remainder_lt : remainder.magnitude < divisor.magnitude
  sign_quotient : quotient.sign = high.sign * divisor.sign
  sign_remainder : remainder.sign = high.sign

/-- A division that answers gives the quotient and the remainder. -/
theorem isQuotient_of_divide (h : divide high low divisor = some (quotient, remainder)) :
    IsQuotient high low divisor quotient remainder := by
  have largest : maxMagnitude = 0x3FFFFFFF := rfl
  have divisorShort := divisor.magnitude_lt
  unfold divide at h
  dsimp only at h
  split at h
  · cases h
  · rename_i answered
    cases h
    obtain ⟨nonzero, short⟩ := not_or.1 answered
    have quotientShort : doubleMagnitude high low / divisor.magnitude < 0x40000000 := by omega
    have remainderLt := Nat.mod_lt (doubleMagnitude high low) (Nat.pos_of_ne_zero nonzero)
    refine ⟨?_, ?_, sign_ofSignMagnitude _ _, sign_ofSignMagnitude _ _⟩
    · rw [magnitude_ofSignMagnitude, magnitude_ofSignMagnitude, Nat.mod_eq_of_lt quotientShort,
        Nat.mod_eq_of_lt (Nat.lt_trans remainderLt divisorShort), Nat.div_add_mod']
    · rw [magnitude_ofSignMagnitude, Nat.mod_eq_of_lt (Nat.lt_trans remainderLt divisorShort)]
      exact remainderLt

/-- Of the low half only the magnitude counts. -/
theorem divide_congr_low {low' : Word} (same : low'.magnitude = low.magnitude) :
    divide high low' divisor = divide high low divisor := by
  unfold divide doubleMagnitude
  rw [same]

/-- **A product divided by its second factor is the first one**, bit for bit, with a zero of the
product's sign as the remainder. -/
theorem divide_multiply {a b : Word} (proper : a.Proper) (nonzero : b.magnitude ≠ 0) :
    divide (multiply a b).1 (multiply a b).2 b =
      some (a, ofSignMagnitude (a.sign * b.sign) 0) := by
  have whole : a.magnitude * b.magnitude / b.magnitude = a.magnitude :=
    Nat.mul_div_cancel _ (Nat.pos_of_ne_zero nonzero)
  have answered : ¬ (b.magnitude = 0 ∨ maxMagnitude < a.magnitude) :=
    not_or.2 ⟨nonzero, Nat.not_lt.2 (Nat.le_of_lt_succ a.magnitude_lt)⟩
  unfold divide
  dsimp only
  rw [doubleMagnitude_multiply, whole, if_neg answered, (sign_multiply a b).1,
    Sign.mul_mul_cancel, Nat.mul_mod_left]
  exact congrArg (fun quotient => some (quotient, _)) proper.canonical_eq

end Word

/-! ## Registers -/

/-- What a combination of A writes are whole registers. -/
theorem Arithmetic.full_of_mem_targets (kind : Arithmetic) :
    ∀ r ∈ kind.targets, r.width = .full := by
  cases kind <;> decide

namespace Registers

variable {v : Word}

/-- A product leaves its halves in A and X, and the toggle alone. -/
theorem arithmetic_mul (rs : Registers) (v : Word) :
    (rs.arithmetic .mul v).a = (Word.multiply rs.a v).1 ∧
      (rs.arithmetic .mul v).x = (Word.multiply rs.a v).2 ∧
      (rs.arithmetic .mul v).overflow = rs.overflow :=
  ⟨narrow_of_full (r := .a) rfl (Word.proper_ofSignMagnitude _ _),
    narrow_of_full (r := .x) rfl (Word.proper_ofSignMagnitude _ _),
    (overflow_set ..).trans (overflow_set ..)⟩

/-- A division of the halves of a product leaves the first factor in A. -/
theorem arithmetic_div_of_product (rs : Registers) {a : Word} (high : rs.a = (Word.multiply a v).1)
    (low : rs.x = (Word.multiply a v).2) (proper : a.Proper) (nonzero : v.magnitude ≠ 0) :
    (rs.arithmetic .div v).a = a ∧ (rs.arithmetic .div v).overflow = rs.overflow := by
  unfold arithmetic
  rw [high, low]
  dsimp only
  rw [Word.divide_multiply proper nonzero]
  refine ⟨narrow_of_full (r := .a) rfl proper, ?_⟩
  exact (overflow_set ..).trans (overflow_set ..)

end Registers

/-! ## Instructions -/

namespace Machine

variable {δ : Type} [Device δ]

/-- A combination of A with a field, once it has completed. -/
theorem Attempt.exec_arithmetic {m m' : Machine δ} {a : Attempt} {i : Instruction}
    {kind : Arithmetic} {f : Field} {s : RunState} (run : a.exec m = .ok s m')
    (decoded : Instruction.decode (a.fetch m) = .ok i)
    (arithmetic : i.operation = .arithmetic kind f) :
    ∃ c, Memory.index (m.effectiveAddress i).value = .ok c ∧
      m' = retire i m.registers.pc .next
        { m with registers := m.registers.arithmetic kind (f.extract (m.memory.cell c)) } := by
  rcases Attempt.completes_fetched run decoded with ⟨flow, done, completes, -, rfl⟩
  rw [arithmetic] at completes
  cases completes with
  | arithmetic cell => exact ⟨_, cell, rfl⟩

/-- **A division behind a multiplication** by the same field of the same cell, which is not
zero, is completed where a cell is left to stand in, and takes the product back. -/
theorem divide_behind_multiply {m m₁ : Machine δ} {a b : Attempt} {i j : Instruction} {f : Field}
    {s₁ : RunState} (proper : m.registers.a.Proper) (run₁ : a.exec m = .ok s₁ m₁)
    (decoded : Instruction.decode (a.fetch m) = .ok i)
    (multiplies : i.operation = .arithmetic .mul f)
    (decoded' : Instruction.decode (b.fetch m₁) = .ok j)
    (divides : j.operation = .arithmetic .div f)
    (same : (m.effectiveAddress j).value = (m.effectiveAddress i).value)
    (nonzero : (Completion.mk m i).operand f ≠ 0) :
    ((∃ s m₂, b.exec m₁ = .ok s m₂) ↔ m.registers.pc ≤ 3998) ∧
    ∀ s₂ m₂, b.exec m₁ = .ok s₂ m₂ →
      m₂.registers.a = m.registers.a ∧ m₂.registers.overflow = m.registers.overflow := by
  obtain ⟨running, -, cell⟩ :=
    (Attempt.completes_iff_of_field (f := f) decoded (by rw [multiplies]; rfl)).1 ⟨_, _, run₁⟩
  have again := Attempt.completes_iff_of_field (f := f) decoded' (by rw [divides]; rfl)
  -- the product goes to two whole registers, so the division has the address of before
  have address : (m₁.effectiveAddress j).value = (m.effectiveAddress i).value := by
    obtain ⟨-, -, performs⟩ := Attempt.performs_fetched run₁ decoded
    rw [performs.effectiveAddress_eq ?_ j, same]
    rw [multiplies]
    exact Arithmetic.full_of_mem_targets .mul
  rw [address] at again
  obtain ⟨c, found, rfl⟩ := Attempt.exec_arithmetic run₁ decoded multiplies
  constructor
  · refine again.trans ⟨?_, ?_⟩
    · intro free
      exact Nat.le_of_succ_le_succ free.2.1
    · intro left
      exact ⟨running, Nat.succ_le_succ left, cell⟩
  · intro s₂ m₂ run₂
    obtain ⟨c', found', rfl⟩ := Attempt.exec_arithmetic run₂ decoded' divides
    rw [address] at found'
    cases found'.symm.trans found
    have operand := Completion.operand_of_index (c := ⟨m, i⟩) found f
    have factor : (f.extract (m.memory.cell c)).magnitude ≠ 0 := by
      intro zero
      rw [operand, ← Int.natAbs_ne_zero, Word.natAbs_value] at nonzero
      exact nonzero zero
    obtain ⟨high, low, kept⟩ :=
      Registers.arithmetic_mul m.registers (f.extract (m.memory.cell c))
    obtain ⟨restored, toggle⟩ := Registers.arithmetic_div_of_product
      { m.registers.arithmetic .mul (f.extract (m.memory.cell c)) with pc := m.registers.pc + 1 }
      high low proper factor
    exact ⟨restored, toggle.trans kept⟩

/-- **Products and quotients are exact and undo each other.** The halves of a product hold all
of it, and both have its sign. A division is refused exactly when the divisor is not larger
than the high half, zero included, and else gives the quotient and the remainder; the sign of
the low half does not matter. A product of a proper word divided by its second factor gives
back the first, bit for bit, and a zero. So on a reached machine a multiplication and behind
it a division by the same field of the same cell, which is not zero, leave A and the toggle as
they were. The first is completed at a cell, when its own cell is in memory, and the second
when one more cell is left to stand in. -/
theorem multiply_divide_inverse :
    (∀ a b : Word,
      Word.doubleMagnitude (Word.multiply a b).1 (Word.multiply a b).2 =
        a.magnitude * b.magnitude ∧
      (Word.multiply a b).1.sign = a.sign * b.sign ∧
      (Word.multiply a b).2.sign = a.sign * b.sign) ∧
    (∀ high low divisor : Word,
      (Word.divide high low divisor = none ↔ divisor.magnitude ≤ high.magnitude) ∧
      (∀ quotient remainder, Word.divide high low divisor = some (quotient, remainder) →
        Word.IsQuotient high low divisor quotient remainder ∧ quotient.magnitude < 2 ^ 30) ∧
      ∀ low', low'.magnitude = low.magnitude →
        Word.divide high low' divisor = Word.divide high low divisor) ∧
    (∀ a b : Word, a.Proper → 0 < b.magnitude →
      Word.divide (Word.multiply a b).1 (Word.multiply a b).2 b =
        some (a, Word.ofSignMagnitude (a.sign * b.sign) 0)) ∧
    ∀ (calls : List Call) (m : Machine Buffer) (a : Attempt) (i : Instruction) (f : Field),
      Reached calls m → Instruction.decode (a.fetch m) = .ok i →
      i.operation = .arithmetic .mul f →
      ((∃ s m₁, a.exec m = .ok s m₁) ↔
        m.state = .running ∧ m.registers.pc ≤ 3999 ∧
          ¬ Memory.Outside (m.effectiveAddress i).value) ∧
      ∀ (s₁ : RunState) (m₁ : Machine Buffer) (b : Attempt) (j : Instruction),
        a.exec m = .ok s₁ m₁ → Instruction.decode (b.fetch m₁) = .ok j →
        j.operation = .arithmetic .div f →
        (m.effectiveAddress j).value = (m.effectiveAddress i).value →
        (Completion.mk m i).operand f ≠ 0 →
        ((∃ s m₂, b.exec m₁ = .ok s m₂) ↔ m.registers.pc ≤ 3998) ∧
        ∀ s₂ m₂, b.exec m₁ = .ok s₂ m₂ →
          m₂.registers.a = m.registers.a ∧ m₂.registers.overflow = m.registers.overflow := by
  refine ⟨?_, ?_, ?_, ?_⟩
  · intro a b
    exact ⟨Word.doubleMagnitude_multiply a b, Word.sign_multiply a b⟩
  · intro high low divisor
    refine ⟨?_, ?_, fun _ => Word.divide_congr_low⟩
    · rw [Word.divide_eq_none_iff, Word.natAbs_value, Word.natAbs_value]
    · intro quotient remainder answered
      exact ⟨Word.isQuotient_of_divide answered, quotient.magnitude_lt⟩
  · intro a b proper positive
    exact Word.divide_multiply proper (Nat.ne_of_gt positive)
  · intro calls m a i f reached decoded multiplies
    refine ⟨Attempt.completes_iff_of_field (f := f) decoded (by rw [multiplies]; rfl), ?_⟩
    intro s₁ m₁ b j run₁ decoded' divides same nonzero
    exact divide_behind_multiply (reached.fit .a).proper run₁ decoded multiplies decoded' divides
      same nonzero

/-- A machine with -7 in A and a cell that holds -3. -/
def multiplying : Machine Buffer :=
  (Call.setRegister .a ⟨0x40000007⟩).apply ((Call.loadWord 2000 ⟨0x40000003⟩).apply .standard)

/-- -17 divided by 5 is -3 and leaves -2, and -7 that is multiplied by -3 comes back. -/
theorem multiply_divide_inverse_seven :
    Word.IsQuotient Word.zero.negate ⟨17⟩ ⟨5⟩ ⟨0x40000003⟩ ⟨0x40000002⟩ ∧
    Word.divide (Word.multiply ⟨0x40000007⟩ ⟨0x40000003⟩).1
      (Word.multiply ⟨0x40000007⟩ ⟨0x40000003⟩).2 ⟨0x40000003⟩ = some (⟨0x40000007⟩, .zero) ∧
    ∃ s₁ m₁ s₂ m₂,
      (Attempt.word (Instruction.assemble 2000 0 5 3)).exec multiplying = .ok s₁ m₁ ∧
      (Attempt.word (Instruction.assemble 2000 0 5 4)).exec m₁ = .ok s₂ m₂ ∧
      m₂.registers.a = ⟨0x40000007⟩ ∧ m₂.registers.overflow = false := by
  obtain ⟨-, divides, inverse, machines⟩ := multiply_divide_inverse
  obtain ⟨-, quotients, -⟩ := divides Word.zero.negate ⟨17⟩ ⟨5⟩
  have reached := (Reached.standard.call (.loadWord 2000 ⟨0x40000003⟩)).call
    (.setRegister .a ⟨0x40000007⟩)
  have multiplication : Instruction.decode (Instruction.assemble 2000 0 5 3) =
      .ok ⟨Instruction.addressOf 2000, 0, .arithmetic .mul .full⟩ := rfl
  have division : Instruction.decode (Instruction.assemble 2000 0 5 4) =
      .ok ⟨Instruction.addressOf 2000, 0, .arithmetic .div .full⟩ := rfl
  obtain ⟨completes, behind⟩ := machines _ multiplying (.word _) _ _ reached multiplication rfl
  obtain ⟨s₁, m₁, run₁⟩ := completes.2 ⟨rfl, by decide, by decide⟩
  obtain ⟨completes', restores⟩ :=
    behind s₁ m₁ (.word _) _ run₁ division rfl rfl (by decide +kernel)
  obtain ⟨s₂, m₂, run₂⟩ := completes'.2 (by decide)
  obtain ⟨restored, toggle⟩ := restores s₂ m₂ run₂
  refine ⟨(quotients _ _ (by decide)).1, inverse _ _ (by decide) (by decide), ?_⟩
  exact ⟨s₁, m₁, s₂, m₂, run₁, run₂, restored, toggle⟩

end Machine

end MixMachine
