import Mathlib.Algebra.Group.Nat.Defs
import MixMachine.Proofs.Encoding
import MixMachine.Proofs.FailureConditions
import MixMachine.Proofs.Flags

/-!
# Sums of signs and magnitudes

A sum is computed in a register of some number of bits. It is the exact sum of the two numbers
as far as these bits go: the magnitude is that of the exact sum without its higher bits, which
overflow, and the sign is that of the exact sum, so an overflow may leave a zero with either
sign. Only a sum that is zero itself has no sign of its own and takes that of the first
operand.

* `Word.IsSum`: the word and the overflow that a sum comes to.
* `Word.addUpTo_negate`, `Word.addUpTo_comm`: what negating or exchanging the operands does.
* `Machine.Completes.isSum`: the four instructions that add to a register.
* `Machine.sum_exact_up_to_width`: sums of words and of registers.
-/

namespace MixMachine

/-! ## Widths as numbers of bits -/

/-- The number of bits of a magnitude in a register of this width. -/
def Width.bits : Width → Nat
  | .full => 30
  | .half => 12

theorem Width.maxMagnitude_eq (w : Width) : w.maxMagnitude = 2 ^ w.bits - 1 := by
  cases w <;> rfl

theorem Width.capacity_eq (w : Width) : w.capacity = 2 ^ w.bits := by
  cases w <;> rfl

theorem Width.bits_le (w : Width) : w.bits ≤ 30 := by
  cases w <;> decide

/-- The negated number has the other sign, unless it is zero. -/
theorem Sign.of_neg {v : Int} (nonzero : v ≠ 0) : of (-v) = (of v).flip := by
  unfold of
  by_cases negative : v < 0
  · rw [if_pos negative, if_neg (by omega)]
    rfl
  · rw [if_neg negative, if_pos (by omega)]
    rfl

/-! ## Sums of words -/

namespace Word

variable {bits : Nat} {zeroSign : Sign} {total : Int} {sum : Word × Bool}

/-- A word and whether it overflowed, as what the number `total` comes to in so many bits. A
zero has the sign `zeroSign`. -/
structure IsSum (bits : Nat) (zeroSign : Sign) (total : Int) (sum : Word × Bool) : Prop where
  overflow_iff : sum.2 = true ↔ 2 ^ bits - 1 < total.natAbs
  magnitude : sum.1.magnitude = total.natAbs % 2 ^ bits
  sign : sum.1.sign = if total = 0 then zeroSign else Sign.of total
  proper : sum.1.Proper

/-- What does not overflow is exact. -/
theorem IsSum.value_eq (h : IsSum bits zeroSign total sum) (fits : sum.2 = false) :
    sum.1.value = total := by
  have positive := Nat.two_pow_pos bits
  have short : ¬ 2 ^ bits - 1 < total.natAbs := by
    rw [← h.overflow_iff, fits]
    exact Bool.false_ne_true
  rw [value, h.sign, h.magnitude, Nat.mod_eq_of_lt (by omega), Sign.apply_natAbs]

/-- The sum that is computed up to some number of bits. -/
theorem isSum_addUpTo (short : bits ≤ 30) (a b : Word) :
    IsSum bits a.sign (a.value + b.value) (addUpTo (2 ^ bits - 1) a b) where
  overflow_iff := overflow_addUpTo _ a b
  magnitude := by
    have low := Nat.mod_lt (a.value + b.value).natAbs (Nat.two_pow_pos bits)
    have narrow : 2 ^ bits ≤ 2 ^ 30 := Nat.pow_le_pow_right (by decide) short
    rw [addUpTo, magnitude_ofSignMagnitude, Nat.and_two_pow_sub_one_eq_mod]
    exact Nat.mod_eq_of_lt (Nat.lt_of_lt_of_le low narrow)
  sign := sign_ofSignMagnitude _ _
  proper := proper_ofSignMagnitude _ _

/-- The sum that is computed up to the width of a register. -/
theorem isSum_addUpTo_width (w : Width) (a b : Word) :
    IsSum w.bits a.sign (a.value + b.value) (addUpTo w.maxMagnitude a b) := by
  rw [w.maxMagnitude_eq]
  exact isSum_addUpTo w.bits_le a b

theorem isSum_add (a b : Word) : IsSum 30 a.sign (a.value + b.value) (add a b) := by
  have limit : maxMagnitude = 2 ^ 30 - 1 := rfl
  rw [add, limit]
  exact isSum_addUpTo (Nat.le_refl 30) a b

theorem isSum_subtract (a b : Word) : IsSum 30 a.sign (a.value + -b.value) (subtract a b) := by
  rw [subtract, ← value_negate]
  exact isSum_add a b.negate

/-- **Negated operands have the negated sum**, a zero included, and overflow alike. -/
theorem addUpTo_negate (limit : Nat) (a b : Word) :
    addUpTo limit a.negate b.negate =
      ((addUpTo limit a b).1.negate, (addUpTo limit a b).2) := by
  have total : a.negate.value + b.negate.value = -(a.value + b.value) := by
    rw [value_negate, value_negate, Int.neg_add]
  have sign : (if -(a.value + b.value) = 0 then a.negate.sign else
      Sign.of (-(a.value + b.value))) =
      (if a.value + b.value = 0 then a.sign else Sign.of (a.value + b.value)).flip := by
    by_cases zero : a.value + b.value = 0
    · rw [zero, Int.neg_zero, if_pos rfl, if_pos rfl, sign_negate]
    · rw [if_neg zero, if_neg (Int.neg_ne_zero.2 zero), Sign.of_neg zero]
  unfold addUpTo
  simp only [total, sign, Int.natAbs_neg, negate_ofSignMagnitude]

/-- **The operands of a sum that is not zero may be exchanged.** -/
theorem addUpTo_comm (limit : Nat) {a b : Word} (nonzero : a.value + b.value ≠ 0) :
    addUpTo limit b a = addUpTo limit a b := by
  unfold addUpTo
  rw [Int.add_comm b.value]
  simp only [if_neg nonzero]

/-- A sum that is zero has the sign of the first operand. -/
theorem addUpTo_of_eq_zero (limit : Nat) {a b : Word} (zero : a.value + b.value = 0) :
    addUpTo limit a b = (ofSignMagnitude a.sign 0, false) := by
  unfold addUpTo
  simp only [zero, if_pos, Int.natAbs_zero, Nat.zero_and, Nat.not_lt_zero, decide_false]

end Word

/-- A sum in the width of a register fits the register, unless the register is J. -/
theorem Word.IsSum.fits {r : Register} {zeroSign : Sign} {total : Int} {sum : Word × Bool}
    (h : IsSum r.width.bits zeroSign total sum) (signed : r ≠ .j) : r.Fits sum.1 where
  proper := h.proper
  short := by
    rw [h.magnitude, r.width.capacity_eq]
    exact Nat.mod_lt _ (Nat.two_pow_pos _)
  unsigned isJ := absurd isJ signed

/-! ## Sums in registers -/

namespace Machine

variable {δ : Type} {m m' : Machine δ} {i : Instruction} {flow : Flow} {r : Register} {v : Int}

/-- The register that an instruction adds to, and the number that it adds: a field of its cell
to A, or its address, or one of them negated. -/
def Completion.addend? (c : Completion δ) : Option (Register × Int) :=
  match c.instruction.operation with
  | .arithmetic .add f => some (.a, c.operand f)
  | .arithmetic .sub f => some (.a, -c.operand f)
  | .transfer r .inc => some (r, c.address)
  | .transfer r .dec => some (r, -c.address)
  | _ => none

/-- What adds to a register is a combination of A with a field, or a transfer to the register. -/
theorem Completion.operation_of_addend? {c : Completion δ} (adds : c.addend? = some (r, v)) :
    (∃ kind f, c.instruction.operation = .arithmetic kind f ∧ r = .a) ∨
      ∃ kind, c.instruction.operation = .transfer r kind := by
  obtain ⟨m, address, index, op⟩ := c
  cases op with
  | arithmetic kind f => cases kind <;> cases adds <;> exact Or.inl ⟨_, _, rfl, rfl⟩
  | transfer held kind => cases kind <;> cases adds <;> exact Or.inr ⟨_, rfl⟩
  | _ => cases adds

/-- No instruction adds to J. -/
theorem ne_j_of_addend? {w : Word} (decoded : Instruction.decode w = .ok i)
    (adds : (Completion.mk m i).addend? = some (r, v)) : r ≠ .j := by
  rcases Completion.operation_of_addend? adds with ⟨kind, f, -, isA⟩ | ⟨kind, transfer⟩
  · rw [isA]
    exact fun same => by cases same
  · have transfer : i.operation = .transfer r kind := transfer
    refine Instruction.ne_j_of_decode decoded ?_ ?_
    · rw [transfer]
      rfl
    · intro f store
      cases transfer.symm.trans store

variable [Device δ]

/-- **An instruction that adds to a register** puts the sum in the width of the register there
and latches its overflow. -/
theorem Completes.isSum (h : Completes m (m.effectiveAddress i) i.operation flow m')
    (adds : (Completion.mk m i).addend? = some (r, v)) :
    flow = .next ∧ ∃ sum, Word.IsSum r.width.bits (m.registers.get r).sign
      ((m.registers.get r).value + v) sum ∧
      m' = { m with registers := (m.registers.set r sum.1).latchOverflow sum.2 } := by
  obtain ⟨address, index, op⟩ := i
  cases h with
  | @arithmetic kind f a cell =>
      have operand := Completion.operand_of_index (c := ⟨m, ⟨address, index, _⟩⟩) cell f
      cases kind with
      | add =>
          cases adds
          rw [operand]
          exact ⟨rfl, Word.add _ _, Word.isSum_add _ _, rfl⟩
      | sub =>
          cases adds
          rw [operand]
          exact ⟨rfl, Word.subtract _ _, Word.isSum_subtract _ _, rfl⟩
      | _ => cases adds
  | @transfer held kind =>
      have sum := Word.isSum_addUpTo_width held.width (m.registers.get held)
      cases kind with
      | inc =>
          cases adds
          exact ⟨rfl, _, sum _, rfl⟩
      | dec =>
          have difference := sum (m.effectiveAddress ⟨address, index, .transfer held .dec⟩).negate
          rw [Word.value_negate] at difference
          cases adds
          exact ⟨rfl, _, difference, rfl⟩
      | _ => cases adds
  | _ => cases adds

/-- **Sums of signs and magnitudes are exact up to their width.** The sum of any two words in
at most thirty bits is the exact sum as far as these bits go, and exact where it does not
overflow; it is odd bit for bit, and the operands may be exchanged but for the sign of a zero.
An instruction that adds to a register is completed by every machine that runs at a cell, when
its own cell is in memory; it leaves the register with this sum in its width, the toggle on
when that overflows, and everything else as it was but for the counts. -/
theorem sum_exact_up_to_width :
    (∀ (bits : Nat) (a b : Word), bits ≤ 30 →
      Word.IsSum bits a.sign (a.value + b.value) (Word.addUpTo (2 ^ bits - 1) a b) ∧
      ((Word.addUpTo (2 ^ bits - 1) a b).2 = false →
        (Word.addUpTo (2 ^ bits - 1) a b).1.value = a.value + b.value) ∧
      Word.addUpTo (2 ^ bits - 1) a.negate b.negate =
        ((Word.addUpTo (2 ^ bits - 1) a b).1.negate, (Word.addUpTo (2 ^ bits - 1) a b).2) ∧
      (a.value + b.value ≠ 0 →
        Word.addUpTo (2 ^ bits - 1) b a = Word.addUpTo (2 ^ bits - 1) a b) ∧
      (a.value + b.value = 0 →
        Word.addUpTo (2 ^ bits - 1) a b = (Word.ofSignMagnitude a.sign 0, false))) ∧
    ∀ (m : Machine δ) (a : Attempt) (i : Instruction) (r : Register) (v : Int),
      Instruction.decode (a.fetch m) = .ok i → (Completion.mk m i).addend? = some (r, v) →
      ((∃ s m', a.exec m = .ok s m') ↔
        m.state = .running ∧ m.registers.pc ≤ 3999 ∧
          ∀ f, i.operation.field? = some f → ¬ Memory.Outside (m.effectiveAddress i).value) ∧
      ∀ s m', a.exec m = .ok s m' → ∃ sum,
        Word.IsSum r.width.bits (m.registers.get r).sign ((m.registers.get r).value + v) sum ∧
        m'.registers.get r = sum.1 ∧
        m' = retire i m.registers.pc .next
          { m with registers := (m.registers.set r sum.1).latchOverflow sum.2 } := by
  constructor
  · intro bits a b short
    have sum := Word.isSum_addUpTo short a b
    exact ⟨sum, sum.value_eq, Word.addUpTo_negate _ a b, Word.addUpTo_comm _,
      Word.addUpTo_of_eq_zero _⟩
  · intro m a i r v decoded adds
    constructor
    · refine Attempt.completes_iff decoded ?_
      rcases Completion.operation_of_addend? adds with ⟨kind, f, arithmetic, -⟩ | ⟨kind, transfer⟩
      · refine Or.inl ?_
        rw [arithmetic]
        exact Option.some_ne_none f
      · exact Or.inr ⟨r, kind, transfer⟩
    · intro s m' run
      rcases Attempt.completes_fetched run decoded with ⟨flow, done, completes, -, rfl⟩
      rcases completes.isSum adds with ⟨rfl, sum, isSum, rfl⟩
      have held := Registers.narrow_of_fits (isSum.fits (ne_j_of_addend? decoded adds))
      refine ⟨sum, isSum, ?_, rfl⟩
      simp only [retire, Registers.latchOverflow, Registers.get_mk_flags, Registers.get_set_self]
      exact held

/-- Negative zero and zero sum up to negative zero, and 4000 and 100 overflow the first index
register, which keeps 4100 - 4096. -/
theorem sum_exact_up_to_width_half :
    Word.addUpTo (2 ^ 12 - 1) Word.zero.negate .zero = (Word.zero.negate, false) ∧
    ∃ m', (Attempt.word (Instruction.assemble 100 0 0 (Opcode.transfer + 1))).exec
        ((Call.setRegister .i1 ⟨4000⟩).apply .standard) = .ok .running m' ∧
      m'.registers.get .i1 = ⟨4⟩ ∧ m'.registers.overflow = true := by
  obtain ⟨words, registers⟩ := sum_exact_up_to_width (δ := Buffer)
  obtain ⟨-, -, -, -, zero⟩ := words 12 Word.zero.negate .zero (by decide)
  refine ⟨zero (by decide), ?_⟩
  have decoded : Instruction.decode (Instruction.assemble 100 0 0 (Opcode.transfer + 1)) =
      .ok ⟨Instruction.addressOf 100, 0, .transfer .i1 .inc⟩ := rfl
  obtain ⟨completes, result⟩ := registers ((Call.setRegister .i1 ⟨4000⟩).apply .standard)
    (.word _) _ .i1 100 decoded rfl
  obtain ⟨s, m', run⟩ := completes.2 ⟨rfl, by decide, fun f none => by cases none⟩
  obtain ⟨sum, isSum, held, rfl⟩ := result s m' run
  obtain ⟨-, rfl, -⟩ := Attempt.exec_eq_ok_iff.1 run
  have four : sum.1 = ⟨4⟩ :=
    Word.Proper.ext isSum.proper (by decide) isSum.sign isSum.magnitude
  have overflows : sum.2 = true := isSum.overflow_iff.2 (by decide +kernel)
  refine ⟨_, run, held.trans four, ?_⟩
  rw [overflows]
  rfl

end Machine

end MixMachine
