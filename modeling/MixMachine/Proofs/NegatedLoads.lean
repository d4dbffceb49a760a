import MixMachine.Proofs.Encoding
import MixMachine.Proofs.FailureConditions
import MixMachine.Proofs.Histories
import MixMachine.Proofs.Reachable

/-!
# Loads with the other sign

A negative load gives the cell the other sign before it reads the field. What the register
gets of it depends on the field: one with the sign position hands the new sign on, and any
other reads a plus sign from the cell, whatever its sign is. So behind a negative load the
register holds the negated word of the plain load, or that word itself.

* `Field.extract_negate`, `Registers.narrow_negate`: negation against the two things that
  happen to a loaded word.
* `Machine.loadNegative_of_load`: the two loads compared, on every machine.
-/

namespace MixMachine

/-- A field hands the other sign on when it has the sign position. -/
theorem Field.extract_negate (f : Field) (w : Word) :
    f.extract w.negate = if f.left = 0 then (f.extract w).negate else f.extract w := by
  unfold extract includesSign
  rw [Word.sign_negate, Word.magnitude_negate]
  by_cases signed : f.left = 0
  · rw [signed]
    exact (Word.negate_ofSignMagnitude _ _).symm
  · have unsigned : (f.left == 0) = false := beq_eq_false_iff_ne.2 signed
    rw [unsigned, if_neg signed]
    rfl

namespace Registers

variable {r : Register}

/-- A register with a sign keeps the other sign of a value. -/
theorem narrow_negate (signed : r ≠ .j) (v : Word) :
    narrow r v.negate = (narrow r v).negate := by
  rw [narrow, narrow, if_neg signed, if_neg signed, Word.negate_ofSignMagnitude,
    Word.sign_negate, Word.magnitude_negate]

/-- A register takes what it keeps of a value for the value itself. -/
theorem set_narrow (rs : Registers) (r : Register) (v : Word) :
    rs.set r (narrow r v) = rs.set r v := by
  unfold set
  rw [narrow_of_fits (narrow_fits r v)]

/-- Only the last value that a register is set to counts. -/
theorem set_set (rs : Registers) (r : Register) (v w : Word) :
    (rs.set r v).set r w = rs.set r w := by
  cases r with
  | i k => exact congrArg (fun i => { rs with i }) (Vector.set_set ..)
  | _ => rfl

theorem set_withPc (rs : Registers) (pc : Nat) (r : Register) (v : Word) :
    ({ rs with pc } : Registers).set r v = { rs.set r v with pc } := by
  cases r <;> rfl

end Registers

namespace Machine

variable {δ : Type} [Device δ] {m : Machine δ} {a b : Attempt} {i j : Instruction}
  {r : Register} {f : Field}

/-- **The negative load against the plain one**, for one register, one field and one cell.
Both complete on a machine that runs at a cell when their own cell is in memory, and never
else. The negative load leaves the register with the word that the plain one leaves there,
negated when the field has the sign position; the machine is the same apart from this register
and the instruction it remembers. -/
theorem loadNegative_of_load (decodedLoad : Instruction.decode (a.fetch m) = .ok i)
    (load : i.operation = .load r f) (decodedNegative : Instruction.decode (b.fetch m) = .ok j)
    (negative : j.operation = .loadNegative r f)
    (sameCell : (m.effectiveAddress j).value = (m.effectiveAddress i).value) :
    ((∃ s m', a.exec m = .ok s m') ↔
      m.state = .running ∧ m.registers.pc ≤ 3999 ∧
        ¬ Memory.Outside (m.effectiveAddress i).value) ∧
    ((∃ s m', b.exec m = .ok s m') ↔ ∃ s m', a.exec m = .ok s m') ∧
    ∀ s₁ m₁ s₂ m₂, a.exec m = .ok s₁ m₁ → b.exec m = .ok s₂ m₂ →
      s₂ = s₁ ∧
      m₂.registers.get r =
        (if f.left = 0 then (m₁.registers.get r).negate else m₁.registers.get r) ∧
      m₂ = { m₁ with
        registers := m₁.registers.set r (m₂.registers.get r)
        last := some j } := by
  have loads := Attempt.completes_iff_of_field (f := f) decodedLoad (by rw [load]; rfl)
  have negatives := Attempt.completes_iff_of_field (f := f) decodedNegative
    (by rw [negative]; rfl)
  rw [sameCell] at negatives
  refine ⟨loads, negatives.trans loads.symm, ?_⟩
  intro s₁ m₁ s₂ m₂ run₁ run₂
  rcases Attempt.completes_fetched run₁ decodedLoad with ⟨flow₁, done₁, completes₁, rfl, rfl⟩
  rcases Attempt.completes_fetched run₂ decodedNegative with ⟨flow₂, done₂, completes₂, rfl, rfl⟩
  have signed : r ≠ .j := by
    refine Instruction.ne_j_of_decode decodedLoad ?_ ?_
    · rw [load]
      rfl
    · intro g store
      cases load.symm.trans store
  rw [load] at completes₁
  rw [negative] at completes₂
  cases completes₁ with
  | @load _ _ c cell₁ =>
  cases completes₂ with
  | loadNegative cell₂ =>
  cases (cell₂.symm.trans (congrArg Memory.index sameCell)).trans cell₁
  refine ⟨rfl, ?_, ?_⟩
  · simp only [retire, Registers.get_mk_flags, Registers.get_set_self]
    rw [Field.extract_negate]
    split
    · exact Registers.narrow_negate signed _
    · rfl
  · simp only [retire, Registers.get_mk_flags, Registers.get_set_self, Registers.set_withPc,
      Registers.set_set, Registers.set_narrow, load, negative]
    rfl

/-- A machine with the word `w` at 2000. -/
def holding (w : Word) : Machine Buffer :=
  (Call.loadWord 2000 w).apply .standard

theorem cell_holding (w : Word) : (holding w).memory.cell 2000 = w :=
  Memory.cell_put_self _ (by decide) w

/-- An instruction that puts a value in a register and does nothing else. -/
theorem exec_holding {v w value : Word} {op : Operation}
    (decoded : Instruction.decode v = .ok ⟨Instruction.addressOf 2000, 0, op⟩)
    (completes : Completes (holding w) (Instruction.addressOf 2000) op .next
      { holding w with registers := (holding w).registers.set r value }) :
    ∃ m', (Attempt.word v).exec (holding w) = .ok .running m' ∧
      m'.registers.get r = Registers.narrow r value := by
  have inside : 0 < memorySize := by decide
  refine ⟨_, completes.exec (a := .word v) rfl inside decoded rfl, ?_⟩
  simp only [retire, Registers.get_mk_flags, Registers.get_set_self]

/-- The second index register gets the two low bytes of a word and its sign, and behind a
negative load the other sign. -/
theorem loadNegative_of_load_half :
    ∃ m₁ m₂,
      (Attempt.word (Instruction.assemble 2000 0 5 (Opcode.load + 2))).exec
        (holding ⟨0x41083105⟩) = .ok .running m₁ ∧
      (Attempt.word (Instruction.assemble 2000 0 5 (Opcode.loadNegative + 2))).exec
        (holding ⟨0x41083105⟩) = .ok .running m₂ ∧
      m₁.registers.get (.i 1) = ⟨0x40000105⟩ ∧ m₂.registers.get (.i 1) = ⟨0x00000105⟩ := by
  have load : Instruction.decode (Instruction.assemble 2000 0 5 (Opcode.load + 2)) =
      .ok ⟨Instruction.addressOf 2000, 0, .load (.i 1) .full⟩ := rfl
  have negative : Instruction.decode (Instruction.assemble 2000 0 5 (Opcode.loadNegative + 2)) =
      .ok ⟨Instruction.addressOf 2000, 0, .loadNegative (.i 1) .full⟩ := rfl
  obtain ⟨m₁, run₁, loaded⟩ := exec_holding (w := ⟨0x41083105⟩) load (.load (a := 2000) rfl)
  rw [cell_holding] at loaded
  have word : m₁.registers.get (.i 1) = ⟨0x40000105⟩ := loaded.trans (by decide)
  obtain ⟨-, negatives, compared⟩ :=
    loadNegative_of_load (m := holding ⟨0x41083105⟩) (a := .word _) (b := .word _) load rfl
      negative rfl rfl
  obtain ⟨s₂, m₂, run₂⟩ := negatives.2 ⟨_, m₁, run₁⟩
  obtain ⟨same, other, -⟩ := compared _ m₁ s₂ m₂ run₁ run₂
  rw [word] at other
  subst same
  exact ⟨m₁, m₂, run₁, run₂, word, other.trans (by decide)⟩

/-- **A field without the sign position is loaded with the same sign by both loads**: with a 1
in the cell they leave A with the same word, which is not its own negation. -/
theorem loadNegative_ne_negate :
    Reached [.loadWord 2000 ⟨1⟩] (holding ⟨1⟩) ∧ (holding ⟨1⟩).state = .running ∧
    ∃ m₁ m₂,
      (Attempt.word (Instruction.assemble 2000 0 13 Opcode.load)).exec (holding ⟨1⟩) =
        .ok .running m₁ ∧
      (Attempt.word (Instruction.assemble 2000 0 13 Opcode.loadNegative)).exec (holding ⟨1⟩) =
        .ok .running m₂ ∧
      m₂.registers.get .a ≠ (m₁.registers.get .a).negate := by
  have load : Instruction.decode (Instruction.assemble 2000 0 13 Opcode.load) =
      .ok ⟨Instruction.addressOf 2000, 0, .load .a ⟨1, 5⟩⟩ := rfl
  have negative : Instruction.decode (Instruction.assemble 2000 0 13 Opcode.loadNegative) =
      .ok ⟨Instruction.addressOf 2000, 0, .loadNegative .a ⟨1, 5⟩⟩ := rfl
  obtain ⟨m₁, run₁, loaded⟩ := exec_holding (w := ⟨1⟩) load (.load (a := 2000) rfl)
  obtain ⟨m₂, run₂, negated⟩ := exec_holding (w := ⟨1⟩) negative (.loadNegative (a := 2000) rfl)
  rw [cell_holding] at loaded negated
  refine ⟨.call _ .standard, rfl, m₁, m₂, run₁, run₂, ?_⟩
  rw [loaded, negated]
  decide

end Machine

end MixMachine
