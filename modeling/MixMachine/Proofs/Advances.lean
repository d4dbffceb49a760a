import MixMachine.Proofs.Moves
import MixMachine.Proofs.NegatedLoads
import MixMachine.Proofs.Sums

/-!
# What a move leaves in I1

A move adds its count to I1, as an increment does, but it makes the sum its own way: it takes
the exact number behind the target and builds a word from it. The two agree in every bit as
long as the sum is not zero. A sum of zero keeps the sign of I1 in an increment and is a plain
zero behind a move. That is where the two part: a move of no words to the address that negative
zero stands for turns I1 into zero.

* `Word.IsSum.eq_of_nonneg`: a sum that is a natural number, as a word.
* `Word.Proper.ofSignMagnitude_add`: the two ways to make a sum.
* `Machine.Completes.of_move`: what a move does with I1.
* `Machine.move_advances_i1`: the move against the increment.
* `Machine.move_loses_minus_zero`: the case in which they differ.
-/

namespace MixMachine

/-- A sum that is a natural number within the width has a plus sign, but for a zero. -/
theorem Word.IsSum.eq_of_nonneg {bits n : Nat} {zeroSign : Sign} {sum : Word × Bool}
    (h : IsSum bits zeroSign n sum) (fits : n < 2 ^ bits) (short : n < 0x40000000) :
    sum.1 = ofSignMagnitude (if n = 0 then zeroSign else .plus) n := by
  refine h.proper.ext (proper_ofSignMagnitude _ _) ?_ ?_
  · rw [h.sign, sign_ofSignMagnitude, Sign.of_natCast]
    exact if_congr Int.natCast_eq_zero rfl rfl
  · rw [h.magnitude, magnitude_ofSignMagnitude, Int.natAbs_natCast, Nat.mod_eq_of_lt fits,
      Nat.mod_eq_of_lt short]

/-- A word for a natural number has a plus sign, or it is negative zero. -/
theorem Word.Proper.eq_of_value {w : Word} {n : Nat} (proper : w.Proper) (value : w.value = n) :
    w = ofSignMagnitude .plus n ∨ (n = 0 ∧ w = zero.negate) := by
  have magnitude : w.magnitude = n := by rw [← w.natAbs_value, value, Int.natAbs_natCast]
  have made : ofSignMagnitude w.sign n = w := by rw [← magnitude]; exact proper.canonical_eq
  cases sign : w.sign with
  | plus => exact .inl (by rw [← made, sign])
  | minus =>
      rw [Word.value, sign, magnitude] at value
      obtain rfl : n = 0 := by
        simp only [Sign.apply] at value
        omega
      exact .inr ⟨rfl, by rw [← made, sign]; rfl⟩

/-- **A sum that is made from its number against one that keeps the sign of a zero**: they are
the same word, but for nothing added to negative zero. -/
theorem Word.Proper.ofSignMagnitude_add {w : Word} {n k : Nat} (proper : w.Proper)
    (value : w.value = n) :
    ofSignMagnitude .plus (n + k) =
      if k = 0 ∧ w = zero.negate then zero
      else ofSignMagnitude (if n + k = 0 then w.sign else .plus) (n + k) := by
  rcases proper.eq_of_value value with rfl | ⟨rfl, rfl⟩
  · have other : ¬ (k = 0 ∧ ofSignMagnitude .plus n = zero.negate) := by
      rintro ⟨-, minusZero⟩
      have signs := congrArg Word.sign minusZero
      rw [sign_ofSignMagnitude] at signs
      exact absurd signs (by decide)
    rw [if_neg other, sign_ofSignMagnitude, ite_self]
  · by_cases nothing : k = 0
    · rw [if_pos ⟨nothing, rfl⟩, nothing]
      rfl
    · rw [if_neg fun both => nothing both.1, Nat.zero_add, if_neg nothing]

/-- There is an increment of I1 by every count of a move. -/
theorem Instruction.exists_increment {count : Nat} (byte : count < 64) :
    ∃ w, decode w = .ok ⟨Word.ofSignMagnitude .plus count, 0, .transfer .i1 .inc⟩ := by
  have short : (Word.ofSignMagnitude .plus count).magnitude < 4096 := by
    rw [Word.magnitude_ofSignMagnitude]
    omega
  have increment : Operation.decode (Opcode.transfer + 1) 0 = .ok (.transfer .i1 .inc) := rfl
  have packed := decode_pack (Word.proper_ofSignMagnitude .plus count) short (Nat.zero_le 6)
    (Nat.zero_lt_succ 63) (by decide : Opcode.transfer + 1 < 64)
  rw [increment] at packed
  exact ⟨_, packed⟩

/-- A register that is set to its own word stays as it is. -/
theorem Registers.set_get {rs : Registers} {r : Register} (fits : r.Fits (rs.get r)) :
    rs.set r (rs.get r) = rs := by
  have kept := narrow_of_fits fits
  cases r with
  | i k =>
      show { rs with i := rs.i.set k.val (narrow (.i k) (rs.get (.i k))) k.isLt } = rs
      rw [kept]
      exact congrArg (fun i => { rs with i }) (Vector.set_getElem_self k.isLt)
  | a => exact congrArg (fun a => { rs with a }) kept
  | x => exact congrArg (fun x => { rs with x }) kept
  | j => exact congrArg (fun j => { rs with j }) kept

namespace Machine

section Move

variable {δ : Type} [Device δ] {m m' : Machine δ} {ea : Word} {count : Nat} {flow : Flow}

/-- **A move puts the address behind its target into I1**, and does nothing else to the
registers. -/
theorem Completes.of_move (h : Completes m ea (.move count) flow m') (byte : count < 64)
    (apart : ea.value ≠ (m.registers.get .i1).value) :
    flow = .next ∧ ∃ target : Nat, (m.registers.get .i1).value = target ∧
      target + count ≤ memorySize ∧
      m'.registers = m.registers.set .i1 (Word.ofSignMagnitude .plus (target + count)) := by
  cases h with
  | moveSame same => exact absurd same apart
  | @move _ source target s t _ sourceBlock targetBlock =>
      have size : memorySize = 4000 := rfl
      obtain ⟨number, -, inside, rfl⟩ := Memory.block_of_short targetBlock (by omega)
      exact ⟨rfl, target, number, inside, rfl⟩

/-- **An increment of I1** by a count that leaves an address, as an instruction. A sum of zero
keeps the sign of I1. -/
theorem Attempt.exec_increment {a : Attempt} {i : Instruction} {target : Nat}
    (running : m.state = .running) (inside : m.registers.pc < memorySize)
    (decoded : Instruction.decode (a.fetch m) = .ok i)
    (increments : i.operation = .transfer .i1 .inc)
    (address : (m.effectiveAddress i).value = count)
    (held : (m.registers.get .i1).value = target) (room : target + count ≤ memorySize) :
    ∃ m', a.exec m = .ok .running m' ∧
      m'.registers.get .i1 = Word.ofSignMagnitude
        (if target + count = 0 then (m.registers.get .i1).sign else .plus) (target + count) := by
  have size : memorySize = 4000 := rfl
  have adds : (Completion.mk m i).addend? = some (.i1, (count : Int)) := by
    obtain ⟨part, index, op⟩ := i
    cases increments
    exact congrArg (fun v => some (Register.i1, v)) address
  have completes : Completes m (m.effectiveAddress i) i.operation .next
      { m with registers := m.registers.transfer .i1 .inc (m.effectiveAddress i) } := by
    rw [increments]
    exact .transfer
  have run := completes.exec running inside decoded running
  obtain ⟨-, sum, isSum, left⟩ := completes.isSum adds
  rw [left] at run
  refine ⟨_, run, ?_⟩
  have signed : Register.i1 ≠ .j := nofun
  have kept := Registers.narrow_of_fits (isSum.fits signed)
  rw [held, ← Int.natCast_add] at isSum
  have bits : 2 ^ Register.i1.width.bits = 4096 := rfl
  simp only [retire, Registers.latchOverflow, Registers.get_mk_flags, Registers.get_set_self]
  exact kept.trans (isSum.eq_of_nonneg (by omega) (by omega))

end Move

variable {calls : List Call} {m m' : Machine Buffer} {a : Attempt} {i : Instruction}
  {count : Nat} {s : RunState}

/-- **A move advances I1 as an increment would, negative zero apart.** Let a reached machine
complete a move of `count` words that are not yet in their place. There is an increment of I1 by
`count`, and the machine would complete any such increment; I1 holds bit for bit the word that
the increment leaves there, unless it held negative zero and no word is moved: then the increment
keeps negative zero and the move leaves zero. No other register changes, so a move of no words
changes no register but the program counter, the same case apart. -/
theorem move_advances_i1 (reached : Reached calls m)
    (decoded : Instruction.decode (a.fetch m) = .ok i) (moves : i.operation = .move count)
    (apart : m.exactAddress i ≠ (m.registers.get .i1).value) (run : a.exec m = .ok s m') :
    (∃ w j, Instruction.decode w = .ok j ∧ j.operation = .transfer .i1 .inc ∧
      m.effectiveAddress j = Word.ofSignMagnitude .plus count) ∧
    (∀ (b : Attempt) j, Instruction.decode (b.fetch m) = .ok j → j.operation = .transfer .i1 .inc →
      m.effectiveAddress j = Word.ofSignMagnitude .plus count →
      ∃ m₂, b.exec m = .ok .running m₂ ∧
        (m₂.registers.get .i1).value = (m.registers.get .i1).value + count ∧
        m'.registers.get .i1 =
          if count = 0 ∧ m.registers.get .i1 = Word.zero.negate then .zero
          else m₂.registers.get .i1) ∧
    m'.registers =
      { m.registers.set .i1 (m'.registers.get .i1) with pc := m.registers.pc + 1 } ∧
    (count = 0 → m.registers.get .i1 ≠ Word.zero.negate →
      m'.registers = { m.registers with pc := m.registers.pc + 1 }) := by
  have size : memorySize = 4000 := rfl
  have fit := reached.fit
  have exact_address := value_effectiveAddress fit decoded
  have byte := Instruction.count_lt_of_decode decoded moves
  obtain ⟨running, -, inside, completes⟩ := Attempt.performs_fetched run decoded
  rw [moves] at completes
  obtain ⟨rfl, target, held, room, registers⟩ := completes.of_move byte (by rwa [exact_address])
  have moved : (m.registers.set .i1 (Word.ofSignMagnitude .plus (target + count))).get .i1 =
      Word.ofSignMagnitude .plus (target + count) := by
    rw [Registers.get_set_self, Registers.narrow_of_fits (fits_i1 room)]
  simp only [retire, registers, Registers.get_mk_flags, moved]
  refine ⟨?_, ?_, rfl, ?_⟩
  · obtain ⟨w, increment⟩ := Instruction.exists_increment byte
    exact ⟨w, _, increment, rfl, rfl⟩
  · intro b j decodedInc increments address
    have number : (m.effectiveAddress j).value = count := by
      rw [address, Word.value_plus (by omega)]
    obtain ⟨m₂, increment, advanced⟩ :=
      Attempt.exec_increment running inside decodedInc increments number held room
    refine ⟨m₂, increment, ?_, ?_⟩
    · rw [advanced, held, ← Int.natCast_add, Word.value_of_natCast (by omega)]
    · rw [advanced]
      exact (fit .i1).proper.ofSignMagnitude_add held
  · rintro rfl other
    rcases (fit .i1).proper.eq_of_value held with plus | ⟨-, minusZero⟩
    · rw [Nat.add_zero, ← plus, Registers.set_get (fit .i1)]
      rfl
    · exact absurd minusZero other

/-- The initial machine with a word in I1. -/
def pointing (w : Word) : Machine Buffer :=
  (Call.setRegister .i1 w).apply .standard

/-- A move from 1000 on to the cells that I1 points to. -/
theorem exec_move_pointing {w : Word} {n target : Nat}
    (decoded : Instruction.decode (Instruction.assemble 1000 0 n Opcode.move) =
      .ok ⟨Instruction.addressOf 1000, 0, .move n⟩)
    (held : ((pointing w).registers.get .i1).value = target) (apart : target ≠ 1000)
    (source : 1000 + n ≤ memorySize) (inside : target < memorySize)
    (room : target + n ≤ memorySize) :
    ∃ m', (Attempt.word (Instruction.assemble 1000 0 n Opcode.move)).exec (pointing w) =
        .ok .running m' ∧
      m'.registers.get .i1 = Word.ofSignMagnitude .plus (target + n) := by
  have pc : (pointing w).registers.pc < memorySize := (by decide : 0 < 4000)
  have elsewhere : (Instruction.addressOf 1000).value ≠ ((pointing w).registers.get .i1).value := by
    rw [held]
    exact fun same => apart (Int.ofNat_inj.1 same).symm
  have completes : Completes (pointing w) (Instruction.addressOf 1000) (.move n) .next _ :=
    .move_inside elsewhere rfl held (by decide : 1000 < memorySize) inside source room
  refine ⟨_, completes.exec (a := .word _) rfl pc decoded rfl, ?_⟩
  simp only [retire, Registers.get_mk_flags, Registers.get_set_self]
  exact Registers.narrow_of_fits (fits_i1 room)

/-- A move of five words and an increment by five take I1 from 12 to the same word. -/
theorem move_advances_i1_five :
    ∃ m₁ m₂,
      (Attempt.word (Instruction.assemble 1000 0 5 Opcode.move)).exec (pointing ⟨12⟩) =
        .ok .running m₁ ∧
      (Attempt.word (Instruction.assemble 5 0 0 (Opcode.transfer + 1))).exec (pointing ⟨12⟩) =
        .ok .running m₂ ∧
      m₁.registers.get .i1 = m₂.registers.get .i1 ∧ (m₂.registers.get .i1).value = 17 := by
  have move : Instruction.decode (Instruction.assemble 1000 0 5 Opcode.move) =
      .ok ⟨Instruction.addressOf 1000, 0, .move 5⟩ := rfl
  have increment : Instruction.decode (Instruction.assemble 5 0 0 (Opcode.transfer + 1)) =
      .ok ⟨Instruction.addressOf 5, 0, .transfer .i1 .inc⟩ := rfl
  have twelve : ((pointing ⟨12⟩).registers.get .i1).value = (12 : Nat) := rfl
  obtain ⟨m₁, run₁, -⟩ := exec_move_pointing move (w := ⟨12⟩) twelve (by decide)
    (by decide) (by decide) (by decide)
  obtain ⟨-, increments, -, -⟩ := move_advances_i1 (a := .word _)
    (Reached.standard.call (.setRegister .i1 ⟨12⟩)) move rfl (by decide) run₁
  obtain ⟨m₂, run₂, value, same⟩ := increments (.word _) _ increment rfl rfl
  exact ⟨m₁, m₂, run₁, run₂, same, value⟩

/-- **Negative zero in I1 is lost by a move of no words**: the increment by zero keeps it, the
move leaves zero, which is another word, and so changes more than the program counter. -/
theorem move_loses_minus_zero :
    Reached [.setRegister .i1 Word.zero.negate] (pointing Word.zero.negate) ∧
    (pointing Word.zero.negate).exactAddress ⟨Instruction.addressOf 1000, 0, .move 0⟩ ≠
      ((pointing Word.zero.negate).registers.get .i1).value ∧
    ∃ m₁ m₂,
      (Attempt.word (Instruction.assemble 1000 0 0 Opcode.move)).exec
        (pointing Word.zero.negate) = .ok .running m₁ ∧
      (Attempt.word (Instruction.assemble 0 0 0 (Opcode.transfer + 1))).exec
        (pointing Word.zero.negate) = .ok .running m₂ ∧
      m₁.registers.get .i1 = .zero ∧ m₂.registers.get .i1 = Word.zero.negate ∧
      m₁.registers.get .i1 ≠ m₂.registers.get .i1 ∧
      m₁.registers ≠ { (pointing Word.zero.negate).registers with pc := 1 } := by
  have move : Instruction.decode (Instruction.assemble 1000 0 0 Opcode.move) =
      .ok ⟨Instruction.addressOf 1000, 0, .move 0⟩ := rfl
  have increment : Instruction.decode (Instruction.assemble 0 0 0 (Opcode.transfer + 1)) =
      .ok ⟨Instruction.addressOf 0, 0, .transfer .i1 .inc⟩ := rfl
  have held : ((pointing Word.zero.negate).registers.get .i1).value = (0 : Nat) := rfl
  have adds : ((pointing Word.zero.negate).effectiveAddress
      ⟨Instruction.addressOf 0, 0, .transfer .i1 .inc⟩).value = (0 : Nat) := rfl
  have room : 0 < memorySize := by decide
  obtain ⟨m₁, run₁, moved⟩ := exec_move_pointing move held (by decide) (by decide) room (by decide)
  obtain ⟨m₂, run₂, added⟩ := Attempt.exec_increment (a := .word _) rfl room increment rfl adds held
    (by decide)
  have zero : m₁.registers.get .i1 = .zero := moved
  have minusZero : m₂.registers.get .i1 = Word.zero.negate := added
  have apart : Word.zero ≠ Word.zero.negate := by decide
  refine ⟨Reached.standard.call _, by decide, m₁, m₂, run₁, run₂, zero, minusZero, ?_, ?_⟩
  · rw [zero, minusZero]
    exact apart
  · intro same
    have unchanged := congrArg (Registers.get · .i1) same
    exact apart (zero.symm.trans unchanged)

end Machine

end MixMachine
