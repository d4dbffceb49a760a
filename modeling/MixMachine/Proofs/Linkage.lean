import MixMachine.Proofs.Encoding
import MixMachine.Proofs.FailureConditions

/-!
# How a subroutine returns

A machine has no stack. A jump leaves the address behind it in J, and the subroutine that
it leads to stores J into the address of a jump of its own, its exit. Three instructions
share the work: the jump writes J, the store puts J into two bytes and the sign of a word
that is an instruction, and that word, read as an instruction again, leads back.

* `Field.insert_address`: a word with another address keeps its last three bytes.
* `Instruction.decode_insert_address`: it holds the same instruction with that address.
* `Machine.step_of_takesJump`: a jump that is taken links, whatever its kind.
* `Machine.subroutine_returns`: the call of a subroutine, and its return.
-/

namespace MixMachine

/-! ## An instruction with another address -/

/-- A word with another address is packed from the address and its last three bytes. -/
theorem Field.insert_address (w v : Word) :
    Field.address.insert w v = Instruction.pack v (w.byte 3) (w.byte 4) (w.byte 5) := by
  have weight : Field.address.weight = 262144 := rfl
  have capacity : Field.address.capacity = 4096 := rfl
  have short := w.magnitude_lt
  have byte3 : w.byte 3 = w.magnitude / 4096 % 64 := rfl
  have byte4 : w.byte 4 = w.magnitude / 64 % 64 := rfl
  have byte5 : w.byte 5 = w.magnitude / 1 % 64 := rfl
  refine Word.Proper.ext (Word.proper_ofSignMagnitude _ _) (Word.proper_ofSignMagnitude _ _) ?_ ?_
  · rw [Instruction.sign_pack]
    exact Word.sign_ofSignMagnitude _ _
  · rw [Instruction.magnitude_pack v (w.byte_lt 3) (w.byte_lt 4) (w.byte_lt 5), insert,
      Word.magnitude_ofSignMagnitude, weight, capacity]
    omega

namespace Instruction

/-- **An instruction into which an address is stored is the same instruction with that
address.** -/
theorem decode_insert_address {w address : Word} {i : Instruction} (decoded : decode w = .ok i)
    (proper : address.Proper) (short : address.magnitude < 4096) :
    decode (Field.address.insert w address) = .ok { i with address } := by
  obtain ⟨selector, -, index, operation⟩ := of_decode decoded
  rw [Field.insert_address, decode_pack proper short selector (w.byte_lt 4) (w.byte_lt 5),
    operation, ← index]
  rfl

end Instruction

namespace Machine

variable {δ : Type} [Device δ] {m m' : Machine δ} {i : Instruction}

/-! ## Jumps that are taken -/

/-- A jump that is taken goes to its effective address and changes nothing but registers. -/
theorem Completes.of_takesJump {ea : Word} {op : Operation} {a : Nat} (taken : m.takesJump op)
    (target : Memory.index ea.value = .ok a) :
    ∃ rs : Registers, Completes m ea op (.jump a) { m with registers := rs } := by
  cases op with
  | jump condition => exact ⟨_, .jump taken target⟩
  | jumpRegister r test => exact ⟨_, .registerJump taken target⟩
  | device op unit =>
      obtain ⟨d, attached, when⟩ := taken
      exact ⟨_, .deviceJump (Devices.find_eq_ok_iff.2 attached) when target⟩
  | _ => cases taken

/-! ## The three steps -/

/-- The machine runs and has this instruction in the cell at its program counter. -/
structure Fetches (m : Machine δ) (i : Instruction) : Prop where
  running : m.state = .running
  inside : m.registers.pc < memorySize
  decoded : Instruction.decode (m.memory.cell m.registers.pc) = .ok i

/-- A step completes the instruction that the machine fetches. -/
theorem Fetches.step {flow : Flow} (fetches : m.Fetches i)
    (completes : Completes m (m.effectiveAddress i) i.operation flow m')
    (runs : m'.state = .running) :
    Machine.step m = .ok .running (retire i m.registers.pc flow m') := by
  have run := (Performs.intro fetches.inside completes).step fetches.running fetches.decoded
  exact run.trans (congrArg (EStateM.Result.ok · _) runs)

/-- The jump: control goes to its target, and J holds the address behind it. -/
theorem step_of_takesJump {q : Nat} (fetches : m.Fetches i) (taken : m.takesJump i.operation)
    (links : i.operation ≠ .jump .jsj) (target : (m.effectiveAddress i).value = q)
    (entry : q < memorySize) :
    ∃ m₁, step m = .ok .running m₁ ∧ m₁.state = .running ∧ m₁.memory = m.memory ∧
      m₁.registers.pc = q ∧
      m₁.registers.get .j = Word.ofSignMagnitude .plus (m.registers.pc + 1) := by
  have cell : Memory.index (m.effectiveAddress i).value = .ok q :=
    Memory.index_eq_ok_iff.2 ⟨target, entry⟩
  obtain ⟨rs, completes⟩ := Completes.of_takesJump taken cell
  have linked := completes.get_j_of_jump links fetches.inside
  refine ⟨_, fetches.step completes fetches.running, fetches.running, rfl, rfl, ?_⟩
  exact (Registers.get_mk_flags rs ..).trans linked

/-- The store: the register goes into the address of a cell, and control to the next cell. -/
theorem step_of_store_address {r : Register} {e : Nat} (fetches : m.Fetches i)
    (stores : i.operation = .store r .address) (target : (m.effectiveAddress i).value = e)
    (cell : e < memorySize) :
    ∃ m₁, step m = .ok .running m₁ ∧
      m₁.registers = { m.registers with pc := m.registers.pc + 1 } ∧
      m₁.memory =
        m.memory.put e (Field.address.insert (m.memory.cell e) (m.registers.get r)) := by
  obtain ⟨address, index, op⟩ := i
  cases stores
  have completes := Completes.store (m := m) (r := r) (f := .address)
    (Memory.index_eq_ok_iff.2 ⟨target, cell⟩)
  exact ⟨_, fetches.step completes fetches.running, rfl, rfl⟩

/-- The jump back: control goes to the address in the word. -/
theorem step_of_jump_plain {a : Nat} (fetches : m.Fetches i)
    (jumps : i.operation = .jump .jmp) (plain : i.index = 0)
    (target : i.address.value = a) (cell : a < memorySize) :
    ∃ m₁, step m = .ok .running m₁ ∧ m₁.registers.pc = a := by
  have taken : m.takesJump i.operation := by
    rw [jumps]
    rfl
  have links : i.operation ≠ .jump .jsj := by
    rw [jumps]
    decide
  have address : (m.effectiveAddress i).value = a := by
    have none : i.indexRegister? = none := by
      rw [Instruction.indexRegister?, plain]
      rfl
    rw [effectiveAddress, none]
    exact target
  obtain ⟨m₁, run, -, -, counter, -⟩ :=
    step_of_takesJump fetches taken links address cell
  exact ⟨m₁, run, counter⟩

/-! ## Calls -/

/-- The machine calls the subroutine at `q` from the cell `p`: it runs and takes a jump
that links, to `q`, where J is stored into the address of the jump in the cell `e`. That
jump, of any address, is the exit of the subroutine. -/
structure CallsSubroutine (m : Machine δ) (p q e : Nat) : Prop where
  running : m.state = .running
  counter : m.registers.pc = p
  notLast : p ≤ 3998
  jump : ∃ i, Instruction.decode (m.memory.cell p) = .ok i ∧ m.takesJump i.operation ∧
    i.operation ≠ .jump .jsj ∧ (m.effectiveAddress i).value = q
  entry : q ≤ 3999
  store : ∃ i, Instruction.decode ((step.after m).memory.cell q) = .ok i ∧
    i.operation = .store .j .address ∧ ((step.after m).effectiveAddress i).value = e
  inMemory : e ≤ 3999
  exit : ∃ i, Instruction.decode ((step.after m).memory.cell e) = .ok i ∧
    i.operation = .jump .jmp ∧ i.index = 0

/-- **A subroutine returns behind its call.** The jump and the store of J succeed, and the
exit then is the jump it was, to the address behind the call; no other cell changes. From
every running machine that finds the exit like this, wherever it has been, the jump at the
exit leads behind the call. The exit may be the cell of the call itself. -/
theorem subroutine_returns {p q e : Nat} (calls : m.CallsSubroutine p q e) :
    ∃ m₁ m₂ : Machine δ, step m = .ok .running m₁ ∧ step m₁ = .ok .running m₂ ∧
      m₂.registers.pc = q + 1 ∧
      m₂.registers.get .j = Word.ofSignMagnitude .plus (p + 1) ∧
      m₂.memory.cell e = Word.ofBytes .plus [(p + 1) / 64, (p + 1) % 64,
        (m.memory.cell e).byte 3, (m.memory.cell e).byte 4, (m.memory.cell e).byte 5] ∧
      (m₂.memory.cell e).Proper ∧
      (∀ a, a ≠ e → m₂.memory.cell a = m.memory.cell a) ∧
      ∀ m₃ : Machine δ, m₃.state = .running → m₃.registers.pc = e →
        m₃.memory.cell e = m₂.memory.cell e →
        ∃ m₄, step m₃ = .ok .running m₄ ∧ m₄.registers.pc = p + 1 := by
  obtain ⟨running, rfl, notLast, ⟨call, decoded, taken, links, target⟩, entry,
    ⟨save, stored, saves, cell⟩, inMemory, ⟨back, held, jumps, plain⟩⟩ := calls
  have size : memorySize = 4000 := rfl
  obtain ⟨m₁, first, running₁, memory₁, counter₁, linked⟩ :=
    step_of_takesJump ⟨running, by omega, decoded⟩ taken links target (by omega)
  rw [Exec.after_ok first] at stored cell held
  subst counter₁
  obtain ⟨m₂, second, registers₂, memory₂⟩ :=
    step_of_store_address ⟨running₁, by omega, stored⟩ saves cell (by omega)
  -- the address behind the call has two bytes, so the exit can hold it
  have magnitude : (Word.ofSignMagnitude .plus (m.registers.pc + 1)).magnitude =
      m.registers.pc + 1 := by
    rw [Word.magnitude_ofSignMagnitude]
    omega
  have exit : m₂.memory.cell e = Field.address.insert (m.memory.cell e)
      (Word.ofSignMagnitude .plus (m.registers.pc + 1)) := by
    rw [memory₂, Memory.cell_put_self _ (by omega), memory₁, linked]
  have returns : Instruction.decode (m₂.memory.cell e) = .ok
      { back with address := Word.ofSignMagnitude .plus (m.registers.pc + 1) } := by
    rw [exit, ← memory₁]
    exact Instruction.decode_insert_address held (Word.proper_ofSignMagnitude _ _) (by omega)
  refine ⟨m₁, m₂, first, second, ?_, ?_, ?_, ?_, ?_, ?_⟩
  · rw [registers₂]
  · rw [registers₂]
    exact (Registers.get_mk_flags m₁.registers ..).trans linked
  · rw [exit, Field.insert_address, Instruction.pack, magnitude, Word.sign_ofSignMagnitude,
      Nat.mod_eq_of_lt (by omega : (m.registers.pc + 1) / 64 < 64)]
  · rw [exit]
    exact Word.proper_ofSignMagnitude _ _
  · intro a other
    rw [memory₂, Memory.cell_put_of_ne _ other.symm, memory₁]
  · intro m₃ running₃ counter₃ same
    rw [← same, ← counter₃] at returns
    refine step_of_jump_plain ⟨running₃, by omega, returns⟩ jumps plain ?_ (by omega)
    rw [Word.value, Word.sign_ofSignMagnitude, magnitude]
    rfl

/-- A machine that jumps to a subroutine at 10, whose exit is the cell of the jump. -/
def calling : Machine Buffer :=
  { standard with
    registers := { Registers.initial with pc := 5 }
    memory := (Memory.zeros.put 5 (Instruction.assemble 10 0 0 Opcode.jump)).put 10
      (Instruction.assemble 5 0 Field.address.toByte Opcode.storeJump) }

theorem calling_callsSubroutine : calling.CallsSubroutine 5 10 5 where
  running := rfl
  counter := rfl
  notLast := by decide
  jump := ⟨⟨Instruction.addressOf 10, 0, .jump .jmp⟩, by decide +kernel, rfl, by decide,
    by decide +kernel⟩
  entry := by decide
  store := ⟨⟨Instruction.addressOf 5, 0, .store .j .address⟩, by decide +kernel, rfl,
    by decide +kernel⟩
  inMemory := by decide
  exit := ⟨⟨Instruction.addressOf 10, 0, .jump .jmp⟩, by decide +kernel, rfl, rfl⟩

/-- The jump overwrites itself with a jump to the cell behind it, and is taken again. -/
theorem subroutine_returns_own_cell :
    calling.CallsSubroutine 5 10 5 ∧
    ∃ m₁ m₂ : Machine Buffer, step calling = .ok .running m₁ ∧ step m₁ = .ok .running m₂ ∧
      m₂.registers.pc = 11 ∧ m₂.memory.cell 5 = Word.ofBytes .plus [0, 6, 0, 0, 39] ∧
      ∃ m₄, step { m₂ with registers := { m₂.registers with pc := 5 } } = .ok .running m₄ ∧
        m₄.registers.pc = 6 := by
  have overwritten : calling.memory.cell 5 = Instruction.assemble 10 0 0 Opcode.jump := by
    decide +kernel
  obtain ⟨m₁, m₂, first, second, counter, -, exit, -, -, returns⟩ :=
    subroutine_returns calling_callsSubroutine
  obtain ⟨-, running, -⟩ := performs_of_step second
  obtain ⟨m₄, back, behind⟩ :=
    returns { m₂ with registers := { m₂.registers with pc := 5 } } running.symm rfl rfl
  rw [overwritten] at exit
  exact ⟨calling_callsSubroutine, m₁, m₂, first, second, counter, exit, m₄, back, behind⟩

end Machine

end MixMachine
