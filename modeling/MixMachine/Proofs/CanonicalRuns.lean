import MixMachine.Proofs.Buffers
import MixMachine.Proofs.Canonical

/-!
# Bit 31 is never observed

A machine with buffers and the same machine without bit 31 run alike. Every rule by
which the one completes or fails an instruction is a rule for the other, at the same
effective address and with the same flow or fault, and leaves the other without bit
31 as the one would be. Steps and runs of steps inherit this.

* `Machine.Completes.canonical`, `Machine.Fails.canonical`: the rules.
* `Machine.executeWord_canonical`, `Machine.step_canonical`: one word and one step.
* `Machine.stepTrace_canonical`: steps in a row.
* `Machine.bit31_never_observed`: runs of any length.
-/

namespace MixMachine.Machine

variable {m m' : Machine Buffer} {ea : Word} {op : Operation} {flow : Flow} {fault : Fault}

/-! ## The rules without bit 31 -/

theorem Completes.of_eq {m₁ m₂ : Machine Buffer} (h : Completes m ea op flow m₁)
    (same : m₁ = m₂) : Completes m ea op flow m₂ :=
  same ▸ h

theorem Fails.of_eq {m₁ m₂ : Machine Buffer} (h : Fails m ea op fault m₁)
    (same : m₁ = m₂) : Fails m ea op fault m₂ :=
  same ▸ h

/-- A buffer without bit 31 gives its block without it. -/
theorem input_canonical {b b' : Buffer} {n : Nat} {block : Vector Word n}
    (h : Device.input n b = .ok block b') :
    ∃ block' : Vector Word n, Device.input n b.canonical = .ok block' b'.canonical ∧
      block'.toList = block.toList.map Word.canonical := by
  obtain ⟨rfl, copied⟩ := Buffer.of_input h
  have size : b'.block.length = n := by rw [← copied, Vector.length_toList]
  obtain ⟨block', run, copied'⟩ :=
    Buffer.input_of_length (b'.length_block_canonical.trans size)
  exact ⟨block', run, by rw [copied', copied]; rfl⟩

/-- A buffer without bit 31 refuses another size with the same error. -/
theorem input_canonical_error {b b' : Buffer} {n : Nat} {e : DeviceError}
    (h : Device.input n b = .error e b') :
    Device.input n b.canonical = .error e b'.canonical := by
  have length := b.length_block_canonical
  simp only [Device.input, Buffer.input] at h ⊢
  split at h
  · cases h
  · rename_i other
    cases h
    rw [dif_neg (length ▸ other), length]

/-- A buffer without bit 31 takes a block without it. -/
theorem output_canonical {b b' : Buffer} {ws : List Word}
    (h : Device.output ws b = .ok () b') :
    Device.output (ws.map Word.canonical) b.canonical = .ok () b'.canonical := by
  obtain ⟨size, rfl⟩ := Buffer.of_output h
  have size' : (ws.map Word.canonical).length = b.canonical.block.length := by
    rw [List.length_map, Buffer.length_block_canonical, size]
  exact Buffer.output_of_length size'

/-- The check of a block of a buffer asks for its size alone. -/
theorem block_canonical (v : Int) (b : Buffer) :
    Memory.block v (Device.blockSize b.canonical) = Memory.block v (Device.blockSize b) :=
  congrArg (Memory.block v) b.length_block_canonical

/-- A register counts as the same number. -/
theorem value_get_canonical (m : Machine Buffer) (r : Register) :
    (m.canonical.registers.get r).value = (m.registers.get r).value := by
  show (m.registers.canonical.get r).value = _
  rw [Registers.get_canonical, Word.value_canonical]

/-- **A rule of completion is one without bit 31.** -/
theorem Completes.canonical (h : Completes m ea op flow m') :
    Completes m.canonical ea op flow m'.canonical := by
  have value := m.value_get_canonical
  cases h with
  | nop => exact .nop
  | halt => exact .halt
  | arithmetic inside =>
      refine (Completes.arithmetic inside).of_eq ?_
      simp only [Machine.canonical, Memory.cell_canonical, Field.extract_canonical,
        Registers.arithmetic_canonical]
  | shift nonneg =>
      refine (Completes.shift nonneg).of_eq ?_
      simp only [Machine.canonical, Registers.shift_canonical]
  | moveSame same => exact .moveSame (same.trans (value .i1).symm)
  | move apart source target =>
      rw [← value] at apart target
      refine (Completes.move apart source target).of_eq ?_
      simp only [Machine.canonical, Memory.copy_canonical, Registers.set_canonical]
  | load inside =>
      refine (Completes.load inside).of_eq ?_
      simp only [Machine.canonical, Memory.cell_canonical, Field.extract_canonical,
        Registers.set_canonical]
  | loadNegative inside =>
      refine (Completes.loadNegative inside).of_eq ?_
      simp only [Machine.canonical, Memory.cell_canonical, Field.extract_negate_canonical,
        Registers.set_canonical]
  | store inside =>
      refine (Completes.store inside).of_eq ?_
      simp only [Machine.canonical, Memory.cell_canonical, Registers.get_canonical,
        Field.insert_canonical, Memory.put_canonical]
  | @storeZero f a inside =>
      refine (Completes.storeZero inside).of_eq ?_
      have built := f.insert_canonical (m.memory.cell a) .zero
      rw [Word.canonical_zero] at built
      simp only [Machine.canonical, Memory.cell_canonical, built, Memory.put_canonical]
  | deviceStay found when => exact .deviceStay (Devices.find_canonical found) when
  | @deviceJump op unit a b found when target =>
      refine (Completes.deviceJump (d := b.canonical) (Devices.find_canonical found) when
        target).of_eq ?_
      simp only [Machine.canonical, Registers.link_canonical]
  | control found hook =>
      obtain rfl := Buffer.of_control hook
      refine (Completes.control (Devices.find_canonical found) rfl).of_eq ?_
      simp only [Machine.canonical, Devices.attach_canonical]
  | input found range forward hook =>
      obtain ⟨block', run, copied⟩ := input_canonical hook
      rw [← block_canonical] at range
      refine (Completes.input (Devices.find_canonical found) range forward run).of_eq ?_
      simp only [Machine.canonical, copied, Memory.putWords_canonical, Devices.attach_canonical]
  | output found range forward hook =>
      have run := output_canonical hook
      rw [← Memory.words_canonical] at run
      rw [← block_canonical] at range
      refine (Completes.output (Devices.find_canonical found) range forward run).of_eq ?_
      simp only [Machine.canonical, Devices.attach_canonical]
  | jumpStay holds =>
      refine Completes.of_eq (m := m.canonical) (.jumpStay holds) ?_
      simp only [Machine.canonical, Registers.afterTest_canonical]
  | jump holds target =>
      refine Completes.of_eq (m := m.canonical) (.jump holds target) ?_
      simp only [Machine.canonical, Registers.afterJump_canonical]
  | @registerStay r test holds =>
      exact .registerStay (by rw [value]; exact holds)
  | @registerJump r test a holds target =>
      refine (Completes.registerJump (by rw [value]; exact holds) target).of_eq ?_
      simp only [Machine.canonical, Registers.link_canonical]
  | transfer =>
      refine Completes.transfer.of_eq ?_
      simp only [Machine.canonical, Registers.transfer_canonical]
  | compare inside =>
      refine (Completes.compare inside).of_eq ?_
      simp only [Machine.canonical, Memory.cell_canonical, Registers.compare_canonical]

/-- **A rule of failure is one without bit 31.** -/
theorem Fails.canonical (h : Fails m ea op fault m') :
    Fails m.canonical ea op fault m'.canonical := by
  have value := m.value_get_canonical
  cases h with
  | cell hasField outside => exact .cell hasField outside
  | shift negative => exact .shift negative
  | moveSource apart source =>
      rw [← value] at apart
      exact .moveSource apart source
  | moveTarget apart source target =>
      rw [← value] at apart target
      exact .moveTarget apart source target
  | noDevice absent => exact .noDevice (Devices.find_canonical_error absent)
  | @deviceJump op unit b e found when target =>
      exact .deviceJump (d := b.canonical) (Devices.find_canonical found) when target
  | control _ hook => cases hook
  | inputBlock found range =>
      rw [← block_canonical] at range
      exact .inputBlock (Devices.find_canonical found) range
  | input found range hook =>
      have run := input_canonical_error hook
      rw [← block_canonical] at range
      refine (Fails.input (Devices.find_canonical found) range run).of_eq ?_
      simp only [Machine.canonical, Devices.attach_canonical]
  | inputReversed found range reversed hook =>
      obtain ⟨block', run, -⟩ := input_canonical hook
      rw [← block_canonical] at range
      refine (Fails.inputReversed (Devices.find_canonical found) range reversed run).of_eq ?_
      simp only [Machine.canonical, Devices.attach_canonical]
  | outputBlock found range =>
      rw [← block_canonical] at range
      exact .outputBlock (Devices.find_canonical found) range
  | output _ range forward hook => exact absurd hook (Buffer.output_ne_error range forward)
  | outputReversed found range reversed =>
      rw [← block_canonical] at range
      exact .outputReversed (Devices.find_canonical found) range reversed
  | jump holds target => exact Fails.jump (m := m.canonical) holds target
  | registerJump holds target =>
      rw [← value] at holds
      exact .registerJump holds target

/-! ## Words and steps without bit 31 -/

theorem effectiveAddress_canonical (m : Machine Buffer) (i : Instruction) :
    m.canonical.effectiveAddress i = m.effectiveAddress i :=
  m.registers.effectiveAddress_canonical _ _

theorem Performs.canonical {i : Instruction} (h : Performs m i m') :
    Performs m.canonical i m'.canonical := by
  obtain ⟨inside, completes⟩ := h
  have same := completes.canonical
  rw [← m.effectiveAddress_canonical] at same
  exact Performs.intro (m := m.canonical) inside same

theorem Rejects.canonical {w : Word} (h : Rejects m w fault m') :
    Rejects m.canonical w fault m'.canonical := by
  cases h with
  | notRunning stopped => exact Rejects.notRunning (m := m.canonical) stopped
  | decode running undecoded => exact .decode running undecoded
  | counter running decoded outside => exact .counter running decoded outside
  | instruction running decoded inside fails =>
      have same := fails.canonical
      rw [← m.effectiveAddress_canonical] at same
      exact .instruction running decoded inside same

/-- **A word is executed alike without bit 31**, in the machine and in itself. -/
theorem executeWord_canonical (m : Machine Buffer) (w : Word) :
    (executeWord w).answer m.canonical = (executeWord w).answer m ∧
      (executeWord w).after m.canonical = ((executeWord w).after m).canonical := by
  rcases performs_or_rejects m w with ⟨running, i, m', decoded, performs⟩ | ⟨e, m', rejects⟩
  · have run := performs.executeWord running decoded
    have same := Performs.executeWord (m := m.canonical) running decoded performs.canonical
    rw [Exec.answer_ok run, Exec.answer_ok same, Exec.after_ok run, Exec.after_ok same]
    exact ⟨rfl, rfl⟩
  · have run := rejects.executeWord
    have same := rejects.canonical.executeWord
    rw [Exec.answer_error run, Exec.answer_error same, Exec.after_error run,
      Exec.after_error same]
    exact ⟨rfl, rfl⟩

theorem executeWord_of_canonical (m : Machine Buffer) (w : Word) :
    executeWord w.canonical m = executeWord w m := by
  unfold executeWord
  rw [Instruction.decode_canonical]

/-- **A step is alike without bit 31.** -/
theorem step_canonical (m : Machine Buffer) :
    step.answer m.canonical = step.answer m ∧
      step.after m.canonical = (step.after m).canonical := by
  by_cases running : m.state = .running
  · by_cases inside : m.registers.pc < memorySize
    · -- the words fetched differ in bit 31 at most, which the decoder ignores
      have fetch : m.canonical.memory.cell m.registers.pc =
          (m.memory.cell m.registers.pc).canonical := m.memory.cell_canonical _
      have run := step_eq_executeWord inside
      have same := step_eq_executeWord (m := m.canonical) inside
      have word := executeWord_of_canonical m.canonical (m.memory.cell m.registers.pc)
      rw [show m.canonical.registers.pc = m.registers.pc from rfl, fetch, word] at same
      unfold Exec.answer Exec.after
      rw [run, same]
      exact m.executeWord_canonical _
    · have run := step_outside running (Nat.not_lt.1 inside)
      have same := step_outside (m := m.canonical) running (Nat.not_lt.1 inside)
      rw [Exec.answer_error run, Exec.answer_error same, Exec.after_error run,
        Exec.after_error same]
      exact ⟨rfl, rfl⟩
  · have run := step_of_not_running running
    have same := step_of_not_running (m := m.canonical) running
    rw [Exec.answer_error run, Exec.answer_error same, Exec.after_error run,
      Exec.after_error same]
    exact ⟨rfl, rfl⟩

/-! ## Runs without bit 31 -/

/-- The answers of `n` steps in a row, each with the machine that it leaves. A step
that fails is followed by the next one all the same. -/
def stepTrace {δ : Type} [Device δ] : Nat → Machine δ → List (Except Fault RunState × Machine δ)
  | 0, _ => []
  | n + 1, m => (step.answer m, step.after m) :: stepTrace n (step.after m)

theorem stepTrace_canonical (n : Nat) (m : Machine Buffer) :
    stepTrace n m.canonical = (stepTrace n m).map fun (answer, m') => (answer, m'.canonical) := by
  induction n generalizing m with
  | zero => rfl
  | succ n ih =>
      obtain ⟨answer, after⟩ := m.step_canonical
      rw [stepTrace, answer, after, ih]
      rfl

/-- What a user sees of a machine apart from its words. -/
def visible {δ : Type} (m : Machine δ) :
    Nat × RunState × Bool × Option Ordering × Nat × Nat × Option Instruction :=
  (m.registers.pc, m.state, m.registers.overflow, m.registers.comparison, m.steps, m.clock,
    m.last)

/-- **Bit 31 is never observed.** However many steps a machine with buffers takes, the
machine without bit 31 gives the same answers step by step, shows the same program
counter, run state, toggle, indicator, counts and last instruction after each, and is
each time what the first machine is without bit 31. The same holds for the execution
of any word, and a word and the word without bit 31 are executed alike. -/
theorem bit31_never_observed (m : Machine Buffer) :
    (∀ n,
      stepTrace n m.canonical =
        ((stepTrace n m).map fun (answer, m') => (answer, m'.canonical)) ∧
      ((stepTrace n m.canonical).map fun (answer, m') => (answer, m'.visible)) =
        (stepTrace n m).map fun (answer, m') => (answer, m'.visible)) ∧
    ∀ w : Word,
      (executeWord w).answer m.canonical = (executeWord w).answer m ∧
      (executeWord w).after m.canonical = ((executeWord w).after m).canonical ∧
      executeWord w.canonical m = executeWord w m := by
  refine ⟨?_, ?_⟩
  · intro n
    refine ⟨stepTrace_canonical n m, ?_⟩
    rw [stepTrace_canonical, List.map_map]
    rfl
  · intro w
    obtain ⟨answer, after⟩ := m.executeWord_canonical w
    exact ⟨answer, after, executeWord_of_canonical m w⟩

end MixMachine.Machine
