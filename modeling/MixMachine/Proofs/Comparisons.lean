import MixMachine.Proofs.Encoding
import MixMachine.Proofs.FieldLenses
import MixMachine.Proofs.Flags
import MixMachine.Proofs.Jumps

/-!
# What a comparison decides

A comparison looks at the same field of a register and of a cell, and leaves in the indicator
how the two numbers lie. Six jumps ask the indicator, each for one relation of two numbers.
Between the comparison and the jump nothing else of the two words is kept, so the pair decides
the relation exactly when the indicator is the order of the numbers in the field; these are
`Field.number`, told from the bytes of the field and, when the field has it, the sign.

A machine at rest has compared nothing. Its indicator is unset until it does, and while it is
unset none of the six jumps is taken.

* `Field.value_extract`: a field that is read stands for the number of its bytes.
* `Condition.holds_compare_iff`, `Condition.holds_none`: what the six conditions ask.
* `Machine.Uncompared`: the machines that have compared nothing since they were at rest.
* `Reached.comparison_decides_jumps`: a comparison and a jump behind it.
-/

namespace MixMachine

/-! ## The number in a field -/

namespace Field

/-- The number in a field of a word: the bytes from its left bound, or from byte 1, to its right
bound, with the sign of the word when the field has it. -/
def number (f : Field) (w : Word) : Int :=
  (if f.left = 0 then w.sign else .plus).apply
    (Word.magnitudeOfBytes ((List.range' (max f.left 1) (f.right + 1 - max f.left 1)).map w.byte))

/-- **A field that is read stands for the number in it.** -/
theorem value_extract {f : Field} (valid : f.Valid) (w : Word) :
    (f.extract w).value = f.number w := by
  have magnitude : (f.extract w).magnitude = Word.magnitudeOfBytes
      ((List.range' (max f.left 1) (f.right + 1 - max f.left 1)).map w.byte) := by
    rw [← Word.magnitudeOfBytes_bytes, bytes_extract valid, Word.magnitudeOfBytes_append,
      Word.magnitudeOfBytes_zeros, Nat.mul_zero, Nat.zero_add]
  rw [Word.value, sign_extract, magnitude, number]

/-- A field whose bytes are all zero has the number zero, whatever the sign. -/
theorem number_eq_zero {f : Field} {w : Word}
    (zeros : ∀ k, max f.left 1 ≤ k → k ≤ f.right → w.byte k = 0) : f.number w = 0 := by
  have bytes : (List.range' (max f.left 1) (f.right + 1 - max f.left 1)).map w.byte =
      List.replicate (f.right + 1 - max f.left 1) 0 := by
    refine List.eq_replicate_iff.2 ⟨by simp only [List.length_map, List.length_range'], ?_⟩
    intro b member
    obtain ⟨k, place, rfl⟩ := List.mem_map.1 member
    obtain ⟨low, high⟩ := List.mem_range'_1.1 place
    exact zeros k low (by omega)
  rw [number, bytes, Word.magnitudeOfBytes_zeros]
  split
  · cases w.sign <;> rfl
  · rfl

end Field

/-! ## The six relations -/

namespace Condition

/-- The relation of two numbers that a jump on the indicator asks for. -/
def relation? : Condition → Option (Int → Int → Prop)
  | jl => some (· < ·)
  | je => some (· = ·)
  | jg => some (· > ·)
  | jge => some (· ≥ ·)
  | jne => some (· ≠ ·)
  | jle => some (· ≤ ·)
  | _ => none

variable {condition : Condition} {R : Int → Int → Prop}

/-- **A condition holds of the order of two numbers when they stand in its relation.** -/
theorem holds_compare_iff (asks : condition.relation? = some R) (overflow : Bool) (v w : Int) :
    condition.holds overflow (some (compare v w)) = true ↔ R v w := by
  rcases Int.lt_trichotomy v w with below | rfl | above
  · rw [Int.compare_eq_lt.2 below]
    cases condition <;> cases asks <;> simp only [holds] <;> grind
  · rw [Int.compare_eq_eq.2 rfl]
    cases condition <;> cases asks <;> simp only [holds] <;> grind
  · rw [Int.compare_eq_gt.2 above]
    cases condition <;> cases asks <;> simp only [holds] <;> grind

/-- An unset indicator has none of them. -/
theorem holds_none (asks : condition.relation? = some R) (overflow : Bool) :
    condition.holds overflow none = false := by
  cases condition <;> cases asks <;> rfl

end Condition

namespace Machine

/-! ## Two attempts in a row -/

section Attempts

variable {δ : Type}

/-- Every condition and every cell has a word that jumps there on this condition. -/
theorem Attempt.fetches_jump (m : Machine δ) (condition : Condition) {t : Nat} (short : t < 4096) :
    Attempt.FetchesAt (.word (Instruction.assemble t 0 (Variants.number condition) Opcode.jump)) m
      (.jump condition) t := by
  have address : (Instruction.addressOf t).value = t := by
    rw [Instruction.addressOf, Sign.of_natCast, Int.natAbs_natCast, Nat.mod_eq_of_lt short,
      Word.value_plus (by omega)]
  refine ⟨⟨Instruction.addressOf t, 0, .jump condition⟩, ?_, rfl, address⟩
  have magnitude : (Instruction.addressOf t).magnitude < 4096 := by
    rw [← Word.natAbs_value, address]
    exact short
  have proper : (Instruction.addressOf t).Proper := Word.proper_ofSignMagnitude _ _
  have code : Variants.number condition < 64 := by cases condition <;> decide
  show Instruction.decode (Instruction.pack ..) = _
  rw [Instruction.decode_pack proper magnitude (by decide) code (by decide)]
  cases condition <;> rfl

variable [Device δ] {m : Machine δ}

/-- A comparison goes to the next cell and leaves the order of the two numbers in the
indicator. -/
theorem Attempt.FetchesAt.compares {a : Attempt} {r : Register} {f : Field} {e : Nat}
    (fetches : a.FetchesAt m (.compare r f) e) (running : m.state = .running)
    (inside : m.registers.pc < memorySize) (cell : e < memorySize) :
    ∃ m', a.exec m = .ok .running m' ∧ m'.state = .running ∧
      m'.registers.pc = m.registers.pc + 1 ∧
      m'.registers.comparison =
        some (compare (f.number (m.registers.get r)) (f.number (m.memory.cell e))) := by
  obtain ⟨⟨address, index, op⟩, decoded, rfl, target⟩ := fetches
  have valid : f.Valid := Instruction.valid_of_decode decoded f rfl
  have completes := Completes.compare (m := m) (r := r) (f := f)
    (Memory.index_eq_ok_iff.2 ⟨target, cell⟩)
  refine ⟨_, completes.exec running inside decoded running, running, rfl, ?_⟩
  rw [← Field.value_extract valid, ← Field.value_extract valid]
  rfl

/-- A jump on the toggle or the indicator goes to its address when it is taken, and else to the
next cell. -/
theorem Attempt.FetchesAt.jumps {b : Attempt} {condition : Condition} {t : Int}
    (fetches : b.FetchesAt m (.jump condition) t) (running : m.state = .running)
    (inside : m.registers.pc < memorySize)
    (cell : m.takesJump (.jump condition) → ¬ Memory.Outside t) :
    ∃ m', b.exec m = .ok .running m' ∧
      (m.takesJump (.jump condition) → m'.registers.pc = t) ∧
      (¬ m.takesJump (.jump condition) → m'.registers.pc = m.registers.pc + 1) := by
  obtain ⟨⟨address, index, op⟩, decoded, rfl, rfl⟩ := fetches
  by_cases taken : m.takesJump (.jump condition)
  · cases target : Memory.index (m.effectiveAddress ⟨address, index, .jump condition⟩).value with
    | error e => exact absurd (Memory.index_eq_error_outside_iff.1 target).1 (cell taken)
    | ok a =>
        have completes := Completes.jump taken target
        refine ⟨_, completes.exec running inside decoded running, fun _ => ?_, absurd taken⟩
        exact (Memory.index_eq_ok_iff.1 target).1.symm
  · have completes : Completes m (m.effectiveAddress ⟨address, index, .jump condition⟩)
        (.jump condition) .next _ := .jumpStay (Bool.not_eq_true _ ▸ taken)
    exact ⟨_, completes.exec running inside decoded running, fun other => absurd other taken,
      fun _ => rfl⟩

end Attempts

/-! ## Machines that have compared nothing -/

/-- A step that fails and changes nothing can be tried again and again. -/
theorem afterAll_of_error {δ : Type} [Device δ] {m : Machine δ} {e : Fault}
    (run : step m = .error e m) (n : Nat) : m.afterAll (List.replicate n .step) = m := by
  have attempt : Attempt.exec .step m = .error e m := run
  induction n with
  | zero => rfl
  | succ n ih => rw [List.replicate_succ, afterAll, Exec.after_error attempt, ih]

/-- Steps that complete are the first of any longer series of attempts. -/
theorem Steps.afterAll_eq {δ : Type} [Device δ] {m m' : Machine δ} {k : Nat}
    (h : Steps k m m') (rest : Nat) :
    m.afterAll (List.replicate (k + rest) .step) = m'.afterAll (List.replicate rest .step) := by
  induction h with
  | zero => rw [Nat.zero_add]
  | @succ k s m m' m'' first _ ih =>
      have attempt : Attempt.exec .step m = .ok s m' := first
      rw [Nat.succ_add, List.replicate_succ, afterAll, Exec.after_ok attempt, ih]

/-- **A run is a series of steps**, and the steps behind its end change nothing. -/
theorem runFor_after_eq_afterAll (n : Nat) (m : Machine Buffer) :
    (runFor n).after m = m.afterAll (List.replicate (room n m) .step) := by
  cases run : runFor n m with
  | ok k m' =>
      obtain ⟨within, chain, stop⟩ := runFor_eq_ok_iff.1 run
      obtain ⟨rest, split⟩ := Nat.exists_eq_add_of_le within
      rw [Exec.after_ok run, split, chain.afterAll_eq]
      rcases stop with spent | halted
      · rw [show rest = 0 by omega]
        rfl
      · have stopped : m'.state ≠ .running := fun running => by cases running.symm.trans halted
        rw [afterAll_of_error (step_of_not_running stopped)]
  | error e m' =>
      obtain ⟨k, m₁, within, chain, -, fails⟩ := runFor_eq_error_iff.1 run
      obtain ⟨rest, split⟩ := Nat.exists_eq_add_of_le (Nat.le_of_lt within)
      cases step_error_of_buffers fails
      rw [Exec.after_error run, split, chain.afterAll_eq, afterAll_of_error fails]

end Machine

open Machine

namespace Call

/-- The attempts that a call makes of a machine. -/
def attempts (m : Machine Buffer) : Call → List Attempt
  | step => [.step]
  | executeWord w => [.word w]
  | runFor budget => List.replicate (room budget m) .step
  | _ => []

/-- Apart from the reset a call leaves in the indicator what its attempts leave there. -/
theorem comparison_apply {c : Call} (notReset : c ≠ .reset) (m : Machine Buffer) :
    (c.apply m).registers.comparison = (m.afterAll (c.attempts m)).registers.comparison := by
  cases c with
  | step => rfl
  | executeWord w => rfl
  | runFor budget => exact congrArg (·.registers.comparison) (runFor_after_eq_afterAll budget m)
  | setPc pc =>
      simp only [apply, attempts, afterAll]
      by_cases inside : pc < memorySize
      · rw [Exec.after_ok (setPc_ok inside)]
      · rw [Exec.after_error (setPc_error (Nat.not_lt.1 inside))]
  | loadWord a w =>
      simp only [apply, attempts, afterAll]
      by_cases inside : a < memorySize
      · rw [Exec.after_ok (loadWord_ok inside w)]
      · rw [Exec.after_error (loadWord_error (Nat.not_lt.1 inside) w)]
  | loadImage image =>
      simp only [apply, attempts, afterAll]
      cases checked : image.firstOutside? with
      | some a => rw [Exec.after_error (loadImage_error checked)]
      | none => rw [Exec.after_ok (loadImage_ok (image.firstOutside?_eq_none_iff.1 checked))]
  | reset => exact absurd rfl notReset
  | setRegister r w => exact Registers.comparison_set ..
  | attach unit b => rfl
  | detach unit => rfl

end Call

/-- The machine was at rest, and since then no comparison has been completed, whatever calls
were made. -/
inductive Uncompared : Machine Buffer → Prop
  | atRest (devices : Devices Buffer) : Uncompared (Machine.initial devices)
  | call {m : Machine Buffer} (c : Call) :
    Uncompared m →
    (∀ done ∈ m.completions (c.attempts m), ¬ done.Compares) →
    Uncompared (c.apply m)

/-- A machine that has compared nothing has an unset indicator. -/
theorem Uncompared.comparison {m : Machine Buffer} (h : Uncompared m) :
    m.registers.comparison = none := by
  induction h with
  | atRest devices => rfl
  | @call m c _ none unset =>
      by_cases isReset : c = .reset
      · rw [isReset]
        rfl
      · rw [Call.comparison_apply isReset]
        exact (m.comparison_afterAll_eq_none_iff (c.attempts m)).2 ⟨unset, none⟩

/-- **The indicator of a reached machine is unset exactly when it has compared nothing** since
it was at rest. -/
theorem Reached.uncompared_iff {calls : List Call} {m : Machine Buffer}
    (reached : Reached calls m) : Uncompared m ↔ m.registers.comparison = none := by
  refine ⟨Uncompared.comparison, ?_⟩
  induction reached with
  | standard => exact fun _ => .atRest .standard
  | @startingAt pc m started =>
      intro _
      have placed : (Call.setPc pc).apply (initial .standard) = m := by
        rw [Call.apply, Exec.after_ok (setPc_of_startingAt started)]
      rw [← placed]
      exact .call (.setPc pc) (.atRest .standard) fun _ member => absurd member List.not_mem_nil
  | @call calls m c _ ih =>
      intro unset
      by_cases isReset : c = .reset
      · rw [isReset]
        exact .atRest m.devices
      · rw [Call.comparison_apply isReset] at unset
        obtain ⟨before, none⟩ := (m.comparison_afterAll_eq_none_iff (c.attempts m)).1 unset
        exact .call c (ih before) none

/-! ## A comparison and a jump -/

/-- **A comparison and a jump behind it decide how two numbers lie.** A reached machine runs in
front of the last cell and compares a field of a register with that of a cell in memory: the
comparison answers, and each of the six jumps behind it is taken exactly when the number in the
field of the register and that in the field of the cell stand in its relation. It goes to its
target or else to the cell behind the jump. A half register counts as a word whose first three
bytes are zero. A field without bytes has the number zero, and so has any whose bytes are zero,
with either sign.

Since a machine was at rest until it has compared something, none of the six is taken, and so
each goes to the next cell, whatever its address. -/
theorem Reached.comparison_decides_jumps {calls : List Call} {m : Machine Buffer} {a : Attempt}
    {r : Register} {f : Field} {e : Nat} {v w : Int} (reached : Reached calls m)
    (running : m.state = .running) (notLast : m.registers.pc ≤ 3998)
    (compares : a.FetchesAt m (.compare r f) e) (cell : e ≤ 3999)
    (held : f.number (m.registers.get r) = v) (stored : f.number (m.memory.cell e) = w) :
    (∃ m₁, a.exec m = .ok .running m₁ ∧
      ∀ condition R, Condition.relation? condition = some R →
        ∀ (b : Attempt) (t : Nat), t ≤ 3999 → b.FetchesAt m₁ (.jump condition) t →
          (m₁.takesJump (.jump condition) ↔ R v w) ∧
          ∃ m₂, b.exec m₁ = .ok .running m₂ ∧
            (R v w → m₂.registers.pc = t) ∧
            (¬ R v w → m₂.registers.pc = m.registers.pc + 2)) ∧
    (r.width = .half → ∀ k, 1 ≤ k → k ≤ 3 → (m.registers.get r).byte k = 0) ∧
    (f.right = 0 → v = w) ∧
    (∀ u : Word, (∀ k, max f.left 1 ≤ k → k ≤ f.right → u.byte k = 0) → f.number u = 0) ∧
    ∀ m', Uncompared m' → ∀ condition, Condition.relation? condition ≠ none →
      ¬ m'.takesJump (.jump condition) ∧
      ∀ (b : Attempt) (t : Int), b.FetchesAt m' (.jump condition) t →
        m'.state = .running → m'.registers.pc ≤ 3999 →
        ∃ m'', b.exec m' = .ok .running m'' ∧ m''.registers.pc = m'.registers.pc + 1 := by
  have size : memorySize = 4000 := rfl
  refine ⟨?_, ?_, ?_, fun u => Field.number_eq_zero, ?_⟩
  · obtain ⟨m₁, run, running₁, counter₁, indicator⟩ :=
      compares.compares running (by omega) (by omega)
    rw [held, stored] at indicator
    refine ⟨m₁, run, ?_⟩
    intro condition R asks b t short jumps
    have taken_iff : m₁.takesJump (.jump condition) ↔ R v w := by
      show condition.holds m₁.registers.overflow m₁.registers.comparison = true ↔ _
      rw [indicator]
      exact Condition.holds_compare_iff asks _ v w
    have inside : ¬ Memory.Outside t := by
      unfold Memory.Outside
      omega
    obtain ⟨m₂, run₂, goes, stays⟩ := jumps.jumps running₁ (by omega) fun _ => inside
    refine ⟨taken_iff, m₂, run₂, ?_, ?_⟩
    · intro related
      exact Int.ofNat_inj.1 (goes (taken_iff.2 related))
    · intro unrelated
      rw [stays fun taken => unrelated (taken_iff.1 taken), counter₁]
  · intro half k _ high
    exact (reached.fit r).byte_eq_zero half high
  · intro empty
    have zero : ∀ u, f.number u = 0 := fun u => Field.number_eq_zero fun k low high => by omega
    rw [← held, ← stored, zero, zero]
  · intro m' uncompared condition asks
    obtain ⟨R, asks⟩ := Option.ne_none_iff_exists'.1 asks
    have stays : ¬ m'.takesJump (.jump condition) := by
      show ¬ condition.holds m'.registers.overflow m'.registers.comparison = true
      rw [uncompared.comparison, Condition.holds_none asks]
      exact Bool.false_ne_true
    refine ⟨stays, ?_⟩
    intro b t jumps running' inside
    obtain ⟨m'', run, -, next⟩ := jumps.jumps running' (by omega) fun taken => absurd taken stays
    exact ⟨m'', run, next stays⟩

/-- A negative word in A whose first two bytes are zero. -/
def minusZeroInFront : Machine Buffer :=
  (Call.setRegister .a (Word.ofBytes .minus [0, 0, 3, 4, 5])).apply .standard

/-- Compares the sign and the first two bytes of A with those of cell 0. -/
def compareFront : Attempt :=
  .word (Instruction.assemble 0 0 (Field.toByte ⟨0, 2⟩) Opcode.compare)

/-- A minus zero is equal to a plus zero, and before this nothing is even unequal. -/
theorem Reached.comparison_decides_jumps_minus_zero :
    ¬ minusZeroInFront.takesJump (.jump .jne) ∧
    ∃ m₁ m₂, compareFront.exec minusZeroInFront = .ok .running m₁ ∧
      Attempt.exec (.word (Instruction.assemble 7 0 (Variants.number Condition.je) Opcode.jump))
        m₁ = .ok .running m₂ ∧
      m₂.registers.pc = 7 := by
  have compares : compareFront.FetchesAt minusZeroInFront (.compare .a ⟨0, 2⟩) (0 : Nat) :=
    ⟨⟨Instruction.addressOf 0, 0, .compare .a ⟨0, 2⟩⟩, rfl, rfl, rfl⟩
  have reached : Reached [.setRegister .a (Word.ofBytes .minus [0, 0, 3, 4, 5])]
      minusZeroInFront := Reached.standard.call _
  have uncompared : Uncompared minusZeroInFront :=
    .call _ (.atRest .standard) fun _ member => absurd member List.not_mem_nil
  have held : Field.number ⟨0, 2⟩ (minusZeroInFront.registers.get .a) = 0 := by decide
  have stored : Field.number ⟨0, 2⟩ (minusZeroInFront.memory.cell 0) = 0 := by decide
  obtain ⟨⟨m₁, run₁, jumps⟩, -, -, -, never⟩ :=
    reached.comparison_decides_jumps rfl (by decide) compares (by decide) held stored
  obtain ⟨-, m₂, run₂, goes, -⟩ := jumps .je (· = ·) rfl _ 7 (by decide)
    (Attempt.fetches_jump m₁ .je (by decide))
  exact ⟨(never _ uncompared .jne (by decide)).1, m₁, m₂, run₁, run₂, goes rfl⟩

end MixMachine
