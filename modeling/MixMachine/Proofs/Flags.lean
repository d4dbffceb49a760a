import MixMachine.Proofs.EffectiveAddress
import MixMachine.Proofs.Histories

/-!
# The history of the two flags

The overflow toggle and the comparison indicator are written by a few instructions and
kept by all others, the failed ones included. So they tell something about the history of
the machine: the toggle that an instruction has overflowed since it was last tested, and
the indicator how the last comparison came out.

`Completion.Overflows` says in terms of exact numbers when an instruction overflows; the
machine finds out on five ways of its own, through the sum of two words, the sum in a
register of some width, the quotient, and the width of an address.

* `Registers.overflow_arithmetic`, `Registers.overflow_transfer`: the toggle behind a
  change of the register file.
* `Machine.Performs.overflow_iff`, `Machine.Performs.comparison_eq`: both flags behind an
  instruction.
* `Machine.flags_tell_history`: both flags behind every series of attempts.
-/

namespace MixMachine

/-! ## When an instruction overflows -/

/-- The operation on A has no result that A holds: the exact sum or difference has more
than thirty bits, or the divisor is not larger than A, zero included. A product always
has its place. -/
def Arithmetic.Overflows (a v : Int) : Arithmetic → Prop
  | add => 0x40000000 ≤ (a + v).natAbs
  | sub => 0x40000000 ≤ (a - v).natAbs
  | mul => False
  | div => v.natAbs ≤ a.natAbs

/-- The result of an address transfer is above the largest magnitude of the register. -/
def Transfer.Overflows (largest : Nat) (held address : Int) : Transfer → Prop
  | inc => largest < (held + address).natAbs
  | dec => largest < (held - address).natAbs
  | ent | enn => largest < address.natAbs

namespace Word

theorem overflow_addUpTo (limit : Nat) (a b : Word) :
    (addUpTo limit a b).2 = true ↔ limit < (a.value + b.value).natAbs :=
  decide_eq_true_iff

theorem overflow_add (a b : Word) :
    (add a b).2 = true ↔ 0x40000000 ≤ (a.value + b.value).natAbs :=
  overflow_addUpTo maxMagnitude a b

theorem overflow_subtract (a b : Word) :
    (subtract a b).2 = true ↔ 0x40000000 ≤ (a.value - b.value).natAbs := by
  rw [subtract, overflow_add, value_negate, Int.sub_eq_add_neg]

/-- A quotient has thirty bits exactly when the divisor is larger than the high half of the
dividend. -/
theorem divide_eq_none_iff (high low divisor : Word) :
    divide high low divisor = none ↔ divisor.value.natAbs ≤ high.value.natAbs := by
  have short := low.magnitude_lt
  have largest : maxMagnitude = 0x3FFFFFFF := rfl
  rw [natAbs_value, natAbs_value]
  unfold divide
  dsimp only
  split
  · rename_i refused
    constructor
    · intro _
      rcases refused with zero | long
      · omega
      · -- the quotient by zero is zero here, and so has thirty bits
        have positive : 0 < divisor.magnitude := by
          rcases Nat.eq_zero_or_pos divisor.magnitude with zero | positive
          · rw [zero, Nat.div_zero] at long
            omega
          · exact positive
        have fits := (Nat.le_div_iff_mul_le positive).1 long
        unfold doubleMagnitude at fits
        rw [largest] at fits
        omega
    · intro _
      rfl
  · rename_i answered
    constructor
    · intro impossible
      cases impossible
    · intro large
      refine absurd ?_ answered
      rcases Nat.eq_zero_or_pos divisor.magnitude with zero | positive
      · exact Or.inl zero
      · refine Or.inr ((Nat.le_div_iff_mul_le positive).2 ?_)
        unfold doubleMagnitude
        rw [largest]
        omega

end Word

namespace Registers

variable {rs : Registers}

theorem overflow_latchOverflow (overflowed : Bool) :
    (rs.latchOverflow overflowed).overflow = true ↔ rs.overflow = true ∨ overflowed = true :=
  Bool.or_eq_true_iff

theorem overflow_latchOverflow_set (r : Register) (v : Word) (overflowed : Bool) :
    ((rs.set r v).latchOverflow overflowed).overflow = true ↔
      rs.overflow = true ∨ overflowed = true := by
  rw [overflow_latchOverflow, overflow_set]

/-- The toggle behind a combination of A with a word. -/
theorem overflow_arithmetic (kind : Arithmetic) (v : Word) :
    (rs.arithmetic kind v).overflow = true ↔
      rs.overflow = true ∨ kind.Overflows rs.a.value v.value := by
  cases kind with
  | add =>
      exact (overflow_latchOverflow_set .a _ _).trans (or_congr_right (Word.overflow_add rs.a v))
  | sub =>
      exact (overflow_latchOverflow_set .a _ _).trans
        (or_congr_right (Word.overflow_subtract rs.a v))
  | mul =>
      show ((rs.set .a _).set .x _).overflow = true ↔ _
      rw [overflow_set, overflow_set]
      exact (or_iff_left not_false).symm
  | div =>
      have refused_iff := Word.divide_eq_none_iff rs.a rs.x v
      unfold arithmetic Arithmetic.Overflows
      dsimp only
      rw [← refused_iff]
      split
      · rename_i answered
        rw [answered, overflow_set, overflow_set]
        simp only [reduceCtorEq, or_false]
      · rename_i refused
        rw [refused, overflow_latchOverflow]
        exact or_congr_right (iff_of_true rfl rfl)

theorem exceeds_iff (r : Register) (v : Word) :
    exceeds r v = true ↔ r.width.maxMagnitude < v.value.natAbs := by
  rw [Word.natAbs_value]
  exact decide_eq_true_iff

/-- The toggle behind an address transfer. -/
theorem overflow_transfer (r : Register) (kind : Transfer) (ea : Word) :
    (rs.transfer r kind ea).overflow = true ↔
      rs.overflow = true ∨
        kind.Overflows r.width.maxMagnitude (rs.get r).value ea.value := by
  have sum := Word.overflow_addUpTo r.width.maxMagnitude (rs.get r)
  cases kind with
  | inc => exact (overflow_latchOverflow_set r _ _).trans (or_congr_right (sum ea))
  | dec =>
      have difference := sum ea.negate
      rw [Word.value_negate, ← Int.sub_eq_add_neg] at difference
      exact (overflow_latchOverflow_set r _ _).trans (or_congr_right difference)
  | ent => exact (overflow_latchOverflow_set r _ _).trans (or_congr_right (exceeds_iff r ea))
  | enn =>
      have wide := exceeds_iff r ea.negate
      rw [Word.value_negate, Int.natAbs_neg] at wide
      exact (overflow_latchOverflow_set r _ _).trans (or_congr_right wide)

/-- The toggle behind the test of a jump. -/
theorem overflow_afterTest (condition : Condition) :
    (rs.afterTest condition).overflow = true ↔
      ¬ (condition = .jov ∨ condition = .jnov) ∧ rs.overflow = true := by
  cases condition <;> simp [afterTest]

/-- A link does not touch the toggle. -/
theorem overflow_afterJump (condition : Condition) :
    (rs.afterJump condition).overflow = (rs.afterTest condition).overflow := by
  unfold afterJump
  split
  · rename_i jsj
    rw [jsj]
    rfl
  · exact overflow_set ..

theorem overflow_shift (kind : Shift) (count : Nat) :
    (rs.shift kind count).overflow = rs.overflow := by
  unfold shift
  dsimp only
  split
  · rw [overflow_set, overflow_set]
  · rw [overflow_set]

/-! ### The indicator behind a change of the register file -/

theorem comparison_arithmetic (kind : Arithmetic) (v : Word) :
    (rs.arithmetic kind v).comparison = rs.comparison := by
  cases kind with
  | add => exact comparison_set ..
  | sub => exact comparison_set ..
  | mul => exact (comparison_set ..).trans (comparison_set ..)
  | div =>
      unfold arithmetic
      dsimp only
      split
      · exact (comparison_set ..).trans (comparison_set ..)
      · rfl

theorem comparison_shift (kind : Shift) (count : Nat) :
    (rs.shift kind count).comparison = rs.comparison := by
  unfold shift
  dsimp only
  split
  · exact (comparison_set ..).trans (comparison_set ..)
  · exact comparison_set ..

theorem comparison_transfer (r : Register) (kind : Transfer) (ea : Word) :
    (rs.transfer r kind ea).comparison = rs.comparison := by
  cases kind <;> exact comparison_set ..

theorem comparison_afterTest (condition : Condition) :
    (rs.afterTest condition).comparison = rs.comparison := by
  cases condition <;> rfl

theorem comparison_afterJump (condition : Condition) :
    (rs.afterJump condition).comparison = rs.comparison := by
  unfold afterJump
  split
  · rfl
  · exact (comparison_set ..).trans (comparison_afterTest condition)

end Registers

/-! ## The flags behind one instruction -/

namespace Machine

namespace Completion

variable {δ : Type}

/-- The instruction is one of the two jumps on overflow, which turn the toggle off whether
they are taken or not. -/
def ClearsToggle (c : Completion δ) : Prop :=
  c.instruction.operation = .jump .jov ∨ c.instruction.operation = .jump .jnov

/-- The instruction is a comparison. -/
def Compares (c : Completion δ) : Prop :=
  ∃ r f, c.instruction.operation = .compare r f

/-- The instruction overflowed when it was executed. -/
def Overflows (c : Completion δ) : Prop :=
  match c.instruction.operation with
  | .arithmetic kind f => kind.Overflows c.machine.registers.a.value (c.operand f)
  | .transfer r kind =>
    kind.Overflows r.width.maxMagnitude (c.machine.registers.get r).value c.address
  | _ => False

/-- How a comparison of a field of a register with that of the cell came out. -/
def outcome (c : Completion δ) (r : Register) (f : Field) : Ordering :=
  compare (f.extract (c.machine.registers.get r)).value (c.operand f)

end Completion

section Instructions

variable {δ : Type} {m : Machine δ} {address : Word} {index : Nat}

theorem clearsToggle_jump_iff {condition : Condition} :
    (Completion.mk m ⟨address, index, .jump condition⟩).ClearsToggle ↔
      condition = .jov ∨ condition = .jnov := by
  simp only [Completion.ClearsToggle, Operation.jump.injEq]

/-- What is no jump on the toggle or the indicator leaves the toggle to its overflow. -/
theorem toggle_iff_of_ne_jump {op : Operation} (other : ∀ condition, op ≠ .jump condition)
    {P : Prop} :
    P ↔ ¬ (Completion.mk m ⟨address, index, op⟩).ClearsToggle ∧ P := by
  have kept : ¬ (Completion.mk m ⟨address, index, op⟩).ClearsToggle := by
    rintro (same | same)
    · exact other _ same
    · exact other _ same
  exact (and_iff_right kept).symm

/-- What neither tests the toggle nor overflows keeps it. -/
theorem toggle_kept {op : Operation} {address : Word} {index : Nat} {toggle : Bool}
    (other : ∀ condition, op ≠ .jump condition)
    (fits : ¬ (Completion.mk m ⟨address, index, op⟩).Overflows)
    (same : toggle = m.registers.overflow) :
    toggle = true ↔ ¬ (Completion.mk m ⟨address, index, op⟩).ClearsToggle ∧
      (m.registers.overflow = true ∨ (Completion.mk m ⟨address, index, op⟩).Overflows) := by
  rw [same, ← toggle_iff_of_ne_jump other]
  exact (or_iff_left fits).symm

/-- A test of the toggle does not overflow. -/
theorem Completion.Overflows.not_clearsToggle {c : Completion δ} (h : c.Overflows) :
    ¬ c.ClearsToggle := by
  unfold Completion.Overflows at h
  rintro (test | test)
  · rw [test] at h
    exact h
  · rw [test] at h
    exact h

end Instructions

variable {δ : Type} [Device δ] {m m' : Machine δ} {i : Instruction}

/-- A failure leaves the register file alone. -/
theorem Fails.registers_eq {ea : Word} {op : Operation} {e : Fault} (h : Fails m ea op e m') :
    m'.registers = m.registers := by
  cases h <;> rfl

/-- **The toggle behind an instruction**: it is on when it was on before or the instruction
has overflowed, unless the instruction tests it. -/
theorem Performs.overflow_iff (h : Performs m i m') :
    m'.registers.overflow = true ↔
      ¬ (Completion.mk m i).ClearsToggle ∧
        (m.registers.overflow = true ∨ (Completion.mk m i).Overflows) := by
  obtain ⟨address, index, op⟩ := i
  obtain ⟨inside, completes⟩ := h
  cases completes with
  | @arithmetic kind f a cell =>
      have operand := Completion.operand_of_index (c := ⟨m, ⟨address, index, _⟩⟩) cell f
      have toggle := @Registers.overflow_arithmetic m.registers kind
        (f.extract (m.memory.cell a))
      rw [← operand] at toggle
      exact toggle.trans (toggle_iff_of_ne_jump fun _ same => by cases same)
  | transfer =>
      exact (Registers.overflow_transfer ..).trans
        (toggle_iff_of_ne_jump fun _ same => by cases same)
  | jumpStay holds =>
      rw [clearsToggle_jump_iff]
      exact (Registers.overflow_afterTest _).trans (and_congr_right' (or_iff_left id).symm)
  | @jump condition a holds target =>
      have toggle := @Registers.overflow_afterTest m.registers condition
      rw [← Registers.overflow_afterJump] at toggle
      rw [clearsToggle_jump_iff]
      exact toggle.trans (and_congr_right' (or_iff_left id).symm)
  | load cell =>
      exact toggle_kept (fun _ same => by cases same) id (Registers.overflow_set ..)
  | loadNegative cell =>
      exact toggle_kept (fun _ same => by cases same) id (Registers.overflow_set ..)
  | move apart source target =>
      exact toggle_kept (fun _ same => by cases same) id (Registers.overflow_set ..)
  | shift nonneg =>
      exact toggle_kept (fun _ same => by cases same) id (Registers.overflow_shift ..)
  | registerJump holds target =>
      exact toggle_kept (fun _ same => by cases same) id (Registers.overflow_set ..)
  | deviceJump found when target =>
      exact toggle_kept (fun _ same => by cases same) id (Registers.overflow_set ..)
  | _ => exact toggle_kept (fun _ same => by cases same) id rfl

/-- A comparison sets the indicator to its outcome. -/
theorem Performs.comparison_of_compare {r : Register} {f : Field} (h : Performs m i m')
    (compares : i.operation = .compare r f) :
    m'.registers.comparison = some ((Completion.mk m i).outcome r f) := by
  obtain ⟨address, index, op⟩ := i
  obtain ⟨inside, completes⟩ := h
  cases compares
  cases completes with
  | @compare _ _ a cell =>
      have operand := Completion.operand_of_index (c := ⟨m, ⟨address, index, _⟩⟩) cell f
      rw [Completion.outcome, operand]
      rfl

/-- Only a comparison changes the indicator. -/
theorem Performs.comparison_of_not_compares (h : Performs m i m')
    (other : ¬ (Completion.mk m i).Compares) :
    m'.registers.comparison = m.registers.comparison := by
  obtain ⟨address, index, op⟩ := i
  obtain ⟨inside, completes⟩ := h
  cases completes with
  | compare cell => exact absurd ⟨_, _, rfl⟩ other
  | arithmetic cell => exact Registers.comparison_arithmetic ..
  | shift nonneg => exact Registers.comparison_shift ..
  | transfer => exact Registers.comparison_transfer ..
  | jumpStay holds => exact Registers.comparison_afterTest ..
  | jump holds target => exact Registers.comparison_afterJump ..
  | move apart source target => exact Registers.comparison_set ..
  | load cell => exact Registers.comparison_set ..
  | loadNegative cell => exact Registers.comparison_set ..
  | registerJump holds target => exact Registers.comparison_set ..
  | deviceJump found when target => exact Registers.comparison_set ..
  | _ => rfl

/-! ## The flags behind a series of attempts -/

/-- **The toggle tells whether something overflowed since it was last tested.** -/
theorem overflow_afterAll_iff (m : Machine δ) (attempts : List Attempt) :
    (m.afterAll attempts).registers.overflow = true ↔
      (∃ c, NoneSince Completion.ClearsToggle (m.completions attempts) c ∧ c.Overflows) ∨
        m.registers.overflow = true ∧ ∀ c ∈ m.completions attempts, ¬ c.ClearsToggle := by
  refine history_induction (P := fun events m' => m'.registers.overflow = true ↔
    (∃ c, NoneSince Completion.ClearsToggle events c ∧ c.Overflows) ∨
      m.registers.overflow = true ∧ ∀ c ∈ events, ¬ c.ClearsToggle) ?_ ?_ ?_ attempts
  · intro events m' i m'' before performs
    rw [latched_append_singleton_iff, ← before, performs.overflow_iff]
    constructor
    · rintro ⟨kept, on | overflows⟩
      · exact Or.inr ⟨kept, on⟩
      · exact Or.inl overflows
    · rintro (overflows | ⟨kept, on⟩)
      · exact ⟨overflows.not_clearsToggle, Or.inr overflows⟩
      · exact ⟨kept, Or.inl on⟩
  · intro events m' ea op e m'' before fails
    rw [fails.registers_eq]
    exact before
  · simp [not_noneSince_nil]

/-- **The indicator tells how the last comparison came out**, and is what it was when there
was none. -/
theorem comparison_afterAll (m : Machine δ) (attempts : List Attempt) :
    (∀ c r f, NoneSince Completion.Compares (m.completions attempts) c →
        c.instruction.operation = .compare r f →
        (m.afterAll attempts).registers.comparison = some (c.outcome r f)) ∧
      ((∀ c ∈ m.completions attempts, ¬ c.Compares) →
        (m.afterAll attempts).registers.comparison = m.registers.comparison) := by
  refine history_induction (P := fun events m' =>
    (∀ c r f, NoneSince Completion.Compares events c → c.instruction.operation = .compare r f →
      m'.registers.comparison = some (c.outcome r f)) ∧
    ((∀ c ∈ events, ¬ c.Compares) → m'.registers.comparison = m.registers.comparison))
    ?_ ?_ ?_ attempts
  · rintro events m' i m'' ⟨last, never⟩ performs
    constructor
    · intro c r f since compares
      rcases noneSince_append_singleton_iff.1 since with rfl | ⟨earlier, other⟩
      · exact performs.comparison_of_compare compares
      · rw [performs.comparison_of_not_compares other]
        exact last c r f earlier compares
    · intro none
      obtain ⟨earlier, latest⟩ := List.forall_mem_append.1 none
      rw [performs.comparison_of_not_compares (latest _ (List.mem_singleton.2 rfl))]
      exact never earlier
  · intro events m' ea op e m'' before fails
    rw [fails.registers_eq]
    exact before
  · exact ⟨fun c r f since => absurd since not_noneSince_nil, fun _ => rfl⟩

/-- The indicator is unset exactly when it was unset and nothing was compared since. -/
theorem comparison_afterAll_eq_none_iff (m : Machine δ) (attempts : List Attempt) :
    (m.afterAll attempts).registers.comparison = none ↔
      m.registers.comparison = none ∧ ∀ c ∈ m.completions attempts, ¬ c.Compares := by
  refine history_induction (P := fun events m' => m'.registers.comparison = none ↔
    m.registers.comparison = none ∧ ∀ c ∈ events, ¬ c.Compares) ?_ ?_ ?_ attempts
  · intro events m' i m'' before performs
    rw [List.forall_mem_append, List.forall_mem_singleton, ← and_assoc, ← before]
    by_cases compares : (Completion.mk m' i).Compares
    · obtain ⟨r, f, same⟩ := compares
      rw [performs.comparison_of_compare same]
      constructor
      · intro impossible
        cases impossible
      · rintro ⟨-, other⟩
        exact absurd ⟨r, f, same⟩ other
    · rw [performs.comparison_of_not_compares compares]
      exact (and_iff_left compares).symm
  · intro events m' ea op e m'' before fails
    rw [fails.registers_eq]
    exact before
  · exact (and_iff_left fun c member => absurd member List.not_mem_nil).symm

/-- **The two flags tell the history of a machine.** Behind any series of attempts the
overflow toggle is on exactly when an instruction overflowed and no jump tested it since,
or it was on and no jump has tested it; an instruction overflows when its exact result has
no place in its register. The comparison indicator is the outcome of the last comparison,
or what it was when nothing was compared. So it never becomes unset, and a machine that
starts at rest has it unset until it compares for the first time. -/
theorem flags_tell_history (m : Machine δ) (attempts : List Attempt) :
    ((m.afterAll attempts).registers.overflow = true ↔
      (∃ c, NoneSince Completion.ClearsToggle (m.completions attempts) c ∧ c.Overflows) ∨
        m.registers.overflow = true ∧ ∀ c ∈ m.completions attempts, ¬ c.ClearsToggle) ∧
    (∀ c r f, NoneSince Completion.Compares (m.completions attempts) c →
      c.instruction.operation = .compare r f →
      (m.afterAll attempts).registers.comparison = some (c.outcome r f)) ∧
    ((∀ c ∈ m.completions attempts, ¬ c.Compares) →
      (m.afterAll attempts).registers.comparison = m.registers.comparison) ∧
    (m.registers.comparison ≠ none → (m.afterAll attempts).registers.comparison ≠ none) ∧
    ∀ ds : Devices δ,
      ((initial ds).afterAll attempts).registers.comparison = none ↔
        ∀ c ∈ (initial ds).completions attempts, ¬ c.Compares := by
  obtain ⟨last, never⟩ := m.comparison_afterAll attempts
  refine ⟨m.overflow_afterAll_iff attempts, last, never, ?_, ?_⟩
  · intro set unset
    exact set ((m.comparison_afterAll_eq_none_iff attempts).1 unset).1
  · intro ds
    rw [comparison_afterAll_eq_none_iff]
    exact and_iff_right rfl

/-- Adds 4095 to I1 twice, and then jumps on overflow to an address outside memory. -/
def overflowing : List Attempt :=
  [.word (Instruction.assemble 4095 0 0 (Opcode.transfer + 1)),
    .word (Instruction.assemble 4095 0 0 (Opcode.transfer + 1)),
    .word (Instruction.assemble (-1) 0 2 Opcode.jump)]

/-- The jump fails and does not turn the toggle off, so it tells of the second sum. -/
theorem flags_tell_history_overflowing :
    ∃ c, NoneSince Completion.ClearsToggle (standard.completions overflowing) c ∧
      c.Overflows := by
  have on : (standard.afterAll overflowing).registers.overflow = true := by decide +kernel
  obtain ⟨toggle, -⟩ := standard.flags_tell_history overflowing
  rcases toggle.1 on with overflowed | ⟨impossible, -⟩
  · exact overflowed
  · cases impossible

end Machine

end MixMachine
