import Mathlib.Logic.ExistsUnique
import MixMachine.Proofs.FailureConditions

/-!
# Where control goes

There are three families of jumps: on the toggle and the indicator, on the number in a
register, and on a device that is busy or ready. A jump is taken when its condition holds of
the machine as it was before. It then goes to its effective address and leaves the address
behind it in J, unless it is the one that saves J. Every other instruction goes to the next
cell and leaves J alone, and so an address of no cell is no obstacle to a jump that is not
taken.

* `Machine.Completes.jumps_or_stays`: an instruction jumps exactly when it is a jump that is
  taken.
* `Machine.completes_jump_iff`: what a jump needs to be completed.
* `Machine.control_goes`: where an instruction goes, and on what conditions.
-/

namespace MixMachine

/-- A jump has no field. -/
theorem Operation.field?_eq_none_of_jumps {op : Operation} (jumps : op.jumps = true) :
    op.field? = none := by
  cases op <;> first | rfl | cases jumps

/-! ## Numbers on one side of zero -/

namespace SignTest

/-- The one of three tests that tells how a number lies to zero. -/
def side (v : Int) : SignTest :=
  if v < 0 then negative else if v = 0 then zero else positive

/-- The three tests that exclude one another. -/
def sides : List SignTest :=
  [negative, zero, positive]

theorem side_mem_sides (v : Int) : side v ∈ sides := by
  unfold side
  split
  · decide
  · split <;> decide

/-- One of the three tests holds exactly when it is the one that tells. -/
theorem holds_iff_eq_side {test : SignTest} (member : test ∈ sides) (v : Int) :
    test.holds v = true ↔ test = side v := by
  have named : test = negative ∨ test = zero ∨ test = positive := by
    simpa only [sides, List.mem_cons, List.not_mem_nil, or_false] using member
  unfold side
  rcases named with rfl | rfl | rfl <;> simp only [holds, decide_eq_true_eq] <;> grind

/-- The test that holds when this one does not. -/
def opposite : SignTest → SignTest
  | negative => nonNegative
  | zero => nonZero
  | positive => nonPositive
  | nonNegative => negative
  | nonZero => zero
  | nonPositive => positive

theorem holds_opposite (test : SignTest) (v : Int) :
    test.opposite.holds v = true ↔ ¬ test.holds v = true := by
  cases test <;> simp only [opposite, holds, decide_eq_true_eq] <;> omega

/-- **Exactly one of the three tests holds of a number.** -/
theorem existsUnique_holds (v : Int) : ∃! test, test ∈ sides ∧ test.holds v = true := by
  have member := side_mem_sides v
  refine ⟨side v, ⟨member, (holds_iff_eq_side member v).2 rfl⟩, ?_⟩
  rintro test ⟨other, holds⟩
  exact (holds_iff_eq_side other v).1 holds

end SignTest

namespace Machine

variable {δ : Type} [Device δ] {m m' : Machine δ} {ea : Word} {op : Operation}

/-! ## Conditions -/

/-- Only a jump is taken. -/
theorem jumps_of_takesJump (taken : m.takesJump op) : op.jumps = true := by
  cases op with
  | jump condition => rfl
  | jumpRegister r test => rfl
  | device op unit =>
      obtain ⟨d, -, when⟩ := taken
      show op.jumpsWhen.isSome = true
      rw [when]
      rfl
  | _ => cases taken

/-- A jump on a device asks whether it is busy, where there is one. -/
theorem takesJump_device_iff {dop : DeviceOp} {unit : Nat} {d : δ} {busy : Bool}
    (attached : m.devices.get? unit = some d) (when : dop.jumpsWhen = some busy) :
    m.takesJump (.device dop unit) ↔ Device.isBusy d = busy := by
  constructor
  · rintro ⟨d', attached', when'⟩
    cases attached'.symm.trans attached
    exact Option.some.inj (when'.symm.trans when)
  · rintro rfl
    exact ⟨d, attached, when⟩

/-- No device is busy and ready at once. -/
theorem not_takesJump_busy_and_ready (unit : Nat) :
    ¬ (m.takesJump (.device .jbus unit) ∧ m.takesJump (.device .jred unit)) := by
  rintro ⟨⟨d, attached, when⟩, ready⟩
  have busy : true = Device.isBusy d := Option.some.inj when
  have idle := (takesJump_device_iff attached rfl).1 ready
  cases busy.trans idle

/-! ## One instruction -/

/-- **An instruction jumps exactly when it is a jump that is taken**, to its effective
address. -/
theorem Completes.jumps_or_stays {flow : Flow} (h : Completes m ea op flow m') :
    (m.takesJump op ∧ ∃ a, flow = .jump a ∧ Memory.index ea.value = .ok a) ∨
      (¬ m.takesJump op ∧ flow = .next) := by
  cases h with
  | deviceJump found when target =>
      exact Or.inl ⟨⟨_, Devices.find_eq_ok_iff.1 found, when⟩, _, rfl, target⟩
  | jump holds target => exact Or.inl ⟨holds, _, rfl, target⟩
  | registerJump holds target => exact Or.inl ⟨holds, _, rfl, target⟩
  | jumpStay holds =>
      refine Or.inr ⟨fun taken => ?_, rfl⟩
      cases holds.symm.trans taken
  | registerStay holds =>
      refine Or.inr ⟨fun taken => ?_, rfl⟩
      cases holds.symm.trans taken
  | deviceStay found when =>
      refine Or.inr ⟨fun taken => ?_, rfl⟩
      have attached := Devices.find_eq_ok_iff.1 found
      exact (Bool.eq_not_self _).1 ((takesJump_device_iff attached when).1 taken)
  | _ =>
      refine Or.inr ⟨fun taken => ?_, rfl⟩
      cases jumps_of_takesJump taken

/-- A jump on the toggle turns it off, taken or not. -/
theorem Completes.overflow_of_test {flow : Flow} {condition : Condition}
    (h : Completes m ea (.jump condition) flow m')
    (tests : condition = .jov ∨ condition = .jnov) : m'.registers.overflow = false := by
  cases h with
  | jumpStay _ => rcases tests with rfl | rfl <;> rfl
  | jump _ _ => rcases tests with rfl | rfl <;> rfl

/-- **What a jump needs to be completed**: the device that it asks, and when it is taken a
cell to go to. -/
theorem completes_jump_iff (jumps : op.jumps = true) :
    (∃ flow m', Completes m ea op flow m') ↔
      (∀ dop unit, op = .device dop unit → ∃ d, m.devices.get? unit = some d) ∧
        (m.takesJump op → ¬ Memory.Outside ea.value) := by
  constructor
  · rintro ⟨flow, m', completes⟩
    constructor
    · rintro dop unit rfl
      cases completes with
      | deviceStay found _ => exact ⟨_, Devices.find_eq_ok_iff.1 found⟩
      | deviceJump found _ _ => exact ⟨_, Devices.find_eq_ok_iff.1 found⟩
      | _ => cases jumps
    · intro taken outside
      rcases completes.jumps_or_stays with ⟨-, a, -, target⟩ | ⟨stays, -⟩
      · cases target.symm.trans (Memory.index_eq_error_outside_iff.2 ⟨outside, rfl⟩)
      · exact stays taken
  · rintro ⟨attached, target⟩
    rcases completes_or_fails m ea op with completes | ⟨e, m', fails⟩
    · exact completes
    · exfalso
      cases fails with
      | noDevice absent =>
          obtain ⟨d, found⟩ := attached _ _ rfl
          cases found.symm.trans (Devices.find_eq_error_iff.1 absent).1
      | deviceJump found when outside =>
          exact target ⟨_, Devices.find_eq_ok_iff.1 found, when⟩
            (Memory.index_eq_error_outside_iff.1 outside).1
      | jump holds outside => exact target holds (Memory.index_eq_error_outside_iff.1 outside).1
      | registerJump holds outside =>
          exact target holds (Memory.index_eq_error_outside_iff.1 outside).1
      | cell hasField _ => cases (Operation.field?_eq_none_of_jumps jumps).symm.trans hasField
      | _ => cases jumps

/-- Where an instruction goes that is performed, and what it leaves in J and the toggle. -/
theorem Performs.goes {i : Instruction} (h : Performs m i m') (coded : i.operation.code? ≠ none) :
    (m.takesJump i.operation →
      m'.registers.pc = (m.effectiveAddress i).value ∧
        (i.operation ≠ .jump .jsj →
          m'.registers.get .j = Word.ofSignMagnitude .plus (m.registers.pc + 1))) ∧
    (¬ m.takesJump i.operation → m'.registers.pc = m.registers.pc + 1) ∧
    (¬ m.takesJump i.operation ∨ i.operation = .jump .jsj →
      m'.registers.get .j = m.registers.get .j) ∧
    (i.operation = .jump .jov ∨ i.operation = .jump .jnov → m'.registers.overflow = false) := by
  obtain ⟨inside, completes⟩ := h
  rename_i flow done
  -- behind the instruction only the program counter and the counts are set
  have held : (retire i m.registers.pc flow done).registers.get .j = done.registers.get .j :=
    Registers.get_mk_flags ..
  rw [held]
  refine ⟨?_, ?_, ?_, ?_⟩
  · intro taken
    rcases completes.jumps_or_stays with ⟨-, a, rfl, target⟩ | ⟨stays, -⟩
    · exact ⟨(Memory.index_eq_ok_iff.1 target).1.symm,
        fun links => completes.get_j_of_jump links inside⟩
    · exact absurd taken stays
  · intro stays
    rcases completes.jumps_or_stays with ⟨taken, -⟩ | ⟨-, rfl⟩
    · exact absurd taken stays
    · rfl
  · rintro (stays | saves)
    · rcases completes.jumps_or_stays with ⟨taken, -⟩ | ⟨-, rfl⟩
      · exact absurd taken stays
      · exact completes.get_j_of_next coded
    · rw [saves] at completes
      exact completes.get_j_of_jsj
  · rintro (tests | tests)
    · rw [tests] at completes
      exact completes.overflow_of_test (Or.inl rfl)
    · rw [tests] at completes
      exact completes.overflow_of_test (Or.inr rfl)

/-! ## Every attempt -/

/-- **Where control goes.** An attempt that answers goes to the effective address when its
instruction is a jump whose condition holds of the machine as it was, and else to the next
cell. J then holds the address behind a jump that is taken and does not save J, and is else
what it was. A jump needs nothing to be completed but the device that it asks, and a cell at
its address when it is taken.

The conditions: the jumps on the toggle read it and turn it off. A jump on a register goes by
the number in it, for which a zero of any sign is zero; exactly one of three tests holds, and
the others are the opposite of one each. A device that is there is busy or ready, and never
both. -/
theorem control_goes {a : Attempt} {i : Instruction}
    (decoded : Instruction.decode (a.fetch m) = .ok i) :
    (∀ s m', a.exec m = .ok s m' →
      (m.takesJump i.operation →
        m'.registers.pc = (m.effectiveAddress i).value ∧
          (i.operation ≠ .jump .jsj →
            m'.registers.get .j = Word.ofSignMagnitude .plus (m.registers.pc + 1))) ∧
      (¬ m.takesJump i.operation → m'.registers.pc = m.registers.pc + 1) ∧
      (¬ m.takesJump i.operation ∨ i.operation = .jump .jsj →
        m'.registers.get .j = m.registers.get .j) ∧
      (i.operation = .jump .jov ∨ i.operation = .jump .jnov →
        m'.registers.overflow = false)) ∧
    (i.operation.jumps = true → ((∃ s m', a.exec m = .ok s m') ↔
      m.state = .running ∧ m.registers.pc ≤ 3999 ∧
        (∀ dop unit, i.operation = .device dop unit → ∃ d, m.devices.get? unit = some d) ∧
          (m.takesJump i.operation → ¬ Memory.Outside (m.effectiveAddress i).value))) ∧
    (∀ op : Operation, m.takesJump op → op.jumps = true) ∧
    (m.takesJump (.jump .jmp) ∧ m.takesJump (.jump .jsj) ∧
      (m.takesJump (.jump .jov) ↔ m.registers.overflow = true) ∧
      (m.takesJump (.jump .jnov) ↔ m.registers.overflow = false)) ∧
    (∀ r,
      (m.takesJump (.jumpRegister r .negative) ↔ (m.registers.get r).value < 0) ∧
      (m.takesJump (.jumpRegister r .zero) ↔ (m.registers.get r).magnitude = 0) ∧
      (m.takesJump (.jumpRegister r .positive) ↔ 0 < (m.registers.get r).value) ∧
      (∃! test, test ∈ [SignTest.negative, .zero, .positive] ∧
        m.takesJump (.jumpRegister r test)) ∧
      (m.takesJump (.jumpRegister r .nonNegative) ↔
        ¬ m.takesJump (.jumpRegister r .negative)) ∧
      (m.takesJump (.jumpRegister r .nonZero) ↔ ¬ m.takesJump (.jumpRegister r .zero)) ∧
      (m.takesJump (.jumpRegister r .nonPositive) ↔
        ¬ m.takesJump (.jumpRegister r .positive))) ∧
    (∀ unit,
      ¬ (m.takesJump (.device .jbus unit) ∧ m.takesJump (.device .jred unit)) ∧
      ∀ d, m.devices.get? unit = some d →
        (m.takesJump (.device .jbus unit) ↔ Device.isBusy d = true) ∧
        (m.takesJump (.device .jred unit) ↔ Device.isBusy d = false)) := by
  refine ⟨?_, ?_, fun op => jumps_of_takesJump, ?_, ?_, ?_⟩
  · intro s m' run
    obtain ⟨-, -, performs⟩ := Attempt.performs_fetched run decoded
    exact performs.goes (Instruction.code?_ne_none_of_decode decoded)
  · intro jumps
    rw [Attempt.exists_ok_iff decoded, completes_jump_iff jumps]
  · exact ⟨rfl, rfl, Iff.rfl, Bool.not_eq_true' _ ▸ Iff.rfl⟩
  · intro r
    have opposite := fun test => SignTest.holds_opposite test (m.registers.get r).value
    exact ⟨decide_eq_true_iff, decide_eq_true_iff.trans (Word.value_eq_zero_iff _),
      decide_eq_true_iff, SignTest.existsUnique_holds _, opposite .negative, opposite .zero,
      opposite .positive⟩
  · intro unit
    exact ⟨not_takesJump_busy_and_ready unit, fun d attached =>
      ⟨takesJump_device_iff attached rfl, takesJump_device_iff attached rfl⟩⟩

/-- Jumps to 400 when X is zero. -/
def jumpIfZero : Attempt :=
  .word (Instruction.assemble 400 0 1 (Opcode.jumpRegister + 7))

/-- A machine with a minus zero in X. -/
def minusZeroInX : Machine Buffer :=
  { standard with registers := Registers.initial.set .x (Word.ofSignMagnitude .minus 0) }

/-- A minus zero is a zero: the jump is taken and links. -/
theorem control_goes_minus_zero :
    ∃ s m', jumpIfZero.exec minusZeroInX = .ok s m' ∧ (m'.registers.pc : Int) = 400 ∧
      m'.registers.get .j = Word.ofSignMagnitude .plus 1 := by
  have decoded : Instruction.decode (jumpIfZero.fetch minusZeroInX) =
      .ok ⟨Instruction.addressOf 400, 0, .jumpRegister .x .zero⟩ := rfl
  obtain ⟨goes, completes, -, -, tests, -⟩ := control_goes decoded
  have taken := (tests .x).2.1.2 rfl
  have device : ∀ dop unit, Operation.jumpRegister .x .zero = .device dop unit →
      ∃ d, minusZeroInX.devices.get? unit = some d := by
    intro dop unit other
    cases other
  obtain ⟨s, m', run⟩ := (completes rfl).2 ⟨rfl, by decide, device, fun _ => by decide⟩
  obtain ⟨counter, linked⟩ := (goes s m' run).1 taken
  exact ⟨s, m', run, counter, linked (by decide)⟩

end Machine

end MixMachine
