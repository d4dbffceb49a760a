import MixMachine.Proofs.Actions

/-!
# What an instruction can do

`execute` computes what an instruction does; this module says it once more as
rules. `Completes m ea op flow m'` has a rule for every way in which the machine
`m` can complete an operation `op` at the effective address `ea`, and
`Fails m ea op e m'` one for every way in which it can fail. The premises of a
rule are exactly the checks that stand before its effect.

* `completes_or_fails`: at least one rule applies to every machine and operation.
* `execute_eq_ok_iff`, `execute_eq_error_iff`: `execute` follows the rules, and
  no other.
* `step_eq_executeWord`: a step is the execution of the word at the program
  counter, so what holds of every word holds of every step.
* `executeWord_eq_ok_iff`, `executeWord_eq_error_iff`: the execution of a word.

A fact about every instruction is then proved by cases on a rule.
-/

namespace MixMachine

/-! ## Jumps on the state of a device -/

/-- Whether a device operation is a jump, and if so whether it jumps when the
device is busy or when it is not. -/
def DeviceOp.jumpsWhen : DeviceOp → Option Bool
  | .jbus => some true
  | .jred => some false
  | _ => none

namespace Machine

variable {δ : Type} [Device δ]

/-! ## The rules -/

/-- The machine `m` completes the operation at the effective address `ea`: control
goes where the flow says, and the machine becomes the last argument. -/
inductive Completes (m : Machine δ) (ea : Word) : Operation → Flow → Machine δ → Prop
  | nop : Completes m ea .nop .next m
  | arithmetic {kind : Arithmetic} {f : Field} {a : Nat} :
    Memory.index ea.value = .ok a →
    Completes m ea (.arithmetic kind f) .next
      { m with registers := m.registers.arithmetic kind (f.extract (m.memory.cell a)) }
  | halt : Completes m ea .halt .next { m with state := .halted }
  | shift {kind : Shift} :
    0 ≤ ea.value →
    Completes m ea (.shift kind) .next
      { m with registers := m.registers.shift kind ea.value.toNat }
  | moveSame {count : Nat} :
    ea.value = (m.registers.get .i1).value →
    Completes m ea (.move count) .next m
  | move {count source target s t : Nat} :
    ea.value ≠ (m.registers.get .i1).value →
    Memory.block ea.value count = .ok (source, s) →
    Memory.block (m.registers.get .i1).value count = .ok (target, t) →
    Completes m ea (.move count) .next
      { m with
        memory := m.memory.copy source target (s - source)
        registers := m.registers.set .i1 (Word.ofSignMagnitude .plus t) }
  | load {r : Register} {f : Field} {a : Nat} :
    Memory.index ea.value = .ok a →
    Completes m ea (.load r f) .next
      { m with registers := m.registers.set r (f.extract (m.memory.cell a)) }
  | loadNegative {r : Register} {f : Field} {a : Nat} :
    Memory.index ea.value = .ok a →
    Completes m ea (.loadNegative r f) .next
      { m with registers := m.registers.set r (f.extract (m.memory.cell a).negate) }
  | store {r : Register} {f : Field} {a : Nat} :
    Memory.index ea.value = .ok a →
    Completes m ea (.store r f) .next
      { m with memory := m.memory.put a (f.insert (m.memory.cell a) (m.registers.get r)) }
  | storeZero {f : Field} {a : Nat} :
    Memory.index ea.value = .ok a →
    Completes m ea (.storeZero f) .next
      { m with memory := m.memory.put a (f.insert (m.memory.cell a) .zero) }
  | deviceStay {op : DeviceOp} {unit : Nat} {d : δ} :
    m.devices.find unit = .ok d →
    op.jumpsWhen = some (!Device.isBusy d) →
    Completes m ea (.device op unit) .next m
  | deviceJump {op : DeviceOp} {unit a : Nat} {d : δ} :
    m.devices.find unit = .ok d →
    op.jumpsWhen = some (Device.isBusy d) →
    Memory.index ea.value = .ok a →
    Completes m ea (.device op unit) (.jump a) { m with registers := m.registers.link }
  | control {unit : Nat} {d d' : δ} :
    m.devices.find unit = .ok d →
    Device.control ea.value d = .ok () d' →
    Completes m ea (.device .ioc unit) .next { m with devices := m.devices.attach unit d' }
  | input {unit first stop : Nat} {d d' : δ} {block : Vector Word (stop - first)} :
    m.devices.find unit = .ok d →
    Memory.block ea.value (Device.blockSize d) = .ok (first, stop) →
    first ≤ stop →
    Device.input (stop - first) d = .ok block d' →
    Completes m ea (.device .input unit) .next
      { m with
        devices := m.devices.attach unit d'
        memory := m.memory.putWords first block.toList }
  | output {unit first stop : Nat} {d d' : δ} :
    m.devices.find unit = .ok d →
    Memory.block ea.value (Device.blockSize d) = .ok (first, stop) →
    first ≤ stop →
    Device.output (m.memory.words first (stop - first)) d = .ok () d' →
    Completes m ea (.device .output unit) .next
      { m with devices := m.devices.attach unit d' }
  | jumpStay {condition : Condition} :
    condition.holds m.registers.overflow m.registers.comparison = false →
    Completes m ea (.jump condition) .next
      { m with registers := m.registers.afterTest condition }
  | jump {condition : Condition} {a : Nat} :
    condition.holds m.registers.overflow m.registers.comparison = true →
    Memory.index ea.value = .ok a →
    Completes m ea (.jump condition) (.jump a)
      { m with registers := m.registers.afterJump condition }
  | registerStay {r : Register} {test : SignTest} :
    test.holds (m.registers.get r).value = false →
    Completes m ea (.jumpRegister r test) .next m
  | registerJump {r : Register} {test : SignTest} {a : Nat} :
    test.holds (m.registers.get r).value = true →
    Memory.index ea.value = .ok a →
    Completes m ea (.jumpRegister r test) (.jump a) { m with registers := m.registers.link }
  | transfer {r : Register} {kind : Transfer} :
    Completes m ea (.transfer r kind) .next
      { m with registers := m.registers.transfer r kind ea }
  | compare {r : Register} {f : Field} {a : Nat} :
    Memory.index ea.value = .ok a →
    Completes m ea (.compare r f) .next
      { m with registers := m.registers.compare r f (m.memory.cell a) }

/-- The machine `m` fails to do the operation at the effective address `ea`, with
this fault, and becomes the last argument. Only a hook can make it another machine:
what it made of its device stays. That is a hook which fails, or which has given the
block of an input whose end wraps round. -/
inductive Fails (m : Machine δ) (ea : Word) : Operation → Fault → Machine δ → Prop
  | cell {op : Operation} {f : Field} {e : MemoryError} :
    op.field? = some f →
    Memory.index ea.value = .error e →
    Fails m ea op (.memory e) m
  | shift {kind : Shift} :
    ea.value < 0 →
    Fails m ea (.shift kind) (.negativeShift ea.value) m
  | moveSource {count : Nat} {e : MemoryError} :
    ea.value ≠ (m.registers.get .i1).value →
    Memory.block ea.value count = .error e →
    Fails m ea (.move count) (.memory e) m
  | moveTarget {count source s : Nat} {e : MemoryError} :
    ea.value ≠ (m.registers.get .i1).value →
    Memory.block ea.value count = .ok (source, s) →
    Memory.block (m.registers.get .i1).value count = .error e →
    Fails m ea (.move count) (.memory e) m
  | noDevice {op : DeviceOp} {unit : Nat} {e : DeviceError} :
    m.devices.find unit = .error e →
    Fails m ea (.device op unit) (.device e) m
  | deviceJump {op : DeviceOp} {unit : Nat} {d : δ} {e : MemoryError} :
    m.devices.find unit = .ok d →
    op.jumpsWhen = some (Device.isBusy d) →
    Memory.index ea.value = .error e →
    Fails m ea (.device op unit) (.memory e) m
  | control {unit : Nat} {d d' : δ} {e : DeviceError} :
    m.devices.find unit = .ok d →
    Device.control ea.value d = .error e d' →
    Fails m ea (.device .ioc unit) (.device e) { m with devices := m.devices.attach unit d' }
  | inputBlock {unit : Nat} {d : δ} {e : MemoryError} :
    m.devices.find unit = .ok d →
    Memory.block ea.value (Device.blockSize d) = .error e →
    Fails m ea (.device .input unit) (.memory e) m
  | input {unit first stop : Nat} {d d' : δ} {e : DeviceError} :
    m.devices.find unit = .ok d →
    Memory.block ea.value (Device.blockSize d) = .ok (first, stop) →
    Device.input (stop - first) d = .error e d' →
    Fails m ea (.device .input unit) (.device e) { m with devices := m.devices.attach unit d' }
  | inputReversed {unit first stop : Nat} {d d' : δ} {block : Vector Word (stop - first)} :
    m.devices.find unit = .ok d →
    Memory.block ea.value (Device.blockSize d) = .ok (first, stop) →
    stop < first →
    Device.input (stop - first) d = .ok block d' →
    Fails m ea (.device .input unit) (.memory (.addressOutOfRange (Memory.signed64 stop)))
      { m with devices := m.devices.attach unit d' }
  | outputBlock {unit : Nat} {d : δ} {e : MemoryError} :
    m.devices.find unit = .ok d →
    Memory.block ea.value (Device.blockSize d) = .error e →
    Fails m ea (.device .output unit) (.memory e) m
  | output {unit first stop : Nat} {d d' : δ} {e : DeviceError} :
    m.devices.find unit = .ok d →
    Memory.block ea.value (Device.blockSize d) = .ok (first, stop) →
    first ≤ stop →
    Device.output (m.memory.words first (stop - first)) d = .error e d' →
    Fails m ea (.device .output unit) (.device e) { m with devices := m.devices.attach unit d' }
  | outputReversed {unit first stop : Nat} {d : δ} :
    m.devices.find unit = .ok d →
    Memory.block ea.value (Device.blockSize d) = .ok (first, stop) →
    stop < first →
    Fails m ea (.device .output unit) (.memory (.addressOutOfRange (Memory.signed64 stop))) m
  | jump {condition : Condition} {e : MemoryError} :
    condition.holds m.registers.overflow m.registers.comparison = true →
    Memory.index ea.value = .error e →
    Fails m ea (.jump condition) (.memory e) m
  | registerJump {r : Register} {test : SignTest} {e : MemoryError} :
    test.holds (m.registers.get r).value = true →
    Memory.index ea.value = .error e →
    Fails m ea (.jumpRegister r test) (.memory e) m

variable {m m' : Machine δ} {ea : Word}

/-- The rule for a move between two blocks that lie in memory. -/
theorem Completes.move_inside {count source target : Nat}
    (apart : ea.value ≠ (m.registers.get .i1).value) (from_source : ea.value = source)
    (to_target : (m.registers.get .i1).value = target) (sourceCell : source < memorySize)
    (targetCell : target < memorySize) (sourceEnd : source + count ≤ memorySize)
    (targetEnd : target + count ≤ memorySize) :
    Completes m ea (.move count) .next
      { m with
        memory := m.memory.copy source target count
        registers := m.registers.set .i1 (Word.ofSignMagnitude .plus (target + count)) } := by
  have sourceBlock : Memory.block ea.value count = .ok (source, source + count) := by
    rw [from_source]
    exact Memory.block_of_le sourceCell sourceEnd
  have targetBlock : Memory.block (m.registers.get .i1).value count =
      .ok (target, target + count) := by
    rw [to_target]
    exact Memory.block_of_le targetCell targetEnd
  have moved := Completes.move apart sourceBlock targetBlock
  rwa [Nat.add_sub_cancel_left] at moved

/-- No instruction changes the count of steps by itself. -/
theorem Completes.steps {op : Operation} {flow : Flow} (h : Completes m ea op flow m') :
    m'.steps = m.steps := by
  cases h <;> rfl

/-- No instruction changes the clock by itself. -/
theorem Completes.clock {op : Operation} {flow : Flow} (h : Completes m ea op flow m') :
    m'.clock = m.clock := by
  cases h <;> rfl

/-! ## Every operation has a rule -/

/-- A device operation on a unit with a device completes or fails. -/
theorem completes_or_fails_device (ea : Word) (op : DeviceOp) {unit : Nat} {d : δ}
    (found : m.devices.find unit = .ok d) :
    (∃ flow m', Completes m ea (.device op unit) flow m') ∨
      ∃ e m', Fails m ea (.device op unit) e m' := by
  have jumping : ∀ busy, op.jumpsWhen = some busy →
      (∃ flow m', Completes m ea (.device op unit) flow m') ∨
        ∃ e m', Fails m ea (.device op unit) e m' := by
    intro busy when
    by_cases taken : busy = Device.isBusy d
    · rw [taken] at when
      cases target : Memory.index ea.value with
      | ok a => exact Or.inl ⟨_, _, .deviceJump found when target⟩
      | error e => exact Or.inr ⟨_, _, .deviceJump found when target⟩
    · rw [Bool.eq_not_of_ne taken] at when
      exact Or.inl ⟨_, _, .deviceStay found when⟩
  cases op with
  | jbus => exact jumping true rfl
  | jred => exact jumping false rfl
  | ioc =>
      cases hook : Device.control ea.value d with
      | ok u d' => exact Or.inl ⟨_, _, .control found hook⟩
      | error e d' => exact Or.inr ⟨_, _, .control found hook⟩
  | input =>
      cases range : Memory.block ea.value (Device.blockSize d) with
      | error e => exact Or.inr ⟨_, _, .inputBlock found range⟩
      | ok p =>
          obtain ⟨first, stop⟩ := p
          cases hook : Device.input (stop - first) d with
          | error e d' => exact Or.inr ⟨_, _, .input found range hook⟩
          | ok block d' =>
              rcases Nat.lt_or_ge stop first with reversed | forward
              · exact Or.inr ⟨_, _, .inputReversed found range reversed hook⟩
              · exact Or.inl ⟨_, _, .input found range forward hook⟩
  | output =>
      cases range : Memory.block ea.value (Device.blockSize d) with
      | error e => exact Or.inr ⟨_, _, .outputBlock found range⟩
      | ok p =>
          obtain ⟨first, stop⟩ := p
          rcases Nat.lt_or_ge stop first with reversed | forward
          · exact Or.inr ⟨_, _, .outputReversed found range reversed⟩
          · cases hook : Device.output (m.memory.words first (stop - first)) d with
            | ok u d' => exact Or.inl ⟨_, _, .output found range forward hook⟩
            | error e d' => exact Or.inr ⟨_, _, .output found range forward hook⟩

/-- **Every operation completes or fails by a rule.** -/
theorem completes_or_fails (m : Machine δ) (ea : Word) (op : Operation) :
    (∃ flow m', Completes m ea op flow m') ∨ ∃ e m', Fails m ea op e m' := by
  -- an operation with a field goes by the address of its cell alone
  have addressed : ∀ f, op.field? = some f →
      (∀ a, Memory.index ea.value = .ok a → ∃ flow m', Completes m ea op flow m') →
      (∃ flow m', Completes m ea op flow m') ∨ ∃ e m', Fails m ea op e m' := by
    intro f hasField completes
    cases address : Memory.index ea.value with
    | ok a => exact Or.inl (completes a address)
    | error e => exact Or.inr ⟨_, _, .cell hasField address⟩
  cases op with
  | nop => exact Or.inl ⟨_, _, .nop⟩
  | halt => exact Or.inl ⟨_, _, .halt⟩
  | transfer r kind => exact Or.inl ⟨_, _, .transfer⟩
  | arithmetic kind f => exact addressed f rfl fun a h => ⟨_, _, .arithmetic h⟩
  | load r f => exact addressed f rfl fun a h => ⟨_, _, .load h⟩
  | loadNegative r f => exact addressed f rfl fun a h => ⟨_, _, .loadNegative h⟩
  | store r f => exact addressed f rfl fun a h => ⟨_, _, .store h⟩
  | storeZero f => exact addressed f rfl fun a h => ⟨_, _, .storeZero h⟩
  | compare r f => exact addressed f rfl fun a h => ⟨_, _, .compare h⟩
  | shift kind =>
      by_cases negative : ea.value < 0
      · exact Or.inr ⟨_, _, .shift negative⟩
      · exact Or.inl ⟨_, _, .shift (by omega)⟩
  | move count =>
      by_cases same : ea.value = (m.registers.get .i1).value
      · exact Or.inl ⟨_, _, .moveSame same⟩
      · cases source : Memory.block ea.value count with
        | error e => exact Or.inr ⟨_, _, .moveSource same source⟩
        | ok p =>
            obtain ⟨s, s'⟩ := p
            cases target : Memory.block (m.registers.get .i1).value count with
            | error e => exact Or.inr ⟨_, _, .moveTarget same source target⟩
            | ok p =>
                obtain ⟨t, t'⟩ := p
                exact Or.inl ⟨_, _, .move same source target⟩
  | device op unit =>
      cases found : m.devices.find unit with
      | error e => exact Or.inr ⟨_, _, .noDevice found⟩
      | ok d => exact completes_or_fails_device ea op found
  | jump condition =>
      cases holds : condition.holds m.registers.overflow m.registers.comparison with
      | false => exact Or.inl ⟨_, _, .jumpStay holds⟩
      | true =>
          cases target : Memory.index ea.value with
          | ok a => exact Or.inl ⟨_, _, .jump holds target⟩
          | error e => exact Or.inr ⟨_, _, .jump holds target⟩
  | jumpRegister r test =>
      cases holds : test.holds (m.registers.get r).value with
      | false => exact Or.inl ⟨_, _, .registerStay holds⟩
      | true =>
          cases target : Memory.index ea.value with
          | ok a => exact Or.inl ⟨_, _, .registerJump holds target⟩
          | error e => exact Or.inr ⟨_, _, .registerJump holds target⟩

/-! ## Execution follows the rules -/

/-- The part of a device operation behind the look-up of the unit. -/
theorem workDevice_found {op : DeviceOp} {unit : Nat} {d : δ}
    (found : m.devices.find unit = .ok d) :
    workDevice op unit ea m =
      match op with
      | .jbus => if Device.isBusy d then jumpTo ea m else .ok .next m
      | .jred => if Device.isBusy d then .ok .next m else jumpTo ea m
      | .ioc =>
        (Exec.onDevice unit d (Device.control ea.value) >>= fun _ => pure .next) m
      | .input =>
        (Exec.ofMemory (Memory.block ea.value (Device.blockSize d)) >>= fun range =>
          Exec.onDevice unit d (Device.input (range.2 - range.1)) >>= fun block =>
          Exec.changeMemory (fun mem => mem.replace range.1 range.2 block.toList) >>= fun _ =>
          pure .next) m
      | .output =>
        (Exec.ofMemory (Memory.block ea.value (Device.blockSize d)) >>= fun range =>
          Exec.inspectMemory (fun mem => mem.slice range.1 range.2) >>= fun block =>
          Exec.onDevice unit d (Device.output block) >>= fun _ => pure .next) m := by
  unfold workDevice
  rw [Exec.get_bind, found]
  cases op with
  | jbus =>
      show (if Device.isBusy d then jumpTo ea else pure .next : Exec δ Flow) m = _
      split
      · rfl
      · rfl
  | jred =>
      show (if Device.isBusy d then pure .next else jumpTo ea : Exec δ Flow) m = _
      split
      · rfl
      · rfl
  | ioc => rfl
  | input => rfl
  | output => rfl

/-- A rule of completion is followed. -/
theorem Completes.execute {i : Instruction} {flow : Flow}
    (h : Completes m (m.effectiveAddress i) i.operation flow m') :
    Machine.execute i m = .ok flow m' := by
  obtain ⟨address, index, op⟩ := i
  unfold Machine.execute
  rw [Exec.get_bind]
  dsimp only at h ⊢
  generalize m.effectiveAddress ⟨address, index, op⟩ = ea at h ⊢
  cases h with
  | nop => rfl
  | halt => rfl
  | transfer => rfl
  | arithmetic inside => exact Exec.bind_ok (operand_ok inside)
  | load inside => exact Exec.bind_ok (operand_ok inside)
  | loadNegative inside => exact Exec.bind_ok (operand_ok inside)
  | compare inside => exact Exec.bind_ok (operand_ok inside)
  | store inside => exact Exec.bind_ok (store_ok inside _ _)
  | storeZero inside => exact Exec.bind_ok (store_ok inside _ _)
  | shift nonneg =>
      dsimp only
      rw [if_neg (by omega)]
      rfl
  | moveSame same => exact Exec.bind_ok (moveBlock_same same)
  | move apart source target => exact Exec.bind_ok (moveBlock_ok apart source target)
  | jumpStay holds => exact jump_stay holds
  | jump holds target => exact jump_taken holds target
  | registerStay holds =>
      dsimp only
      rw [holds]
      rfl
  | registerJump holds target =>
      dsimp only
      rw [holds, if_pos rfl]
      exact jumpTo_ok target
  | @deviceStay op unit d found when =>
      dsimp only
      rw [workDevice_found found]
      cases busy : Device.isBusy d <;> rw [busy] at when <;> cases op <;> cases when <;> rfl
  | @deviceJump op unit a d found when target =>
      dsimp only
      rw [workDevice_found found, ← jumpTo_ok target]
      cases busy : Device.isBusy d <;> rw [busy] at when <;> cases op <;> cases when <;> rfl
  | control found hook =>
      dsimp only
      rw [workDevice_found found]
      exact Exec.bind_ok (Exec.onDevice_ok hook)
  | input found range forward hook =>
      dsimp only
      rw [workDevice_found found]
      dsimp only
      rw [range, Exec.ofMemory_ok_bind, Exec.bind_ok (Exec.onDevice_ok hook)]
      exact Exec.bind_ok (Exec.changeMemory_ok
        (Memory.replace_eq _ forward (Memory.block_stop_le range) _))
  | output found range forward hook =>
      dsimp only
      rw [workDevice_found found]
      dsimp only
      rw [range, Exec.ofMemory_ok_bind, Exec.bind_ok (Exec.inspectMemory_ok
        (Memory.slice_eq _ forward (Memory.block_stop_le range)))]
      exact Exec.bind_ok (Exec.onDevice_ok hook)

/-- A rule of failure is followed. -/
theorem Fails.execute {i : Instruction} {e : Fault}
    (h : Fails m (m.effectiveAddress i) i.operation e m') :
    Machine.execute i m = .error e m' := by
  obtain ⟨address, index, op⟩ := i
  unfold Machine.execute
  rw [Exec.get_bind]
  dsimp only at h ⊢
  generalize m.effectiveAddress ⟨address, index, op⟩ = ea at h ⊢
  cases h with
  | cell hasField outside =>
      cases op <;> cases hasField
      all_goals first
        | exact Exec.bind_error (operand_error outside)
        | exact Exec.bind_error (store_error outside _ _)
  | shift negative =>
      dsimp only
      rw [if_pos negative]
      rfl
  | moveSource apart source => exact Exec.bind_error (moveBlock_source_error apart source)
  | moveTarget apart source target =>
      exact Exec.bind_error (moveBlock_target_error apart source target)
  | noDevice absent =>
      dsimp only
      unfold workDevice
      rw [Exec.get_bind, absent]
      rfl
  | @deviceJump op unit d e found when target =>
      dsimp only
      rw [workDevice_found found, ← jumpTo_error target]
      cases busy : Device.isBusy d <;> rw [busy] at when <;> cases op <;> cases when <;> rfl
  | control found hook =>
      dsimp only
      rw [workDevice_found found]
      exact Exec.bind_error (Exec.onDevice_error hook)
  | inputBlock found range =>
      dsimp only
      rw [workDevice_found found]
      dsimp only
      rw [range]
      rfl
  | input found range hook =>
      dsimp only
      rw [workDevice_found found]
      dsimp only
      rw [range, Exec.ofMemory_ok_bind]
      exact Exec.bind_error (Exec.onDevice_error hook)
  | inputReversed found range reversed hook =>
      dsimp only
      rw [workDevice_found found]
      dsimp only
      rw [range, Exec.ofMemory_ok_bind, Exec.bind_ok (Exec.onDevice_ok hook)]
      exact Exec.bind_error (Exec.changeMemory_error (Memory.replace_reversed _ reversed _))
  | outputBlock found range =>
      dsimp only
      rw [workDevice_found found]
      dsimp only
      rw [range]
      rfl
  | output found range forward hook =>
      dsimp only
      rw [workDevice_found found]
      dsimp only
      rw [range, Exec.ofMemory_ok_bind, Exec.bind_ok (Exec.inspectMemory_ok
        (Memory.slice_eq _ forward (Memory.block_stop_le range)))]
      exact Exec.bind_error (Exec.onDevice_error hook)
  | outputReversed found range reversed =>
      dsimp only
      rw [workDevice_found found]
      dsimp only
      rw [range, Exec.ofMemory_ok_bind]
      exact Exec.bind_error (Exec.inspectMemory_error (Memory.slice_reversed _ reversed))
  | jump holds target => exact jump_error holds target
  | registerJump holds target =>
      dsimp only
      rw [holds, if_pos rfl]
      exact jumpTo_error target

/-- **An instruction completes exactly by the rules of completion.** -/
theorem execute_eq_ok_iff {i : Instruction} {flow : Flow} :
    execute i m = .ok flow m' ↔ Completes m (m.effectiveAddress i) i.operation flow m' := by
  constructor
  · intro run
    rcases completes_or_fails m (m.effectiveAddress i) i.operation with
      ⟨flow', m'', completes⟩ | ⟨e, m'', fails⟩
    · cases run.symm.trans completes.execute
      exact completes
    · cases run.symm.trans fails.execute
  · exact Completes.execute

/-- **An instruction fails exactly by the rules of failure.** -/
theorem execute_eq_error_iff {i : Instruction} {e : Fault} :
    execute i m = .error e m' ↔ Fails m (m.effectiveAddress i) i.operation e m' := by
  constructor
  · intro run
    rcases completes_or_fails m (m.effectiveAddress i) i.operation with
      ⟨flow', m'', completes⟩ | ⟨e, m'', fails⟩
    · cases run.symm.trans completes.execute
    · cases run.symm.trans fails.execute
      exact fails
  · exact Fails.execute

/-! ## The execution of a word -/

/-- The machine `m` performs an instruction that stands at its program counter, and
becomes the last argument. -/
inductive Performs (m : Machine δ) (i : Instruction) : Machine δ → Prop
  | intro {flow : Flow} {m' : Machine δ} :
    m.registers.pc < memorySize →
    Completes m (m.effectiveAddress i) i.operation flow m' →
    Performs m i (retire i m.registers.pc flow m')

/-- The machine `m` does not execute a word: it fails with this fault and becomes
the last argument. -/
inductive Rejects (m : Machine δ) (w : Word) : Fault → Machine δ → Prop
  | notRunning :
    m.state ≠ .running →
    Rejects m w (.notRunning m.state) m
  | decode {e : DecodeError} :
    m.state = .running →
    Instruction.decode w = .error e →
    Rejects m w (.decode e) m
  | counter {i : Instruction} {e : MemoryError} :
    m.state = .running →
    Instruction.decode w = .ok i →
    Memory.index m.registers.pc = .error e →
    Rejects m w (.memory e) m
  | instruction {i : Instruction} {e : Fault} {m' : Machine δ} :
    m.state = .running →
    Instruction.decode w = .ok i →
    m.registers.pc < memorySize →
    Fails m (m.effectiveAddress i) i.operation e m' →
    Rejects m w e m'

theorem Performs.carryOut {i : Instruction} (h : Performs m i m') :
    Machine.carryOut i m = .ok m'.state m' := by
  obtain ⟨inside, completes⟩ := h
  unfold Machine.carryOut
  rw [Exec.get_bind, Memory.index_of_lt inside, Exec.ofMemory_ok_bind,
    Exec.bind_ok completes.execute]
  rfl

/-- A machine that executes a word performs the instruction that it holds. -/
theorem Performs.executeWord {w : Word} {i : Instruction} (running : m.state = .running)
    (holds : Instruction.decode w = .ok i) (h : Performs m i m') :
    Machine.executeWord w m = .ok m'.state m' := by
  unfold Machine.executeWord
  rw [Exec.bind_ok (checkRunning_ok running), holds, Exec.ofDecode_ok_bind]
  exact h.carryOut

theorem Rejects.executeWord {w : Word} {e : Fault} (h : Rejects m w e m') :
    Machine.executeWord w m = .error e m' := by
  unfold Machine.executeWord
  cases h with
  | notRunning stopped => exact Exec.bind_error (checkRunning_error stopped)
  | decode running undecoded =>
      rw [Exec.bind_ok (checkRunning_ok running), undecoded, Exec.ofDecode_error_bind]
  | counter running decoded outside =>
      rw [Exec.bind_ok (checkRunning_ok running), decoded, Exec.ofDecode_ok_bind]
      unfold Machine.carryOut
      rw [Exec.get_bind, outside, Exec.ofMemory_error_bind]
  | instruction running decoded inside fails =>
      rw [Exec.bind_ok (checkRunning_ok running), decoded, Exec.ofDecode_ok_bind]
      unfold Machine.carryOut
      rw [Exec.get_bind, Memory.index_of_lt inside, Exec.ofMemory_ok_bind]
      exact Exec.bind_error fails.execute

/-- Every word is executed or rejected. -/
theorem performs_or_rejects (m : Machine δ) (w : Word) :
    (m.state = .running ∧ ∃ i m', Instruction.decode w = .ok i ∧ Performs m i m') ∨
      ∃ e m', Rejects m w e m' := by
  by_cases running : m.state = .running
  · cases decoded : Instruction.decode w with
    | error e => exact Or.inr ⟨_, _, .decode running decoded⟩
    | ok i =>
        cases counter : Memory.index m.registers.pc with
        | error e => exact Or.inr ⟨_, _, .counter running decoded counter⟩
        | ok a =>
            obtain ⟨pc, inside⟩ := Memory.index_eq_ok_iff.1 counter
            have inside : m.registers.pc < memorySize := by omega
            rcases completes_or_fails m (m.effectiveAddress i) i.operation with
              ⟨flow, m', completes⟩ | ⟨e, m', fails⟩
            · exact Or.inl ⟨running, i, _, rfl, .intro inside completes⟩
            · exact Or.inr ⟨_, _, .instruction running decoded inside fails⟩
  · exact Or.inr ⟨_, _, .notRunning running⟩

/-- **A word is executed exactly by the rules of completion.** -/
theorem executeWord_eq_ok_iff {w : Word} {s : RunState} :
    executeWord w m = .ok s m' ↔
      m.state = .running ∧ s = m'.state ∧
        ∃ i, Instruction.decode w = .ok i ∧ Performs m i m' := by
  constructor
  · intro run
    rcases performs_or_rejects m w with ⟨running, i, m'', decoded, performs⟩ | ⟨e, m'', rejects⟩
    · cases run.symm.trans (performs.executeWord running decoded)
      exact ⟨running, rfl, i, decoded, performs⟩
    · cases run.symm.trans rejects.executeWord
  · rintro ⟨running, rfl, i, decoded, performs⟩
    exact performs.executeWord running decoded

/-- **A word is rejected exactly by the rules of failure.** -/
theorem executeWord_eq_error_iff {w : Word} {e : Fault} :
    executeWord w m = .error e m' ↔ Rejects m w e m' := by
  constructor
  · intro run
    rcases performs_or_rejects m w with ⟨running, i, m'', decoded, performs⟩ | ⟨e, m'', rejects⟩
    · cases run.symm.trans (performs.executeWord running decoded)
    · cases run.symm.trans rejects.executeWord
      exact rejects
  · exact Rejects.executeWord

/-! ## Steps -/

/-- **A step is the execution of the word at the program counter**, which has to be
an address of a cell. -/
theorem step_eq_executeWord (inside : m.registers.pc < memorySize) :
    step m = executeWord (m.memory.cell m.registers.pc) m := by
  unfold step executeWord
  by_cases running : m.state = .running
  · rw [Exec.bind_ok (checkRunning_ok running), Exec.bind_ok (checkRunning_ok running),
      Exec.get_bind]
    exact Exec.bind_ok (Exec.inspectMemory_ok (m.memory.read_eq inside))
  · rw [Exec.bind_error (checkRunning_error running),
      Exec.bind_error (checkRunning_error running)]

/-- A running machine steps by performing the instruction in the cell at its program
counter. -/
theorem Performs.step {i : Instruction} (h : Performs m i m') (running : m.state = .running)
    (holds : Instruction.decode (m.memory.cell m.registers.pc) = .ok i) :
    Machine.step m = .ok m'.state m' := by
  have inside : m.registers.pc < memorySize := by
    cases h
    assumption
  rw [step_eq_executeWord inside]
  exact h.executeWord running holds

/-- A running machine whose program counter is outside memory takes no step. -/
theorem step_outside (running : m.state = .running) (outside : memorySize ≤ m.registers.pc) :
    step m = .error (.memory (.addressOutOfRange (Memory.signed64 m.registers.pc))) m := by
  have fetch := (Memory.read_eq_error_iff m.memory).2 ⟨outside, rfl⟩
  unfold step
  rw [Exec.bind_ok (checkRunning_ok running), Exec.get_bind]
  exact Exec.bind_error (Exec.inspectMemory_error fetch)

/-- A machine that does not run takes no step. -/
theorem step_of_not_running (stopped : m.state ≠ .running) :
    step m = .error (.notRunning m.state) m := by
  unfold step
  exact Exec.bind_error (checkRunning_error stopped)

/-- A step that completes performs the instruction in the cell at the program
counter. -/
theorem performs_of_step {s : RunState} (run : step m = .ok s m') :
    m.state = .running ∧ s = m'.state ∧
      ∃ i, Instruction.decode (m.memory.cell m.registers.pc) = .ok i ∧ Performs m i m' := by
  by_cases running : m.state = .running
  · by_cases inside : m.registers.pc < memorySize
    · rw [step_eq_executeWord inside] at run
      exact executeWord_eq_ok_iff.1 run
    · cases run.symm.trans (step_outside running (Nat.not_lt.1 inside))
  · cases run.symm.trans (step_of_not_running running)

end Machine

end MixMachine
