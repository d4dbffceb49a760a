import MixMachine.Proofs.EffectiveAddress
import MixMachine.Proofs.Histories
import MixMachine.Proofs.Reachable

/-!
# When an instruction fails

On a machine whose devices are buffers, an instruction at the program counter fails
exactly when there is an obstacle to it, and `Obstacle m ea op fault` lists them: a
cell outside memory, a negative shift, a block that leaves memory, a unit without a
device, the target of a jump that is taken. Each has the one fault it shows. That an
effective address is exact lets the list speak of numbers.

* `Memory.block_eq_error_iff`: the address that the check of a block shows.
* `Machine.fails_iff_obstacle`: the rules of failure, for machines with buffers.
* `Machine.Attempt.completes_iff`: the attempts at one cell or none, on every machine.
* `Reached.executeWord_fails_iff`: a word fails to be executed exactly by an obstacle,
  and what does not address memory, test or work a device has none.
-/

namespace MixMachine

namespace Memory

/-- An address of no cell. -/
def Outside (a : Int) : Prop :=
  a < 0 ∨ 4000 ≤ a

instance (a : Int) : Decidable (Outside a) :=
  inferInstanceAs (Decidable (_ ∨ _))

/-- The address that shows why a block of `n` cells from `start` on is not in memory:
its start, or its last cell. -/
def outsideBlock? (start : Int) (n : Nat) : Option Int :=
  if start < 0 ∨ 4000 ≤ start then some start
  else if 4000 < start + n then some (start + n - 1)
  else none

theorem index_eq_error_outside_iff {v : Int} {e : MemoryError} :
    index v = .error e ↔ Outside v ∧ e = .addressOutOfRange v := by
  have size : memorySize = 4000 := rfl
  have outside : ¬ (0 ≤ v ∧ v < memorySize) ↔ Outside v := by
    unfold Outside
    omega
  rw [index_eq_error_iff, outside]

theorem outsideBlock?_eq_none_iff {start : Int} {n : Nat} :
    outsideBlock? start n = none ↔ 0 ≤ start ∧ start < 4000 ∧ start + n ≤ 4000 := by
  unfold outsideBlock?
  split
  · constructor
    · intro impossible
      cases impossible
    · intro inside
      omega
  · split
    · constructor
      · intro impossible
        cases impossible
      · intro inside
        omega
    · constructor
      · intro _
        omega
      · intro _
        rfl

/-- An address that shows why a block is outside is outside itself. -/
theorem outside_of_outsideBlock? {start a : Int} {n : Nat} (h : outsideBlock? start n = some a) :
    Outside a := by
  unfold outsideBlock? at h
  unfold Outside
  split at h
  · cases h
    assumption
  · split at h
    · cases h
      omega
    · cases h

/-- A block passes when no address shows that it is outside. -/
theorem block_eq_ok_of_none {start : Int} {n : Nat} (h : outsideBlock? start n = none) :
    ∃ first, block start n = .ok (first, first + n) ∧ first + n ≤ memorySize := by
  obtain ⟨nonneg, small, fits⟩ := outsideBlock?_eq_none_iff.1 h
  have size : memorySize = 4000 := rfl
  refine ⟨start.toNat, ?_, by omega⟩
  have same : start = (start.toNat : Int) := (Int.toNat_of_nonneg nonneg).symm
  rw [same]
  exact block_of_le (by omega) (by omega)

/-- A block whose length is read as itself fails with the address that shows why. -/
theorem block_eq_error_of_some {start : Int} {n : Nat} {a : Int}
    (short : n < 0x4000000000000000) (h : outsideBlock? start n = some a) :
    block start n = .error (.addressOutOfRange a) := by
  have size : memorySize = 4000 := rfl
  unfold outsideBlock? at h
  split at h
  · rename_i outside
    cases h
    unfold block
    rw [index_eq_error_outside_iff.2 ⟨outside, rfl⟩]
    rfl
  · rename_i inside
    split at h
    · rename_i long
      cases h
      have start_ok : index start = .ok start.toNat := index_eq_ok_iff.2 ⟨by omega, by omega⟩
      have last : index (lastAddress start n) = .error (.addressOutOfRange (start + n - 1)) := by
        rw [lastAddress, if_pos (by omega), wrap64_of_lt (by omega) (by omega)]
        refine index_eq_error_outside_iff.2 ⟨Or.inr ?_, rfl⟩
        omega
      have some_cells : n > 0 := by omega
      unfold block
      rw [start_ok]
      simp only [bind, Except.bind, some_cells, ↓reduceIte, last]
    · cases h

/-- A block whose length is read as itself does not wrap round. -/
theorem forward_of_short {start : Int} {n first stop : Nat} (short : n < 0x4000000000000000)
    (h : block start n = .ok (first, stop)) : first ≤ stop := by
  have size : memorySize = 4000 := rfl
  obtain ⟨-, -, -, rfl⟩ := block_of_short h (by omega)
  exact Nat.le_add_right first n

/-- **A block fails exactly with the address that shows why.** -/
theorem block_eq_error_iff {start : Int} {n : Nat} {e : MemoryError}
    (short : n < 0x4000000000000000) :
    block start n = .error e ↔ ∃ a, outsideBlock? start n = some a ∧ e = .addressOutOfRange a := by
  constructor
  · intro failed
    cases shown : outsideBlock? start n with
    | none =>
        obtain ⟨first, passed, -⟩ := block_eq_ok_of_none shown
        cases failed.symm.trans passed
    | some a =>
        cases failed.symm.trans (block_eq_error_of_some short shown)
        exact ⟨a, rfl, rfl⟩
  · rintro ⟨a, shown, rfl⟩
    exact block_eq_error_of_some short shown

end Memory

namespace Machine

/-! ## Jumps that are taken -/

/-- Whether an operation is a jump whose condition holds. A device jump needs its
device. -/
def takesJump {δ : Type} [Device δ] (m : Machine δ) : Operation → Prop
  | .jump condition => condition.holds m.registers.overflow m.registers.comparison = true
  | .jumpRegister r test => test.holds (m.registers.get r).value = true
  | .device op unit =>
    ∃ d, m.devices.get? unit = some d ∧ op.jumpsWhen = some (Device.isBusy d)
  | _ => False

/-! ## Obstacles -/

/-- What keeps the operation from being done at the effective address `ea` by a machine
with buffers, and the fault that shows it. -/
inductive Obstacle (m : Machine Buffer) (ea : Int) : Operation → Fault → Prop
  /-- The operation combines, loads, stores or compares a field of a cell, and `ea` is
  the address of none. -/
  | cell {op : Operation} {f : Field} :
    op.field? = some f →
    Memory.Outside ea →
    Obstacle m ea op (.memory (.addressOutOfRange ea))
  | shift {kind : Shift} :
    ea < 0 →
    Obstacle m ea (.shift kind) (.negativeShift ea)
  /-- The source of a move that is not already in place leaves memory. -/
  | source {count : Nat} {a : Int} :
    ea ≠ (m.registers.get .i1).value →
    Memory.outsideBlock? ea count = some a →
    Obstacle m ea (.move count) (.memory (.addressOutOfRange a))
  /-- The source of the move is in memory, and its target leaves memory. -/
  | target {count : Nat} {a : Int} :
    ea ≠ (m.registers.get .i1).value →
    Memory.outsideBlock? ea count = none →
    Memory.outsideBlock? (m.registers.get .i1).value count = some a →
    Obstacle m ea (.move count) (.memory (.addressOutOfRange a))
  | device {op : DeviceOp} {unit : Nat} :
    m.devices.get? unit = none →
    Obstacle m ea (.device op unit) (.device (.noSuchDevice unit))
  /-- The block that a device reads or writes leaves memory. -/
  | block {op : DeviceOp} {unit : Nat} {b : Buffer} {a : Int} :
    op = .input ∨ op = .output →
    m.devices.get? unit = some b →
    Memory.outsideBlock? ea b.block.length = some a →
    Obstacle m ea (.device op unit) (.memory (.addressOutOfRange a))
  | jump {op : Operation} :
    m.takesJump op →
    Memory.Outside ea →
    Obstacle m ea op (.memory (.addressOutOfRange ea))

variable {m m' : Machine Buffer} {ea : Word} {op : Operation} {fault : Fault}

/-- The lengths that the checks of blocks are given are read as themselves. -/
structure ShortBlocks (m : Machine Buffer) (op : Operation) : Prop where
  move {count : Nat} : op = .move count → count < 0x4000000000000000
  devices : m.devices.All fun b => b.block.length < 0x4000000000000000

/-- A rule of failure has met an obstacle: no hook of a buffer fails by itself. -/
theorem Fails.obstacle (short : m.ShortBlocks op) (h : Fails m ea op fault m') :
    Obstacle m ea.value op fault := by
  cases h with
  | cell hasField failed =>
      obtain ⟨outside, rfl⟩ := Memory.index_eq_error_outside_iff.1 failed
      exact .cell hasField outside
  | shift negative => exact .shift negative
  | moveSource apart source =>
      obtain ⟨a, shown, rfl⟩ := (Memory.block_eq_error_iff (short.move rfl)).1 source
      exact .source apart shown
  | @moveTarget count first stop e apart source target =>
      obtain ⟨a, shown, rfl⟩ := (Memory.block_eq_error_iff (short.move rfl)).1 target
      obtain ⟨start, small, fits, -⟩ :=
        Memory.block_forward source (Memory.forward_of_short (short.move rfl) source)
      have size : memorySize = 4000 := rfl
      have inside : Memory.outsideBlock? ea.value count = none :=
        Memory.outsideBlock?_eq_none_iff.2 ⟨by omega, by omega, by omega⟩
      exact .target apart inside shown
  | noDevice failed =>
      obtain ⟨absent, rfl⟩ := Devices.find_eq_error_iff.1 failed
      exact .device absent
  | deviceJump found when failed =>
      obtain ⟨outside, rfl⟩ := Memory.index_eq_error_outside_iff.1 failed
      exact .jump ⟨_, Devices.find_eq_ok_iff.1 found, when⟩ outside
  | control _ hook => cases hook
  | inputBlock found range =>
      have attached := Devices.find_eq_ok_iff.1 found
      obtain ⟨a, shown, rfl⟩ := (Memory.block_eq_error_iff (short.devices _ _ attached)).1 range
      exact .block (Or.inl rfl) attached shown
  | input found range hook =>
      have attached := Devices.find_eq_ok_iff.1 found
      have forward := Memory.forward_of_short (short.devices _ _ attached) range
      exact absurd hook (Buffer.input_ne_error range forward)
  | inputReversed found range reversed hook =>
      have attached := Devices.find_eq_ok_iff.1 found
      have forward := Memory.forward_of_short (short.devices _ _ attached) range
      exact absurd reversed (Nat.not_lt.2 forward)
  | outputBlock found range =>
      have attached := Devices.find_eq_ok_iff.1 found
      obtain ⟨a, shown, rfl⟩ := (Memory.block_eq_error_iff (short.devices _ _ attached)).1 range
      exact .block (Or.inr rfl) attached shown
  | output _ range forward hook => exact absurd hook (Buffer.output_ne_error range forward)
  | outputReversed found range reversed =>
      have attached := Devices.find_eq_ok_iff.1 found
      have forward := Memory.forward_of_short (short.devices _ _ attached) range
      exact absurd reversed (Nat.not_lt.2 forward)
  | jump holds failed =>
      obtain ⟨outside, rfl⟩ := Memory.index_eq_error_outside_iff.1 failed
      exact .jump holds outside
  | registerJump holds failed =>
      obtain ⟨outside, rfl⟩ := Memory.index_eq_error_outside_iff.1 failed
      exact .jump holds outside

/-- An obstacle is met by a rule of failure. -/
theorem Obstacle.fails (short : m.ShortBlocks op) (h : Obstacle m ea.value op fault) :
    Fails m ea op fault m := by
  cases h with
  | cell hasField outside =>
      exact .cell hasField (Memory.index_eq_error_outside_iff.2 ⟨outside, rfl⟩)
  | shift negative => exact .shift negative
  | source apart shown =>
      exact .moveSource apart (Memory.block_eq_error_of_some (short.move rfl) shown)
  | target apart inside shown =>
      obtain ⟨first, source, -⟩ := Memory.block_eq_ok_of_none inside
      exact .moveTarget apart source (Memory.block_eq_error_of_some (short.move rfl) shown)
  | device absent => exact .noDevice (Devices.find_eq_error_iff.2 ⟨absent, rfl⟩)
  | block moves attached shown =>
      have range := Memory.block_eq_error_of_some (short.devices _ _ attached) shown
      have found := Devices.find_eq_ok_iff.2 attached
      rcases moves with rfl | rfl
      · exact .inputBlock found range
      · exact .outputBlock found range
  | jump taken outside =>
      have target := Memory.index_eq_error_outside_iff.2 ⟨outside, rfl⟩
      cases op with
      | jump condition => exact .jump taken target
      | jumpRegister r test => exact .registerJump taken target
      | device op unit =>
          obtain ⟨d, attached, when⟩ := taken
          exact .deviceJump (Devices.find_eq_ok_iff.2 attached) when target
      | _ => cases taken

/-- **The rules of failure on a machine with buffers.** -/
theorem fails_iff_obstacle (short : m.ShortBlocks op) :
    Fails m ea op fault m' ↔ m' = m ∧ Obstacle m ea.value op fault := by
  constructor
  · intro fails
    exact ⟨fails.eq_self m.devicesKeep_of_buffers m.inputsSafe_of_buffers, fails.obstacle short⟩
  · rintro ⟨rfl, obstacle⟩
    exact obstacle.fails short

/-- The faults that obstacles show are three of all that the machine has. -/
theorem Obstacle.fault_eq {address : Int} (h : Obstacle m address op fault) :
    (∃ a, fault = .memory (.addressOutOfRange a) ∧ Memory.Outside a) ∨
    (∃ count, fault = .negativeShift count ∧ count < 0) ∨
    ∃ unit, fault = .device (.noSuchDevice unit) := by
  cases h with
  | cell _ outside => exact Or.inl ⟨_, rfl, outside⟩
  | shift negative => exact Or.inr (Or.inl ⟨_, rfl, negative⟩)
  | source _ shown => exact Or.inl ⟨_, rfl, Memory.outside_of_outsideBlock? shown⟩
  | target _ _ shown => exact Or.inl ⟨_, rfl, Memory.outside_of_outsideBlock? shown⟩
  | device _ => exact Or.inr (Or.inr ⟨_, rfl⟩)
  | block _ _ shown => exact Or.inl ⟨_, rfl, Memory.outside_of_outsideBlock? shown⟩
  | jump _ outside => exact Or.inl ⟨_, rfl, outside⟩

/-- What neither addresses memory nor works a device nor jumps has no obstacle. -/
theorem not_obstacle {address : Int} (plain : op = .nop ∨ op = .halt ∨ ∃ r kind,
    op = .transfer r kind) : ¬ Obstacle m address op fault := by
  intro obstacle
  rcases plain with rfl | rfl | ⟨r, kind, rfl⟩ <;> cases obstacle with
  | cell hasField _ => cases hasField
  | jump taken _ => cases taken

/-- The count of a decoded move is a byte. -/
theorem shortBlocks_of_decode {w : Word} {i : Instruction}
    (decoded : Instruction.decode w = .ok i)
    (sizes : m.devices.All fun b => b.block.length < 0x4000000000000000) :
    m.ShortBlocks i.operation where
  move {count} isMove := by
    have byte := Instruction.count_lt_of_decode decoded isMove
    omega
  devices := sizes

/-! ## Attempts at one cell -/

/-- **An operation on a field of a cell, or on an address as a number,** is completed exactly by
a machine that runs at a cell, and the cell of the field has to be in memory. -/
theorem Attempt.completes_iff {δ : Type} [Device δ] {m : Machine δ} {a : Attempt}
    {i : Instruction} (decoded : Instruction.decode (a.fetch m) = .ok i)
    (plain : i.operation.field? ≠ none ∨ ∃ r kind, i.operation = .transfer r kind) :
    (∃ s m', a.exec m = .ok s m') ↔
      m.state = .running ∧ m.registers.pc ≤ 3999 ∧
        ∀ f, i.operation.field? = some f → ¬ Memory.Outside (m.effectiveAddress i).value := by
  rw [exists_ok_iff decoded]
  refine and_congr_right fun _ => and_congr_right fun _ => ?_
  constructor
  · rintro ⟨flow, m', completes⟩ f hasField outside
    have fails : Fails m (m.effectiveAddress i) i.operation _ m :=
      .cell hasField (Memory.index_eq_error_outside_iff.2 ⟨outside, rfl⟩)
    cases completes.execute.symm.trans fails.execute
  · intro cell
    rcases Machine.completes_or_fails m (m.effectiveAddress i) i.operation with
      completes | ⟨e, m', fails⟩
    · exact completes
    · exfalso
      generalize m.effectiveAddress i = ea at cell fails
      generalize i.operation = op at plain cell fails
      cases fails with
      | cell hasField failed =>
          exact cell _ hasField (Memory.index_eq_error_outside_iff.1 failed).1
      | _ =>
          -- the other rules of failure are those of operations that have no field
          rcases plain with hasField | ⟨r, kind, transfer⟩
          · exact hasField rfl
          · cases transfer

/-- An operation on a field is completed exactly by a machine that runs at a cell, with the cell
of the field in memory. -/
theorem Attempt.completes_iff_of_field {δ : Type} [Device δ] {m : Machine δ} {a : Attempt}
    {i : Instruction} {f : Field} (decoded : Instruction.decode (a.fetch m) = .ok i)
    (hasField : i.operation.field? = some f) :
    (∃ s m', a.exec m = .ok s m') ↔
      m.state = .running ∧ m.registers.pc ≤ 3999 ∧
        ¬ Memory.Outside (m.effectiveAddress i).value := by
  rw [completes_iff decoded (Or.inl (hasField ▸ Option.some_ne_none f)), hasField]
  simp only [Option.some.injEq, forall_eq']

end Machine

namespace Reached

open Machine

/-- **The exact failure condition of an instruction.** A word that holds an instruction
fails to be executed by a reached machine, which runs at a cell, exactly when there is
an obstacle; it then shows the fault of the obstacle and changes nothing. No other
faults occur, and what only works on registers or halts never fails. -/
theorem executeWord_fails_iff {calls : List Call} {m : Machine Buffer} {w : Word}
    {i : Instruction} (reached : Reached calls m) (running : m.state = .running)
    (inside : m.registers.pc ≤ 3999)
    (sizes : m.devices.All fun b => b.block.length < 0x4000000000000000)
    (decoded : Instruction.decode w = .ok i) :
    (∀ fault m', executeWord w m = .error fault m' ↔
      m' = m ∧ Obstacle m (m.exactAddress i) i.operation fault) ∧
    ((∃ s m', executeWord w m = .ok s m') ↔
      ¬ ∃ fault, Obstacle m (m.exactAddress i) i.operation fault) ∧
    (∀ fault, Obstacle m (m.exactAddress i) i.operation fault →
      (∃ a, fault = .memory (.addressOutOfRange a) ∧ Memory.Outside a) ∨
      (∃ count, fault = .negativeShift count ∧ count < 0) ∨
      ∃ unit, fault = .device (.noSuchDevice unit)) ∧
    (i.operation = .nop ∨ i.operation = .halt ∨ (∃ r kind, i.operation = .transfer r kind) →
      ∃ s m', executeWord w m = .ok s m') := by
  have short := shortBlocks_of_decode decoded sizes
  have exact_address := value_effectiveAddress reached.fit decoded
  have fails_iff : ∀ fault m', executeWord w m = .error fault m' ↔
      m' = m ∧ Obstacle m (m.exactAddress i) i.operation fault := by
    intro fault m'
    rw [← exact_address, ← fails_iff_obstacle short, executeWord_eq_error_iff]
    -- the machine runs at a cell and the word is decoded: only the instruction can fail
    constructor
    · intro rejects
      cases rejects with
      | notRunning stopped => exact absurd running stopped
      | decode _ undecoded => cases undecoded.symm.trans decoded
      | counter _ _ outside =>
          cases outside.symm.trans (Memory.index_of_lt (Nat.lt_succ_of_le inside))
      | instruction _ decoded' _ fails =>
          cases decoded'.symm.trans decoded
          exact fails
    · exact .instruction running decoded (Nat.lt_succ_of_le inside)
  have completes_iff : (∃ s m', executeWord w m = .ok s m') ↔
      ¬ ∃ fault, Obstacle m (m.exactAddress i) i.operation fault := by
    constructor
    · rintro ⟨s, m', completed⟩ ⟨fault, obstacle⟩
      cases completed.symm.trans ((fails_iff fault m).2 ⟨rfl, obstacle⟩)
    · intro free
      cases run : executeWord w m with
      | ok s m' => exact ⟨s, m', rfl⟩
      | error fault m' => exact absurd ⟨fault, ((fails_iff fault m').1 run).2⟩ free
  refine ⟨fails_iff, completes_iff, ?_, ?_⟩
  · intro fault obstacle
    exact obstacle.fault_eq
  · intro plain
    refine completes_iff.2 ?_
    rintro ⟨fault, obstacle⟩
    exact not_obstacle plain obstacle

/-- On the standard machine a shift by -1 fails, and a halt does not. -/
theorem executeWord_fails_iff_standard :
    executeWord (Instruction.assemble (-1) 0 0 Opcode.shift) .standard =
      .error (.negativeShift (-1)) .standard ∧
    ∃ s m', executeWord (Instruction.assemble 0 0 haltModifier Opcode.special) .standard =
      .ok s m' := by
  have sizes : Machine.standard.devices.All fun b => b.block.length < 0x4000000000000000 :=
    Devices.all_ofList (by decide)
  have shift : Instruction.decode (Instruction.assemble (-1) 0 0 Opcode.shift) =
      .ok ⟨Instruction.addressOf (-1), 0, .shift .sla⟩ := rfl
  have halt : Instruction.decode (Instruction.assemble 0 0 haltModifier Opcode.special) =
      .ok ⟨Instruction.addressOf 0, 0, .halt⟩ := rfl
  have pc : Machine.standard.registers.pc ≤ 3999 := by decide
  constructor
  · obtain ⟨fails_iff, -⟩ := executeWord_fails_iff .standard rfl pc sizes shift
    exact (fails_iff _ _).2 ⟨rfl, .shift (by decide)⟩
  · obtain ⟨-, -, -, plain⟩ := executeWord_fails_iff .standard rfl pc sizes halt
    exact plain (Or.inr (Or.inl rfl))

end Reached

end MixMachine
