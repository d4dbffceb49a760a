import MixMachine.Proofs.Budgets
import MixMachine.Proofs.CheckedState

/-!
# The machine in integers of fixed width

The instructions, a step and the execution of a word, put together once more from the functions
of `MixMachine.Proofs.CheckedWords` and `MixMachine.Proofs.CheckedState`. Every number that an
instruction computes goes through one of their checks: the program counter has sixteen bits, the
counts have sixty-four, and whatever is copied has the length of where it goes. What computes
nothing is taken over from the machine, and so are constants.

`Agrees g x m` says that the action `g` does on `m` what `x` does there, and so does not panic.
It passes through actions in a row, so each instruction is taken part by part, with what one
part has checked at hand for the next.

* `Agrees.execute`: no instruction that was decoded panics.
* `Reached.never_panics`: no step of a machine that was reached panics, and no word does.
-/

namespace MixMachine

namespace Checked

variable {α β : Type}

/-! ## Actions -/

/-- An action of the machine in integers of fixed width: it panics, or it answers and leaves a
machine. -/
def Guarded (α : Type) : Type :=
  Machine Buffer → Checked (EStateM.Result Fault (Machine Buffer) α)

namespace Guarded

instance : Monad Guarded where
  pure a := fun m => .ok (.ok a m)
  bind x f := fun m => do
    match ← x m with
    | .ok a m' => f a m'
    | .error e m' => return .error e m'

/-- The result of a computation, which leaves the machine as it is. -/
def check (x : Checked α) : Guarded α := fun m => do
  return .ok (← x) m

/-- An action that computes nothing. -/
def reuse (x : Exec Buffer α) : Guarded α := fun m =>
  return x m

/-- The answer of a check of memory. -/
def ofMemory (x : Checked (Except MemoryError α)) : Guarded α := fun m => do
  return Exec.ofMemory (← x) m

/-- The answer of the decoder. -/
def ofDecode (x : Checked (Except DecodeError α)) : Guarded α := fun m => do
  return Exec.ofDecode (← x) m

/-- The answer of an access that reads memory. -/
def inspectMemory (f : Memory → Checked (Except MemoryError α)) : Guarded α := fun m => do
  return Exec.ofMemory (← f m.memory) m

/-- Changes memory by an access that writes it. -/
def changeMemory (f : Memory → Checked (Except MemoryError Memory)) : Guarded Unit := fun m => do
  let memory ← f m.memory
  return Exec.changeMemory (fun _ => memory) m

/-- Changes the machine. -/
def change (f : Machine Buffer → Checked (Machine Buffer)) : Guarded Unit := fun m => do
  return .ok () (← f m)

/-- Changes the register file. -/
def changeRegisters (f : Registers → Checked Registers) : Guarded Unit :=
  change fun m => do return { m with registers := ← f m.registers }

/-- Runs a hook of the device on a unit. -/
def onDevice (unit : Nat) (d : Buffer)
    (hook : Buffer → Checked (EStateM.Result DeviceError Buffer α)) : Guarded α := fun m => do
  let answer ← hook d
  return Exec.onDevice unit d (fun _ => answer) m

end Guarded

/-- An action does not panic on a machine, and it answers and leaves what the action of any
width does. -/
def Agrees (g : Guarded α) (x : Exec Buffer α) (m : Machine Buffer) : Prop :=
  g m = .ok (x m)

namespace Agrees

open Guarded

variable {m : Machine Buffer} {g : Guarded α} {x : Exec Buffer α} {f : α → Guarded β}
  {k : α → Exec Buffer β} {y : Exec Buffer β}

theorem reuse (x : Exec Buffer α) : Agrees (reuse x) x m := rfl

theorem pure (a : α) : Agrees (pure a) (pure a) m := rfl

/-- Actions in a row agree when each does on the machine that it starts from. -/
theorem bind (first : Agrees g x m)
    (rest : ∀ a m', x m = .ok a m' → Agrees (f a) (k a) m') : Agrees (g >>= f) (x >>= k) m := by
  show (g m >>= _) = Except.ok (EStateM.bind x k m)
  rw [first, ok_bind]
  unfold EStateM.bind
  cases answer : x m with
  | ok a m' => exact rest a m' answer
  | error e m' => rfl

theorem get_bind {f : Machine Buffer → Guarded β} {k : Machine Buffer → Exec Buffer β}
    (rest : Agrees (f m) (k m) m) : Agrees (Guarded.reuse get >>= f) (get >>= k) m := rest

/-- A computation that does not panic is only its result. -/
theorem check_bind {c : Checked α} {a : α} (computed : c = .ok a) (rest : Agrees (f a) y m) :
    Agrees (check c >>= f) y m := by
  rw [computed]
  exact rest

theorem ofMemory {c : Checked (Except MemoryError α)} {a : Except MemoryError α}
    (computed : c = .ok a) : Agrees (ofMemory c) (Exec.ofMemory a) m := by
  rw [computed]
  rfl

theorem ofDecode {c : Checked (Except DecodeError α)} {a : Except DecodeError α}
    (computed : c = .ok a) : Agrees (ofDecode c) (Exec.ofDecode a) m := by
  rw [computed]
  rfl

theorem inspectMemory {f : Memory → Checked (Except MemoryError α)}
    {a : Memory → Except MemoryError α} (computed : f m.memory = .ok (a m.memory)) :
    Agrees (inspectMemory f) (Exec.inspectMemory a) m := by
  unfold Agrees Guarded.inspectMemory
  rw [computed]
  rfl

theorem changeMemory {f : Memory → Checked (Except MemoryError Memory)}
    {a : Memory → Except MemoryError Memory} (computed : f m.memory = .ok (a m.memory)) :
    Agrees (changeMemory f) (Exec.changeMemory a) m := by
  unfold Agrees Guarded.changeMemory
  rw [computed]
  rfl

theorem change {f : Machine Buffer → Checked (Machine Buffer)}
    {a : Machine Buffer → Machine Buffer} (computed : f m = .ok (a m)) :
    Agrees (change f) (modify a) m := by
  unfold Agrees Guarded.change
  rw [computed]
  rfl

theorem changeRegisters {f : Registers → Checked Registers} {a : Registers → Registers}
    (computed : f m.registers = .ok (a m.registers)) :
    Agrees (changeRegisters f) (Exec.modifyRegisters a) m := by
  apply change
  rw [computed]
  rfl

theorem onDevice {unit : Nat} {d : Buffer}
    {f : Buffer → Checked (EStateM.Result DeviceError Buffer α)}
    {hook : EStateM DeviceError Buffer α} (computed : f d = .ok (hook d)) :
    Agrees (onDevice unit d f) (Exec.onDevice unit d hook) m := by
  unfold Agrees Guarded.onDevice
  rw [computed]
  rfl

end Agrees

/-! ## Instructions -/

open Guarded

/-- The address of a cell that a word stands for. -/
def address (ea : Word) : Guarded Nat := do
  let v ← check (value ea)
  ofMemory (index v)

/-- The word in the cell at an effective address. -/
def operand (ea : Word) : Guarded Word := do
  let a ← address ea
  inspectMemory fun mem => read mem a

/-- Puts a value into a field of the cell at an effective address. -/
def store (ea : Word) (f : Field) (v : Word) : Guarded Unit := do
  let a ← address ea
  let cell ← inspectMemory fun mem => read mem a
  let written ← check (insert f cell v)
  changeMemory fun mem => write mem a written

/-- Goes to an effective address, as a program counter of sixteen bits, and links back
through J. -/
def jumpTo (ea : Word) : Guarded Flow := do
  let a ← address ea
  let target ← check (narrow u16 a)
  changeRegisters link
  return .jump target

/-- Copies words one after the other. -/
def copyCells (source target : Nat) : Nat → Guarded Unit
  | 0 => return ()
  | count + 1 => do
    let w ← inspectMemory fun mem => read mem source
    changeMemory fun mem => write mem target w
    copyCells (source + 1) (target + 1) count

/-- Copies a block to the address in I1 and moves I1 behind it. -/
def moveBlock (ea : Word) (count : Nat) : Guarded Unit := do
  let m ← reuse get
  let source ← check (value ea)
  let target ← check (value (m.registers.get .i1))
  if source = target then
    return ()
  let (first, stop) ← ofMemory (block source count)
  let (first', stop') ← ofMemory (block target count)
  copyCells first first' (min (stop - first) (stop' - first'))
  let sum ← check (do addI target (← toSigned count))
  let behind ← check (ofInt sum)
  let w ← reuse (Exec.ofWord behind)
  reuse (Exec.modifyRegisters fun rs => rs.set .i1 w)

/-- Jumps when the condition holds. -/
def jump (condition : Condition) (ea : Word) : Guarded Flow := do
  let m ← reuse get
  let rs := m.registers
  let clearToggle : Guarded Unit :=
    match condition with
    | .jov | .jnov => reuse (Exec.modifyRegisters fun rs => { rs with overflow := false })
    | _ => pure ()
  if condition.holds rs.overflow rs.comparison then
    let a ← address ea
    let target ← check (narrow u16 a)
    clearToggle
    if condition ≠ .jsj then
      changeRegisters link
    return .jump target
  else
    clearToggle
    return .next

/-- Works the device on a unit. A block that comes in is kept in a run of its own before it is
copied into memory; the bytes of that run are counted, four for each word. -/
def workDevice (op : DeviceOp) (unit : Nat) (ea : Word) : Guarded Flow := do
  let m ← reuse get
  let d ← reuse (Exec.ofDevice (m.devices.find unit))
  match op with
  | .jbus => if Device.isBusy d then jumpTo ea else return .next
  | .jred => if Device.isBusy d then return .next else jumpTo ea
  | .ioc => do
    let v ← check (value ea)
    reuse (Exec.onDevice unit d (Device.control v))
    return .next
  | .input => do
    let v ← check (value ea)
    let (first, stop) ← ofMemory (block v (Device.blockSize d))
    let length ← check (sub stop first)
    let _ ← check (mul 0x8000000000000000 length 4)
    let words ← onDevice unit d (input length)
    changeMemory fun mem => replace mem first stop words.toList
    return .next
  | .output => do
    let v ← check (value ea)
    let (first, stop) ← ofMemory (block v (Device.blockSize d))
    let words ← inspectMemory fun mem => slice mem first stop
    onDevice unit d (output words)
    return .next

/-- Does what an instruction says, the program counter and the counts apart. A halt tells the
count of steps with its own among them. -/
def execute (i : Instruction) : Guarded Flow := do
  let m ← reuse get
  let ea ← check (effectiveAddress m.registers i.address i.indexRegister?)
  match i.operation with
  | .nop => return .next
  | .arithmetic kind f => do
    let cell ← operand ea
    let v ← check (extract f cell)
    changeRegisters fun rs => arithmetic rs kind v
    return .next
  | .halt => do
    let _ ← check (add u64 m.steps 1)
    reuse (modify fun m => { m with state := .halted })
    return .next
  | .shift kind => do
    let v ← check (value ea)
    if v < 0 then
      reuse (throw (.negativeShift v))
    let count ← check (toUnsigned u64 v)
    changeRegisters fun rs => shift rs kind count
    return .next
  | .move count => do
    moveBlock ea count
    return .next
  | .load r f => do
    let cell ← operand ea
    let v ← check (extract f cell)
    reuse (Exec.modifyRegisters fun rs => rs.set r v)
    return .next
  | .loadNegative r f => do
    let cell ← operand ea
    let v ← check (extract f cell.negate)
    reuse (Exec.modifyRegisters fun rs => rs.set r v)
    return .next
  | .store r f => do
    store ea f (m.registers.get r)
    return .next
  | .storeZero f => do
    store ea f .zero
    return .next
  | .device op unit => workDevice op unit ea
  | .jump condition => jump condition ea
  | .jumpRegister r test => do
    let v ← check (value (m.registers.get r))
    if test.holds v then jumpTo ea else return .next
  | .transfer r kind => do
    changeRegisters fun rs => transfer rs r kind ea
    return .next
  | .compare r f => do
    let cell ← operand ea
    changeRegisters fun rs => compare rs r f cell
    return .next

/-- How long an operation takes. -/
def duration : Operation → Checked Nat
  | .move count => do add u64 1 (← mul u64 2 count)
  | op => return op.duration

/-- The machine that has completed an instruction which stood at `pc`. -/
def retire (i : Instruction) (pc : Nat) (flow : Flow) (m : Machine Buffer) :
    Checked (Machine Buffer) := do
  let next ← match flow with
    | .next => add u16 pc 1
    | .jump target => pure target
  let steps ← add u64 m.steps 1
  let clock ← add u64 m.clock (← duration i.operation)
  return { m with
    registers := { m.registers with pc := next }
    steps
    clock
    last := some i }

/-- What a log line of an instruction tells: the number of its address, and its code. -/
def logged (i : Instruction) : Checked (Int × Option (Nat × Nat)) := do
  return (← value i.address, ← code? i.operation)

/-- Executes an instruction as the one at the program counter. -/
def carryOut (i : Instruction) : Guarded RunState := do
  let m ← reuse get
  let pc ← ofMemory (index m.registers.pc)
  let _ ← check (logged i)
  let flow ← execute i
  change (retire i pc flow)
  reuse (do return (← get).state)

/-- Executes the instruction at the program counter. -/
def step : Guarded RunState := do
  reuse Machine.checkRunning
  let m ← reuse get
  let w ← inspectMemory fun mem => read mem m.registers.pc
  let i ← ofDecode (decode w)
  carryOut i

/-- Executes a word as if it stood at the program counter. -/
def executeWord (w : Word) : Guarded RunState := do
  reuse Machine.checkRunning
  let i ← ofDecode (decode w)
  carryOut i

/-! ## No instruction panics -/

/-- Counts of sixty-three bits, and devices whose blocks are runs of words that a process has
room for: its addresses have sixty-three bits, and a word takes four of them. -/
structure Bounded (m : Machine Buffer) : Prop where
  steps : m.steps < 0x8000000000000000
  clock : m.clock < 0x8000000000000000
  sizes : m.devices.All fun b => b.block.length < 0x2000000000000000

namespace Agrees

variable {m m' : Machine Buffer} {ea : Word}

theorem ite {p : Prop} [Decidable p] {g g' : Guarded α} {x x' : Exec Buffer α}
    (yes : p → Agrees g x m) (no : ¬ p → Agrees g' x' m) :
    Agrees (if p then g else g') (if p then x else x') m := by
  split
  · exact yes ‹p›
  · exact no ‹¬ p›

/-- A check of memory that passes leaves the machine as it is. -/
theorem ofMemory_eq_ok {x : Except MemoryError α} {a : α} (h : Exec.ofMemory x m = .ok a m') :
    x = .ok a ∧ m' = m := by
  cases x with
  | error e => cases h
  | ok b =>
      cases h
      exact ⟨rfl, rfl⟩

theorem ofDevice_eq_ok {x : Except DeviceError α} {a : α} (h : Exec.ofDevice x m = .ok a m') :
    x = .ok a ∧ m' = m := by
  cases x with
  | error e => cases h
  | ok b =>
      cases h
      exact ⟨rfl, rfl⟩

theorem address_lt {a : Nat} (found : Machine.address ea m = .ok a m') : a < memorySize :=
  (Memory.index_eq_ok_iff.1 (ofMemory_eq_ok found).1).2

theorem address (ea : Word) : Agrees (address ea) (Machine.address ea) m :=
  check_bind (value_eq ea) (ofMemory (index_eq _))

theorem read {a : Nat} (small : a < 0x8000000000000000) :
    Agrees (Guarded.inspectMemory fun mem => read mem a)
      (Exec.inspectMemory fun mem => mem.read a) m :=
  inspectMemory (read_eq small)

theorem write {a : Nat} (small : a < 0x8000000000000000) (w : Word) :
    Agrees (Guarded.changeMemory fun mem => write mem a w)
      (Exec.changeMemory fun mem => mem.write a w) m :=
  changeMemory (write_eq small w)

theorem operand (ea : Word) : Agrees (operand ea) (Machine.operand ea) m :=
  (address ea).bind fun _ _ found => read (small_of_lt (address_lt found))

theorem store (ea : Word) {f : Field} (valid : f.Valid) (v : Word) :
    Agrees (store ea f v) (Machine.store ea f v) m := by
  apply (address ea).bind
  intro a m₁ found
  have small := small_of_lt (address_lt found)
  apply (read small).bind
  intro cell m₂ _
  apply check_bind (insert_eq valid cell v)
  exact write small _

theorem link (inside : m.registers.pc < memorySize) :
    Agrees (Guarded.changeRegisters link) (Exec.modifyRegisters Registers.link) m :=
  changeRegisters (link_eq inside)

theorem jumpTo (inside : m.registers.pc < memorySize) (ea : Word) :
    Agrees (jumpTo ea) (Machine.jumpTo ea) m := by
  apply (address ea).bind
  intro a m' found
  obtain ⟨-, rfl⟩ := ofMemory_eq_ok found
  apply check_bind (narrow_address (address_lt found))
  exact (link inside).bind fun _ _ _ => pure _

theorem copyCells {source target count : Nat} (hs : source + count ≤ memorySize)
    (ht : target + count ≤ memorySize) :
    Agrees (copyCells source target count) (Machine.copyCells source target count) m := by
  induction count generalizing source target m with
  | zero => exact pure ()
  | succ count ih =>
      have readable := small_of_lt (show source < memorySize by omega)
      have writable := small_of_lt (show target < memorySize by omega)
      apply (read readable).bind
      intro w m₁ _
      apply (write writable w).bind
      intro _ m₂ _
      exact ih (by omega) (by omega)

theorem moveBlock (ea : Word) {count : Nat} (short : count < 64) :
    Agrees (moveBlock ea count) (Machine.moveBlock ea count) m := by
  apply get_bind
  apply check_bind (value_eq ea)
  apply check_bind (value_eq _)
  apply ite
  · intro _
    exact pure ()
  · intro _
    apply (ofMemory (block_eq _ (by omega))).bind
    intro (source, s) m₁ found
    obtain ⟨range, rfl⟩ := ofMemory_eq_ok found
    apply (ofMemory (block_eq _ (by omega))).bind
    intro (target, t) m₂ found
    obtain ⟨range', rfl⟩ := ofMemory_eq_ok found
    have lengths := Memory.block_lengths_eq range range'
    have sourceInside := Memory.block_inside range
    have targetInside := Memory.block_inside range'
    apply (copyCells (by omega) (by omega)).bind
    intro _ m₃ _
    have size : memorySize = 4000 := rfl
    have sum : (do addI (m₂.registers.get .i1).value (← toSigned count)) =
        .ok ((m₂.registers.get .i1).value + Memory.signed64 count) := by
      obtain ⟨number, inside, -⟩ := Memory.block_eq_ok_iff.1 range'
      rw [toSigned_ok (by unfold InI64; omega), ok_bind, addI_ok (by unfold InI64; omega),
        Memory.signed64_of_lt (by omega)]
    apply check_bind sum
    apply check_bind (ofInt_eq _)
    exact (reuse _).bind fun _ _ _ => reuse _

theorem jump (inside : m.registers.pc < memorySize) (condition : Condition) (ea : Word) :
    Agrees (jump condition ea) (Machine.jump condition ea) m := by
  apply get_bind
  apply ite
  · intro _
    apply (address ea).bind
    intro a m₁ found
    obtain ⟨-, rfl⟩ := ofMemory_eq_ok found
    apply check_bind (narrow_address (address_lt found))
    refine bind (by cases condition <;> rfl) ?_
    intro u m₂ cleared
    have same : m₂.registers.pc = m₁.registers.pc := by
      cases condition <;> cases cleared <;> rfl
    apply ite
    · intro _
      exact (link (same ▸ inside)).bind fun _ _ _ => pure _
    · intro _
      exact pure _
  · intro _
    refine bind (by cases condition <;> rfl) ?_
    intro _ _ _
    exact pure _

theorem workDevice (bounded : Bounded m) (inside : m.registers.pc < memorySize) (op : DeviceOp)
    (unit : Nat) (ea : Word) :
    Agrees (workDevice op unit ea) (Machine.workDevice op unit ea) m := by
  apply get_bind
  apply (reuse _).bind
  intro d m₁ found
  obtain ⟨attached, rfl⟩ := ofDevice_eq_ok found
  have short : d.block.length < 0x2000000000000000 :=
    bounded.sizes unit d (Devices.find_eq_ok_iff.1 attached)
  have size : memorySize = 4000 := rfl
  cases op with
  | jbus => exact ite (fun _ => jumpTo inside ea) (fun _ => pure _)
  | jred => exact ite (fun _ => pure _) (fun _ => jumpTo inside ea)
  | ioc =>
      apply check_bind (value_eq ea)
      exact (reuse _).bind fun _ _ _ => pure _
  | input =>
      apply check_bind (value_eq ea)
      apply (ofMemory (block_eq _ short)).bind
      intro (first, stop) m₂ found
      obtain ⟨range, rfl⟩ := ofMemory_eq_ok found
      obtain ⟨-, -, last, rfl⟩ :=
        Memory.block_of_short (n := d.block.length) range (by omega)
      apply check_bind (sub_ok (Nat.le_add_right first _))
      apply check_bind (mul_ok (by omega))
      apply (onDevice (input_eq _ d)).bind
      intro words m₃ _
      refine bind (changeMemory ?_) fun _ _ _ => pure _
      exact replace_eq (by omega) (Vector.length_toList ..)
  | output =>
      apply check_bind (value_eq ea)
      apply (ofMemory (block_eq _ short)).bind
      intro (first, stop) m₂ found
      obtain ⟨range, rfl⟩ := ofMemory_eq_ok found
      obtain ⟨-, -, last, rfl⟩ :=
        Memory.block_of_short (n := d.block.length) range (by omega)
      refine bind (inspectMemory (slice_eq (by omega))) fun words m₃ _ => ?_
      exact (onDevice (output_eq _ d)).bind fun _ _ _ => pure _

/-- **No instruction that was decoded panics.** -/
theorem execute {i : Instruction} {w : Word} (decoded : Instruction.decode w = .ok i)
    (fit : m.registers.Fit) (bounded : Bounded m) (inside : m.registers.pc < memorySize) :
    Agrees (execute i) (Machine.execute i) m := by
  have located : effectiveAddress m.registers i.address i.indexRegister? =
      .ok (m.effectiveAddress i) :=
    effectiveAddress_eq fit (Instruction.short_of_decode decoded) i.index
  have valid := Instruction.valid_of_decode decoded
  have short : ∀ count, i.operation = .move count → count < 64 := fun count op =>
    Instruction.count_lt_of_decode decoded op
  apply get_bind
  apply check_bind located
  generalize m.effectiveAddress i = ea
  generalize i.operation = op at valid short
  cases op with
  | nop => exact pure _
  | arithmetic kind f =>
      apply (operand ea).bind
      intro cell m₁ _
      apply check_bind (extract_eq (valid f rfl) cell)
      exact (changeRegisters (arithmetic_eq _ kind _)).bind fun _ _ _ => pure _
  | halt =>
      have counted := bounded.steps
      apply check_bind (add_ok (by grind))
      exact (reuse _).bind fun _ _ _ => pure _
  | shift kind =>
      apply check_bind (value_eq ea)
      apply ite
      · intro negative
        exact (reuse _).bind fun _ _ thrown => nomatch thrown
      · intro positive
        have size := ea.natAbs_value
        have below := ea.magnitude_lt
        apply check_bind (toUnsigned_ok (by grind))
        exact (changeRegisters (shift_eq _ kind _)).bind fun _ _ _ => pure _
  | move count => exact (moveBlock ea (short count rfl)).bind fun _ _ _ => pure _
  | load r f =>
      apply (operand ea).bind
      intro cell m₁ _
      apply check_bind (extract_eq (valid f rfl) cell)
      exact (reuse _).bind fun _ _ _ => pure _
  | loadNegative r f =>
      apply (operand ea).bind
      intro cell m₁ _
      apply check_bind (extract_eq (valid f rfl) cell.negate)
      exact (reuse _).bind fun _ _ _ => pure _
  | store r f => exact (store ea (valid f rfl) _).bind fun _ _ _ => pure _
  | storeZero f => exact (store ea (valid f rfl) _).bind fun _ _ _ => pure _
  | device op unit => exact workDevice bounded inside op unit ea
  | jump condition => exact jump inside condition ea
  | jumpRegister r test =>
      apply check_bind (value_eq _)
      exact ite (fun _ => jumpTo inside ea) (fun _ => pure _)
  | transfer r kind =>
      exact (changeRegisters (transfer_eq _ r kind ea)).bind fun _ _ _ => pure _
  | compare r f =>
      apply (operand ea).bind
      intro cell m₁ _
      refine bind (changeRegisters ?_) fun _ _ _ => pure _
      exact compare_eq (valid f rfl) _ r cell

theorem duration_eq {i : Instruction} {w : Word} (decoded : Instruction.decode w = .ok i) :
    duration i.operation = .ok i.operation.duration := by
  cases op : i.operation with
  | move count =>
      have short := Instruction.count_lt_of_decode decoded op
      unfold duration
      dsimp only
      rw [mul_ok (by grind), ok_bind, add_ok (by grind)]
      rfl
  | _ => rfl

theorem retire_eq {i : Instruction} {w : Word} (decoded : Instruction.decode w = .ok i)
    {pc : Nat} (inside : pc < memorySize) (flow : Flow) (steps : m.steps < 0x8000000000000000)
    (clock : m.clock < 0x8000000000000000) :
    retire i pc flow m = .ok (Machine.retire i pc flow m) := by
  have size : memorySize = 4000 := rfl
  have short := Instruction.duration_le_of_decode decoded
  unfold retire
  cases flow with
  | next =>
      dsimp only
      rw [add_ok (by grind), ok_bind, add_ok (by grind), ok_bind, duration_eq decoded, ok_bind,
        add_ok (by grind), ok_bind]
      rfl
  | jump target =>
      dsimp only
      rw [pure_eq, ok_bind, add_ok (by grind), ok_bind, duration_eq decoded, ok_bind,
        add_ok (by grind), ok_bind]
      rfl

theorem logged_eq {i : Instruction} {w : Word} (decoded : Instruction.decode w = .ok i) :
    logged i = .ok (i.address.value, i.operation.code?) := by
  unfold logged
  rw [value_eq, ok_bind, code?_eq (Instruction.valid_of_decode decoded), ok_bind, pure_eq]

theorem carryOut {i : Instruction} {w : Word} (decoded : Instruction.decode w = .ok i)
    (fit : m.registers.Fit) (bounded : Bounded m) :
    Agrees (carryOut i) (Machine.carryOut i) m := by
  apply get_bind
  apply (ofMemory (index_eq _)).bind
  intro pc m₁ found
  obtain ⟨place, rfl⟩ := ofMemory_eq_ok found
  obtain ⟨number, inside⟩ := Memory.index_eq_ok_iff.1 place
  cases Int.ofNat.inj number
  apply check_bind (logged_eq decoded)
  apply (execute decoded fit bounded inside).bind
  intro flow m₂ run
  -- the counts are those from before the instruction
  have completes := Machine.execute_eq_ok_iff.1 run
  have steps := completes.steps ▸ bounded.steps
  have clock := completes.clock ▸ bounded.clock
  refine bind (change (retire_eq decoded inside flow steps clock)) ?_
  intro _ m₃ _
  exact reuse _

/-- A machine that may run is left as it is by the check that it does. -/
theorem eq_of_checkRunning {u : Unit} (ready : Machine.checkRunning m = .ok u m') : m' = m := by
  by_cases running : m.state = .running
  · cases (Machine.checkRunning_ok running).symm.trans ready
    rfl
  · cases (Machine.checkRunning_error running).symm.trans ready

/-- The part that a step and a word have in common. -/
theorem decode_carryOut (fit : m.registers.Fit) (bounded : Bounded m) (w : Word) :
    Agrees (Guarded.ofDecode (decode w) >>= Checked.carryOut)
      (Exec.ofDecode (Instruction.decode w) >>= Machine.carryOut) m := by
  apply (ofDecode (decode_eq w)).bind
  intro i m₁ answer
  cases decoded : Instruction.decode w with
  | error e =>
      rw [decoded] at answer
      cases answer
  | ok j =>
      rw [decoded] at answer
      cases answer
      exact carryOut decoded fit bounded

theorem step (fit : m.registers.Fit) (bounded : Bounded m) (counter : m.registers.pc < 0x10000) :
    Agrees step Machine.step m := by
  apply (reuse _).bind
  intro u m₁ ready
  cases eq_of_checkRunning ready
  apply get_bind
  apply (read (by omega)).bind
  intro w m₂ fetched
  obtain ⟨-, rfl⟩ := ofMemory_eq_ok fetched
  exact decode_carryOut fit bounded w

theorem executeWord (fit : m.registers.Fit) (bounded : Bounded m) (w : Word) :
    Agrees (executeWord w) (Machine.executeWord w) m := by
  apply (reuse _).bind
  intro u m₁ ready
  cases eq_of_checkRunning ready
  exact decode_carryOut fit bounded w

end Agrees

/-- Neither a step nor a word that is executed panics, whatever the word, and each of them does
what it does in numbers of any size. -/
def NeverPanics (m : Machine Buffer) : Prop :=
  step m = .ok (Machine.step m) ∧ ∀ w, executeWord w m = .ok (Machine.executeWord w m)

end Checked

namespace Reached

open Checked

/-- **Execution never panics.** On a machine that was reached, with counts of sixty-three bits
and blocks that a process has room for, every operation of fixed width that a step makes is in
range, and so is every one that is made for a word. This is so too when the program counter has
been set to any number of sixteen bits, in memory or not. -/
theorem never_panics {calls : List Call} {m : Machine Buffer} (reached : Reached calls m)
    (bounded : Bounded m) :
    NeverPanics m ∧
      ∀ pc < 0x10000, NeverPanics { m with registers := { m.registers with pc } } := by
  have size : memorySize = 4000 := rfl
  have counter := reached.pc_le
  constructor
  · exact ⟨Agrees.step reached.fit bounded (by omega), Agrees.executeWord reached.fit bounded⟩
  · intro pc short
    have fit := reached.fit.withPc pc
    have same : Bounded { m with registers := { m.registers with pc } } :=
      ⟨bounded.steps, bounded.clock, bounded.sizes⟩
    exact ⟨Agrees.step fit same short, Agrees.executeWord fit same⟩

/-- The standard machine does not panic, and with the largest program counter there is it
refuses to fetch. -/
theorem never_panics_standard :
    NeverPanics .standard ∧
      Checked.step { Machine.standard with registers := { Registers.initial with pc := 0xFFFF } } =
        .ok (.error (.memory (.addressOutOfRange 0xFFFF))
          { Machine.standard with registers := { Registers.initial with pc := 0xFFFF } }) := by
  have bounded : Bounded .standard :=
    ⟨by decide, by decide, Devices.all_ofList (by decide)⟩
  obtain ⟨standard, anywhere⟩ := never_panics .standard bounded
  obtain ⟨stepped, -⟩ := anywhere 0xFFFF (by decide)
  refine ⟨standard, stepped.trans ?_⟩
  exact congrArg Except.ok (Machine.step_outside rfl (by decide))

end Reached

end MixMachine
