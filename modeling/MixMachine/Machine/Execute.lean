import MixMachine.Machine.Basic

/-!
# Executing an instruction

`execute` does what one instruction says and tells where control goes. What an
instruction needs is checked before its first change, and every later access is
checked again where it happens, so that no access relies on an earlier check. Only
an input whose block wraps round fails behind a change, at the second check.

What an instruction does to the registers alone is a function on the register
file, apart from the machine.
-/

namespace MixMachine

/-- Where control goes after an instruction. -/
inductive Flow where
  /-- To the cell behind the instruction. -/
  | next
  /-- To the cell at this address. -/
  | jump (target : Nat)
  deriving DecidableEq

/-- The address of the next instruction, after one that stood at `pc`. -/
def Flow.following (pc : Nat) : Flow → Nat
  | .next => pc + 1
  | .jump target => target

/-! ## Changes of the register file -/

namespace Registers

/-- Turns the overflow toggle on when something overflowed. It stays on until an
instruction turns it off. -/
def latchOverflow (rs : Registers) (overflowed : Bool) : Registers :=
  { rs with overflow := rs.overflow || overflowed }

/-- Combines A with a word. A product goes to A and X; a quotient goes to A and
its remainder to X, and a division that has no quotient only turns the overflow
toggle on. -/
def arithmetic (rs : Registers) (kind : Arithmetic) (v : Word) : Registers :=
  match kind with
  | .add =>
    let (sum, overflowed) := Word.add rs.a v
    (rs.set .a sum).latchOverflow overflowed
  | .sub =>
    let (difference, overflowed) := Word.subtract rs.a v
    (rs.set .a difference).latchOverflow overflowed
  | .mul =>
    let (high, low) := Word.multiply rs.a v
    (rs.set .a high).set .x low
  | .div =>
    match Word.divide rs.a rs.x v with
    | some (quotient, remainder) => (rs.set .a quotient).set .x remainder
    | none => rs.latchOverflow true

/-- Shifts the bytes of A, or those of A and X as one run of ten. The signs
stay. -/
def shift (rs : Registers) (kind : Shift) (count : Nat) : Registers :=
  let moved := Word.shiftBytes kind.direction kind.fill count
  if kind.usesX then
    let bytes := moved (rs.a.bytes ++ rs.x.bytes)
    (rs.set .a (Word.ofBytes rs.a.sign (bytes.take 5))).set .x
      (Word.ofBytes rs.x.sign (bytes.drop 5))
  else
    rs.set .a (Word.ofBytes rs.a.sign (moved rs.a.bytes))

/-- Adds the effective address to a register, subtracts it, or puts it there. A
result wider than the register turns the overflow toggle on and keeps its low
bits. -/
def transfer (rs : Registers) (r : Register) (kind : Transfer) (ea : Word) : Registers :=
  match kind with
  | .inc =>
    let (sum, overflowed) := Word.addUpTo r.width.maxMagnitude (rs.get r) ea
    (rs.set r sum).latchOverflow overflowed
  | .dec =>
    let (sum, overflowed) := Word.addUpTo r.width.maxMagnitude (rs.get r) ea.negate
    (rs.set r sum).latchOverflow overflowed
  | .ent => (rs.set r ea).latchOverflow (exceeds r ea)
  | .enn => (rs.set r ea.negate).latchOverflow (exceeds r ea.negate)

/-- Sets the comparison indicator from the same field of a register and of a
cell. -/
def compare (rs : Registers) (r : Register) (f : Field) (cell : Word) : Registers :=
  { rs with comparison := some (Word.compare (f.extract (rs.get r)) (f.extract cell)) }

/-- Puts the address behind the running instruction into J, for the way back. -/
def link (rs : Registers) : Registers :=
  rs.set .j (Word.ofSignMagnitude .plus (rs.pc + 1))

end Registers

namespace Machine

variable {δ : Type}

/-! ## Operands -/

/-- The effective address of an instruction. -/
def effectiveAddress (m : Machine δ) (instruction : Instruction) : Word :=
  m.registers.effectiveAddress instruction.address instruction.indexRegister?

/-- The address of a cell that a word stands for. -/
def address (ea : Word) : Exec δ Nat :=
  Exec.ofMemory (Memory.index ea.value)

/-- The word in the cell at an effective address. -/
def operand (ea : Word) : Exec δ Word := do
  let a ← address ea
  Exec.inspectMemory fun mem => mem.read a

/-- Puts a value into a field of the cell at an effective address. -/
def store (ea : Word) (f : Field) (value : Word) : Exec δ Unit := do
  let a ← address ea
  let cell ← Exec.inspectMemory fun mem => mem.read a
  Exec.changeMemory fun mem => mem.write a (f.insert cell value)

/-- Goes to an effective address and links back through J. -/
def jumpTo (ea : Word) : Exec δ Flow := do
  let target ← address ea
  Exec.modifyRegisters Registers.link
  return .jump target

/-! ## Instructions with a rule of their own -/

/-- Copies `count` words from `source` on to `target` on, one after the other
from the lowest address. Where the ranges overlap, a word copied before is copied
again. -/
def copyCells (source target : Nat) : Nat → Exec δ Unit
  | 0 => return ()
  | count + 1 => do
    let w ← Exec.inspectMemory fun mem => mem.read source
    Exec.changeMemory fun mem => mem.write target w
    copyCells (source + 1) (target + 1) count

/-- Copies a block to the address in I1 and moves I1 behind it. A block that is
already where it should go is left alone, wherever that is. The two blocks are
gone through side by side, up to the end of the shorter one. -/
def moveBlock (ea : Word) (count : Nat) : Exec δ Unit := do
  let i1 := (← get).registers.get .i1
  if ea.value = i1.value then
    return ()
  let (source, sourceEnd) ← Exec.ofMemory (Memory.block ea.value count)
  let (target, targetEnd) ← Exec.ofMemory (Memory.block i1.value count)
  copyCells source target (min (sourceEnd - source) (targetEnd - target))
  let behind ← Exec.ofWord (Word.ofInt (i1.value + Memory.signed64 count))
  Exec.modifyRegisters fun rs => rs.set .i1 behind

/-- Jumps when the condition holds. The two jumps on overflow turn the toggle off
whether they are taken or not, and the jump that saves J does not link. The
target is checked only when the jump is taken. -/
def jump (condition : Condition) (ea : Word) : Exec δ Flow := do
  let rs := (← get).registers
  let clearToggle : Exec δ Unit :=
    match condition with
    | .jov | .jnov => Exec.modifyRegisters fun rs => { rs with overflow := false }
    | _ => pure ()
  if condition.holds rs.overflow rs.comparison then
    let target ← address ea
    clearToggle
    if condition ≠ .jsj then
      Exec.modifyRegisters Registers.link
    return .jump target
  else
    clearToggle
    return .next

variable [Device δ]

/-- Works the device on a unit. The unit is looked up before anything else, and a
block has its place in memory checked before the device is asked. A block whose
end wraps round passes this check: then the device gives an empty block, and only
the access to memory fails. -/
def workDevice (op : DeviceOp) (unit : Nat) (ea : Word) : Exec δ Flow := do
  let d ← Exec.ofDevice ((← get).devices.find unit)
  match op with
  | .jbus => if Device.isBusy d then jumpTo ea else return .next
  | .jred => if Device.isBusy d then return .next else jumpTo ea
  | .ioc =>
    Exec.onDevice unit d (Device.control ea.value)
    return .next
  | .input =>
    let (first, stop) ← Exec.ofMemory (Memory.block ea.value (Device.blockSize d))
    let block ← Exec.onDevice unit d (Device.input (stop - first))
    Exec.changeMemory fun mem => mem.replace first stop block.toList
    return .next
  | .output =>
    let (first, stop) ← Exec.ofMemory (Memory.block ea.value (Device.blockSize d))
    let block ← Exec.inspectMemory fun mem => mem.slice first stop
    Exec.onDevice unit d (Device.output block)
    return .next

/-- Does what an instruction says, the program counter and the counts apart. -/
def execute (instruction : Instruction) : Exec δ Flow := do
  let m ← get
  let rs := m.registers
  let ea := m.effectiveAddress instruction
  match instruction.operation with
  | .nop => return .next
  | .arithmetic kind f =>
    let cell ← operand ea
    Exec.modifyRegisters fun rs => rs.arithmetic kind (f.extract cell)
    return .next
  | .halt =>
    modify fun m => { m with state := .halted }
    return .next
  | .shift kind =>
    if ea.value < 0 then
      throw (.negativeShift ea.value)
    Exec.modifyRegisters fun rs => rs.shift kind ea.value.toNat
    return .next
  | .move count =>
    moveBlock ea count
    return .next
  | .load r f =>
    let cell ← operand ea
    Exec.modifyRegisters fun rs => rs.set r (f.extract cell)
    return .next
  | .loadNegative r f =>
    let cell ← operand ea
    Exec.modifyRegisters fun rs => rs.set r (f.extract cell.negate)
    return .next
  | .store r f =>
    store ea f (rs.get r)
    return .next
  | .storeZero f =>
    store ea f .zero
    return .next
  | .device op unit => workDevice op unit ea
  | .jump condition => jump condition ea
  | .jumpRegister r test => if test.holds (rs.get r).value then jumpTo ea else return .next
  | .transfer r kind =>
    Exec.modifyRegisters fun rs => rs.transfer r kind ea
    return .next
  | .compare r f =>
    let cell ← operand ea
    Exec.modifyRegisters fun rs => rs.compare r f cell
    return .next

end Machine

end MixMachine
