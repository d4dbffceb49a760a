import MixMachine.Device
import MixMachine.Image.Basic
import MixMachine.Instruction.Text
import MixMachine.Registers

/-!
# The machine

The machine joins the register file, memory and the devices, and counts what it
does. `Exec` is an action of the machine that may fail with a `Fault`; the state
in which a failed action leaves the machine is part of the answer, so that a
failure which changes nothing is a theorem and not a matter of form.

The devices have any type `δ` with the hooks of `Device`.
-/

namespace MixMachine

/-- Whether the machine executes instructions. -/
inductive RunState where
  | running
  /-- A halt was executed. -/
  | halted
  deriving DecidableEq

instance : Variants RunState where
  all := [.running, .halted]
  name
    | .running => "Running"
    | .halted => "Halted"

/-- Why the machine could not do something. -/
inductive Fault where
  | notRunning (state : RunState)
  | memory (error : MemoryError)
  | decode (error : DecodeError)
  | device (error : DeviceError)
  | word (error : WordError)
  /-- A shift by a negative count. -/
  | negativeShift (count : Int)
  deriving DecidableEq

/-- What a user is told. -/
def Fault.message : Fault → String
  | notRunning state => s!"machine not running: {Variants.name state}"
  | memory error => s!"memory error: {error.message}"
  | decode error => s!"decode error: {error.message}"
  | device error => s!"device error: {error.message}"
  | word error => s!"word error: {error.message}"
  | negativeShift count => s!"negative shift count: {Decimal.integer count}"

/-- The machine. `steps` counts the instructions executed, `clock` adds up their
durations, and `last` is the instruction executed last. -/
structure Machine (δ : Type) where
  registers : Registers
  memory : Memory
  devices : Devices δ
  state : RunState
  steps : Nat
  clock : Nat
  last : Option Instruction

/-- An action of the machine. -/
abbrev Exec (δ : Type) := EStateM Fault (Machine δ)

namespace Exec

variable {δ α : Type}

/-- The answer of a check of memory. -/
def ofMemory : Except MemoryError α → Exec δ α
  | .ok a => pure a
  | .error e => throw (.memory e)

/-- The answer of the decoder. -/
def ofDecode : Except DecodeError α → Exec δ α
  | .ok a => pure a
  | .error e => throw (.decode e)

/-- The answer of a look-up of a device. -/
def ofDevice : Except DeviceError α → Exec δ α
  | .ok a => pure a
  | .error e => throw (.device e)

/-- The answer of a conversion of a number to a word. -/
def ofWord : Except WordError α → Exec δ α
  | .ok a => pure a
  | .error e => throw (.word e)

/-- Changes the register file. -/
def modifyRegisters (f : Registers → Registers) : Exec δ Unit :=
  modify fun m => { m with registers := f m.registers }

/-- The answer of a checked access that reads memory. -/
def inspectMemory (f : Memory → Except MemoryError α) : Exec δ α := do
  ofMemory (f (← get).memory)

/-- Changes memory by a checked access that writes it. -/
def changeMemory (f : Memory → Except MemoryError Memory) : Exec δ Unit := do
  let memory ← ofMemory (f (← get).memory)
  modify fun m => { m with memory }

/-- Runs a hook of the device on a unit. What the hook makes of the device stays
on the unit, also when the hook fails. -/
def onDevice (unit : Nat) (d : δ) (hook : EStateM DeviceError δ α) : Exec δ α := fun m =>
  match hook d with
  | .ok a d' => .ok a { m with devices := m.devices.attach unit d' }
  | .error e d' => .error (.device e) { m with devices := m.devices.attach unit d' }

end Exec

namespace Machine

variable {δ : Type}

/-- A machine at rest: registers and memory zero, nothing counted. -/
def initial (devices : Devices δ) : Machine δ :=
  ⟨.initial, .zeros, devices, .running, 0, 0, none⟩

/-- The machine with the standard devices. -/
def standard : Machine Buffer :=
  initial .standard

/-- The machine at rest with the same devices. -/
def reset (m : Machine δ) : Machine δ :=
  initial m.devices

/-- Chooses the next instruction. -/
def setPc (pc : Nat) : Exec δ Unit := do
  let pc ← Exec.ofMemory (Memory.index pc)
  Exec.modifyRegisters fun rs => { rs with pc }

/-- A machine at rest whose next instruction is at `pc`. -/
def startingAt (devices : Devices δ) (pc : Nat) : Except Fault (Machine δ) :=
  match setPc pc (initial devices) with
  | .ok _ m => .ok m
  | .error e _ => .error e

/-- Places a word in memory. -/
def loadWord (a : Nat) (w : Word) : Exec δ Unit :=
  Exec.changeMemory fun mem => mem.write a w

/-- Places words at their addresses, in order. -/
def placeCells : List (Nat × Word) → Exec δ Unit
  | [] => return ()
  | (a, w) :: cells => do
    loadWord a w
    placeCells cells

/-- Places every word of an image and makes the machine ready to run from its
start. Every address of the image is checked before the first word is placed; the
error names the first address outside memory. -/
def loadImage (image : Image) : Exec δ Unit :=
  match image.firstOutside? with
  | some a => throw (.memory (.addressOutOfRange a))
  | none => do
    placeCells image.cells
    modify fun m =>
      { m with registers := { m.registers with pc := image.start }, state := .running }

/-- The parts of the machine that tell how far it is, by name. -/
def record (m : Machine δ) : String :=
  s!"Machine \x7b regs: {m.registers.record}, state: {Variants.name m.state}, " ++
    s!"steps: {Decimal.natural m.steps}, clock: {Decimal.natural m.clock} \x7d"

end Machine

end MixMachine
