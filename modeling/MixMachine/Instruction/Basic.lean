import MixMachine.Field
import MixMachine.Register
import MixMachine.Word.Arithmetic

/-!
# Instructions

An instruction is an address, an index selector and an operation. An operation
says what to do in the terms of its own family: a field for arithmetic, loads,
stores and comparisons, a kind for shifts and address transfers, a condition for
jumps, a unit for device operations.
-/

namespace MixMachine

/-! ## Families of operations -/

/-- The four operations on A. -/
inductive Arithmetic where
  | add
  | sub
  | mul
  | div
  deriving DecidableEq

/-- The six byte shifts. -/
inductive Shift where
  /-- A to the left. -/
  | sla
  /-- A to the right. -/
  | sra
  /-- A and X to the left. -/
  | slax
  /-- A and X to the right. -/
  | srax
  /-- A and X to the left, circularly. -/
  | slc
  /-- A and X to the right, circularly. -/
  | src
  deriving DecidableEq

/-- The conditions of a jump that tests no register. -/
inductive Condition where
  /-- Always. -/
  | jmp
  /-- Always, and J keeps what it holds. -/
  | jsj
  /-- The overflow toggle is on. -/
  | jov
  /-- The overflow toggle is off. -/
  | jnov
  | jl
  | je
  | jg
  | jge
  | jne
  | jle
  deriving DecidableEq

/-- The conditions of a jump that tests a register. -/
inductive SignTest where
  | negative
  | zero
  | positive
  | nonNegative
  | nonZero
  | nonPositive
  deriving DecidableEq

/-- What an address transfer does with the effective address. -/
inductive Transfer where
  /-- Adds it to the register. -/
  | inc
  /-- Subtracts it from the register. -/
  | dec
  /-- Puts it into the register. -/
  | ent
  /-- Puts it into the register with the other sign. -/
  | enn
  deriving DecidableEq

/-- The device operations. -/
inductive DeviceOp where
  /-- Jumps if the device is busy. -/
  | jbus
  /-- Controls the device. -/
  | ioc
  /-- Reads a block into memory. -/
  | input
  /-- Writes a block from memory. -/
  | output
  /-- Jumps if the device is ready. -/
  | jred
  deriving DecidableEq

instance : Variants Arithmetic where
  all := [.add, .sub, .mul, .div]
  name
    | .add => "Add"
    | .sub => "Sub"
    | .mul => "Mul"
    | .div => "Div"

instance : Variants Shift where
  all := [.sla, .sra, .slax, .srax, .slc, .src]
  name
    | .sla => "Sla"
    | .sra => "Sra"
    | .slax => "Slax"
    | .srax => "Srax"
    | .slc => "Slc"
    | .src => "Src"

instance : Variants Condition where
  all := [.jmp, .jsj, .jov, .jnov, .jl, .je, .jg, .jge, .jne, .jle]
  name
    | .jmp => "Jmp"
    | .jsj => "Jsj"
    | .jov => "Jov"
    | .jnov => "Jnov"
    | .jl => "Jl"
    | .je => "Je"
    | .jg => "Jg"
    | .jge => "Jge"
    | .jne => "Jne"
    | .jle => "Jle"

instance : Variants SignTest where
  all := [.negative, .zero, .positive, .nonNegative, .nonZero, .nonPositive]
  name
    | .negative => "Negative"
    | .zero => "Zero"
    | .positive => "Positive"
    | .nonNegative => "NonNegative"
    | .nonZero => "NonZero"
    | .nonPositive => "NonPositive"

instance : Variants Transfer where
  all := [.inc, .dec, .ent, .enn]
  name
    | .inc => "Inc"
    | .dec => "Dec"
    | .ent => "Ent"
    | .enn => "Enn"

instance : Variants DeviceOp where
  all := [.jbus, .ioc, .input, .output, .jred]
  name
    | .jbus => "Jbus"
    | .ioc => "Ioc"
    | .input => "In"
    | .output => "Out"
    | .jred => "Jred"

/-- Whether a shift runs through X as well as A. -/
def Shift.usesX : Shift → Bool
  | sla | sra => false
  | slax | srax | slc | src => true

/-- Which way a shift moves bytes. -/
def Shift.direction : Shift → Word.Direction
  | sla | slax | slc => .left
  | sra | srax | src => .right

/-- What a shift brings in at the end that the bytes move away from. -/
def Shift.fill : Shift → Word.Fill
  | slc | src => .wrapped
  | sla | sra | slax | srax => .zeros

/-- Whether a number passes the test. -/
def SignTest.holds (test : SignTest) (v : Int) : Bool :=
  match test with
  | negative => decide (v < 0)
  | zero => decide (v = 0)
  | positive => decide (v > 0)
  | nonNegative => decide (v ≥ 0)
  | nonZero => decide (v ≠ 0)
  | nonPositive => decide (v ≤ 0)

/-- Whether a jump is taken, by the overflow toggle and the comparison indicator.
An unset indicator satisfies no comparison, not even the one for unequal. -/
def Condition.holds (condition : Condition) (overflow : Bool)
    (comparison : Option Ordering) : Bool :=
  match condition with
  | jmp | jsj => true
  | jov => overflow
  | jnov => !overflow
  | jl => comparison == some .lt
  | je => comparison == some .eq
  | jg => comparison == some .gt
  | jge => comparison == some .gt || comparison == some .eq
  | jne => comparison == some .lt || comparison == some .gt
  | jle => comparison == some .lt || comparison == some .eq

/-! ## Operations and instructions -/

/-- What an instruction does. `V` is the field of the cell at the effective
address. -/
inductive Operation where
  /-- Nothing. -/
  | nop
  /-- Combines A, and X for a division, with V. -/
  | arithmetic (kind : Arithmetic) (field : Field)
  /-- Stops the machine. -/
  | halt
  /-- Shifts bytes. -/
  | shift (kind : Shift)
  /-- Copies `count` words from the effective address to the address in I1. -/
  | move (count : Nat)
  /-- Puts V into a register. -/
  | load (register : Register) (field : Field)
  /-- Puts V of the negated cell into a register. -/
  | loadNegative (register : Register) (field : Field)
  /-- Puts a register into a field of the cell at the effective address. -/
  | store (register : Register) (field : Field)
  /-- Puts zero into a field of the cell at the effective address. -/
  | storeZero (field : Field)
  /-- Works a device. -/
  | device (op : DeviceOp) (unit : Nat)
  /-- Jumps on the overflow toggle or the comparison indicator. -/
  | jump (condition : Condition)
  /-- Jumps on the number in a register. -/
  | jumpRegister (register : Register) (test : SignTest)
  /-- Uses the effective address itself as a number. -/
  | transfer (register : Register) (kind : Transfer)
  /-- Compares a field of a register with V. -/
  | compare (register : Register) (field : Field)
  deriving DecidableEq

namespace Operation

/-- The field of an operation that has one. -/
def field? : Operation → Option Field
  | arithmetic _ f | load _ f | loadNegative _ f | store _ f | storeZero f | compare _ f => some f
  | _ => none

/-- How long the operation takes, in units of the machine's time. -/
def duration : Operation → Nat
  | nop => 1
  | arithmetic .add _ | arithmetic .sub _ => 2
  | arithmetic .mul _ => 10
  | arithmetic .div _ => 12
  | halt => 10
  | shift _ => 2
  | move count => 1 + 2 * count
  | load .. | loadNegative .. | store .. | storeZero _ | compare .. => 2
  | device .. | jump _ | jumpRegister .. | transfer .. => 1

end Operation

/-- A signed address, an index selector and an operation. -/
structure Instruction where
  address : Word
  index : Nat
  operation : Operation
  deriving DecidableEq

namespace Instruction

/-- A number as an address word: its sign and the two low bytes of its
magnitude. -/
def addressOf (v : Int) : Word :=
  Word.ofSignMagnitude (Sign.of v) (v.natAbs % 0x1000)

/-- The index register that modifies the address. -/
def indexRegister? (instruction : Instruction) : Option Register :=
  Register.ofIndex? instruction.index

end Instruction

end MixMachine
