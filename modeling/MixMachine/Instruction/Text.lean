import MixMachine.Instruction.Code
import MixMachine.Word.Text

/-!
# The written form of instructions

In assembly notation an instruction is written `OP ADDRESS,INDEX(FIELD)`. The
index is left out when it is 0, the field when it is the default of the opcode,
and the count of a move or the unit of a device when it is 0. An address of
negative zero is written `-0`.

The record form names the parts of an instruction, for a user who inspects a
machine rather than a program.
-/

namespace MixMachine

/-- The letters that a test adds to the mnemonic of a register jump. -/
def SignTest.suffix : SignTest → String
  | negative => "N"
  | zero => "Z"
  | positive => "P"
  | nonNegative => "NN"
  | nonZero => "NZ"
  | nonPositive => "NP"

namespace Operation

/-- The mnemonic, such as `LDA`, `J1NZ` and `INCX`. -/
def mnemonic : Operation → String
  | nop => "NOP"
  | arithmetic kind _ =>
    match kind with
    | .add => "ADD"
    | .sub => "SUB"
    | .mul => "MUL"
    | .div => "DIV"
  | halt => "HLT"
  | shift kind =>
    match kind with
    | .sla => "SLA"
    | .sra => "SRA"
    | .slax => "SLAX"
    | .srax => "SRAX"
    | .slc => "SLC"
    | .src => "SRC"
  | move _ => "MOVE"
  | load r _ => "LD" ++ r.suffix
  | loadNegative r _ => "LD" ++ r.suffix ++ "N"
  | store r _ => "ST" ++ r.suffix
  | storeZero _ => "STZ"
  | device op _ =>
    match op with
    | .jbus => "JBUS"
    | .ioc => "IOC"
    | .input => "IN"
    | .output => "OUT"
    | .jred => "JRED"
  | jump condition =>
    match condition with
    | .jmp => "JMP"
    | .jsj => "JSJ"
    | .jov => "JOV"
    | .jnov => "JNOV"
    | .jl => "JL"
    | .je => "JE"
    | .jg => "JG"
    | .jge => "JGE"
    | .jne => "JNE"
    | .jle => "JLE"
  | jumpRegister r test => "J" ++ r.suffix ++ test.suffix
  | transfer r kind =>
    (match kind with
      | .inc => "INC"
      | .dec => "DEC"
      | .ent => "ENT"
      | .enn => "ENN") ++ r.suffix
  | compare r _ => "CMP" ++ r.suffix

/-- Whether the modifier is the one that the opcode has by default. -/
def hasDefaultModifier (op : Operation) : Bool :=
  match op.code? with
  | some (opcode, modifier) => modifier == defaultModifier opcode
  | none => false

/-- What stands in parentheses behind the address: the field unless it is the
default, or the count or unit unless it is 0. -/
def modifierText (op : Operation) : String :=
  match op with
  | move n | device _ n => if n = 0 then "" else s!"({Decimal.natural n})"
  | _ =>
    match op.field? with
    | some f => if op.hasDefaultModifier then "" else f.text
    | none => ""

/-- The operation with its parts by name. -/
def record : Operation → String
  | nop => "Nop"
  | arithmetic kind f => s!"{Variants.name kind}({f.text})"
  | halt => "Halt"
  | shift kind => s!"Shift({Variants.name kind})"
  | move count => s!"Move \x7b count: {Decimal.natural count} \x7d"
  | load r f => s!"Load \x7b reg: {r.name}, field: {f.text} \x7d"
  | loadNegative r f => s!"LoadNeg \x7b reg: {r.name}, field: {f.text} \x7d"
  | store r f => s!"Store \x7b reg: {r.name}, field: {f.text} \x7d"
  | storeZero f => s!"StoreZero \x7b field: {f.text} \x7d"
  | device op unit => s!"Io \x7b op: {Variants.name op}, unit: {Decimal.natural unit} \x7d"
  | jump condition => s!"Jump({Variants.name condition})"
  | jumpRegister r test => s!"JumpRegister \x7b reg: {r.name}, test: {Variants.name test} \x7d"
  | transfer r kind => s!"Transfer \x7b reg: {r.name}, kind: {Variants.name kind} \x7d"
  | compare r f => s!"Compare \x7b reg: {r.name}, field: {f.text} \x7d"

end Operation

/-- What a user is told. -/
def EncodeError.message : EncodeError → String
  | noOpcode operation => s!"no opcode for {operation.record}"
  | invalidIndex index => s!"index selector {Decimal.natural index} out of range (0-6)"
  | modifierOutOfRange modifier => s!"modifier {Decimal.natural modifier} does not fit in a byte"
  | addressOutOfRange address => s!"address {Decimal.integer address} does not fit in two bytes"

namespace Instruction

/-- The address as a signed number, with negative zero apart from zero. -/
def addressText (address : Word) : String :=
  if address.isZero && address.sign.isMinus then "-0" else Decimal.integer address.value

/-- The instruction in assembly notation. -/
def text (instruction : Instruction) : String :=
  instruction.operation.mnemonic ++ " " ++ addressText instruction.address ++
    (if instruction.index = 0 then "" else "," ++ Decimal.natural instruction.index) ++
    instruction.operation.modifierText

/-- The instruction with its parts by name. -/
def record (instruction : Instruction) : String :=
  s!"Instruction \x7b address: {instruction.address.record}, " ++
    s!"index: {Decimal.natural instruction.index}, op: {instruction.operation.record} \x7d"

/-- A word in assembly notation, or question marks when it is no instruction. -/
def disassemble (w : Word) : String :=
  match decode w with
  | .ok instruction => instruction.text
  | .error _ => "???"

end Instruction

end MixMachine
