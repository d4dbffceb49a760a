import MixMachine.Instruction.Basic

/-!
# The code of instructions

An instruction word holds the address in its sign and bytes 1 and 2, the index
selector in byte 3, the modifier in byte 4 and the opcode in byte 5:

```text
  0   1   2   3   4   5
| ± | A | A | I | F | C |
```

The opcodes stand in rows of eight. In the rows of loads, negated loads, stores,
register jumps, address transfers and comparisons, the place in the row names
the register; the first row and the fifth hold the operations that name none,
and the store of J, the only one of its operations that has an opcode.

The modifier is a packed field for arithmetic, loads, stores and comparisons, a
count for the move, a unit for devices, and chooses a variant elsewhere.
-/

namespace MixMachine

/-- Why a word is no instruction. -/
inductive DecodeError where
  | invalidOpcode (opcode : Nat)
  /-- The modifier packs no field. -/
  | invalidField (opcode : Nat) (source : FieldError)
  /-- The modifier chooses no variant. -/
  | invalidModifier (opcode modifier : Nat)
  | invalidIndex (index : Nat)
  /-- The machine does not do this operation. -/
  | unsupported (name : String)
  deriving DecidableEq

/-- Why an instruction has no word. -/
inductive EncodeError where
  /-- No opcode combines this operation with this register. -/
  | noOpcode (operation : Operation)
  | invalidIndex (index : Nat)
  | modifierOutOfRange (modifier : Nat)
  | addressOutOfRange (address : Int)
  deriving DecidableEq

namespace DecodeError

/-- What a user is told. -/
def message : DecodeError → String
  | invalidOpcode opcode => s!"invalid opcode: {Decimal.natural opcode}"
  | invalidField opcode source =>
    s!"invalid field specification for opcode {Decimal.natural opcode}: {source.message}"
  | invalidModifier opcode modifier =>
    s!"invalid modifier {Decimal.natural modifier} for opcode {Decimal.natural opcode}"
  | invalidIndex index => s!"invalid index register selector: {Decimal.natural index}"
  | unsupported name => s!"unsupported operation: {name}"

end DecodeError

/-! ## Opcodes -/

namespace Opcode

/-- The opcode of the halt and of two conversions that the machine does not do. -/
def special : Nat := 5

/-- The opcode of the shifts. -/
def shift : Nat := 6

/-- The opcode of the move. -/
def move : Nat := 7

/-- The first opcode of the loads. -/
def load : Nat := 8

/-- The first opcode of the negated loads. -/
def loadNegative : Nat := 16

/-- The first opcode of the stores. -/
def store : Nat := 24

/-- The opcode of the store of J. -/
def storeJump : Nat := 32

/-- The opcode of the store of zero. -/
def storeZero : Nat := 33

/-- The first opcode of the device operations. -/
def device : Nat := 34

/-- The opcode of the jumps that test no register. -/
def jump : Nat := 39

/-- The first opcode of the jumps that test a register. -/
def jumpRegister : Nat := 40

/-- The first opcode of the address transfers. -/
def transfer : Nat := 48

/-- The first opcode of the comparisons. -/
def compare : Nat := 56

end Opcode

/-- The modifier of the halt. -/
def haltModifier : Nat := 2

/-- The modifier that an opcode has when a program gives none. The store of J is
the only operation with a field that does not default to the whole word, because
J holds two bytes. -/
def defaultModifier (opcode : Nat) : Nat :=
  if opcode = Opcode.storeJump then Field.address.toByte
  else if opcode = Opcode.special then haltModifier
  else if (1 ≤ opcode ∧ opcode ≤ 4) ∨ (Opcode.load ≤ opcode ∧ opcode ≤ Opcode.storeZero) ∨
      (Opcode.compare ≤ opcode ∧ opcode ≤ 63) then Field.full.toByte
  else 0

/-! ## Encoding -/

/-- The opcode and the modifier of an operation. Outside the stores J has no
opcode. -/
def Operation.code? : Operation → Option (Nat × Nat)
  | nop => some (0, 0)
  | arithmetic kind f => some (1 + Variants.number kind, f.toByte)
  | halt => some (Opcode.special, haltModifier)
  | shift kind => some (Opcode.shift, Variants.number kind)
  | move count => some (Opcode.move, count)
  | load r f => r.offset?.map fun k => (Opcode.load + k, f.toByte)
  | loadNegative r f => r.offset?.map fun k => (Opcode.loadNegative + k, f.toByte)
  | store r f =>
    match r.offset? with
    | some k => some (Opcode.store + k, f.toByte)
    | none => some (Opcode.storeJump, f.toByte)
  | storeZero f => some (Opcode.storeZero, f.toByte)
  | device op unit => some (Opcode.device + Variants.number op, unit)
  | jump condition => some (Opcode.jump, Variants.number condition)
  | jumpRegister r test =>
    r.offset?.map fun k => (Opcode.jumpRegister + k, Variants.number test)
  | transfer r kind => r.offset?.map fun k => (Opcode.transfer + k, Variants.number kind)
  | compare r f => r.offset?.map fun k => (Opcode.compare + k, f.toByte)

namespace Instruction

/-- The word with these four parts. The address gives its sign and its two low
bytes, and any other part above 63 becomes a zero byte. -/
def pack (address : Word) (index modifier opcode : Nat) : Word :=
  Word.ofBytes address.sign
    [address.magnitude / 64 % 64, address.magnitude % 64, index, modifier, opcode]

/-- The word with a number as its address. -/
def assemble (address : Int) (index modifier opcode : Nat) : Word :=
  pack (addressOf address) index modifier opcode

/-- The word of an instruction. A part that does not fit its bytes is an error;
when several do not, the operation is named first, then the index, the modifier
and the address. -/
def encode (instruction : Instruction) : Except EncodeError Word :=
  match instruction.operation.code? with
  | none => .error (.noOpcode instruction.operation)
  | some (opcode, modifier) =>
    if instruction.index > 6 then .error (.invalidIndex instruction.index)
    else if modifier > Word.byteMax then .error (.modifierOutOfRange modifier)
    else if instruction.address.magnitude ≥ 0x1000 then
      .error (.addressOutOfRange instruction.address.value)
    else .ok (pack instruction.address instruction.index modifier opcode)

end Instruction

/-! ## Decoding -/

namespace Operation

/-- The field that a modifier packs. -/
def decodeField (opcode modifier : Nat) : Except DecodeError Field :=
  match Field.ofByte modifier with
  | .ok f => .ok f
  | .error e => .error (.invalidField opcode e)

/-- The variant that a modifier chooses. -/
def decodeVariant {α : Type} [Variants α] (opcode modifier : Nat) : Except DecodeError α :=
  match Variants.ofNumber? modifier with
  | some v => .ok v
  | none => .error (.invalidModifier opcode modifier)

/-- The register that the place of an opcode in its row names. -/
def decodeRegister (opcode : Nat) : Except DecodeError Register :=
  match Register.ofOffset? (opcode % 8) with
  | some r => .ok r
  | none => .error (.invalidOpcode opcode)

/-- The operations of the first row, which name no register. -/
def decodeFirstRow (opcode modifier : Nat) : Except DecodeError Operation :=
  match opcode with
  | 0 => .ok nop
  | 1 => (arithmetic .add ·) <$> decodeField opcode modifier
  | 2 => (arithmetic .sub ·) <$> decodeField opcode modifier
  | 3 => (arithmetic .mul ·) <$> decodeField opcode modifier
  | 4 => (arithmetic .div ·) <$> decodeField opcode modifier
  | 5 =>
    match modifier with
    | 0 => .error (.unsupported "NUM")
    | 1 => .error (.unsupported "CHAR")
    | 2 => .ok halt
    | _ => .error (.invalidModifier opcode modifier)
  | 6 => shift <$> decodeVariant opcode modifier
  | 7 => .ok (move modifier)
  | _ => .error (.invalidOpcode opcode)

/-- The operations of the fifth row: two stores, the device operations and the
jumps that test no register. -/
def decodeFifthRow (opcode modifier : Nat) : Except DecodeError Operation :=
  match opcode with
  | 32 => store .j <$> decodeField opcode modifier
  | 33 => storeZero <$> decodeField opcode modifier
  | 34 => .ok (device .jbus modifier)
  | 35 => .ok (device .ioc modifier)
  | 36 => .ok (device .input modifier)
  | 37 => .ok (device .output modifier)
  | 38 => .ok (device .jred modifier)
  | 39 => jump <$> decodeVariant opcode modifier
  | _ => .error (.invalidOpcode opcode)

/-- The operation with an opcode and a modifier. -/
def decode (opcode modifier : Nat) : Except DecodeError Operation :=
  match opcode / 8 with
  | 0 => decodeFirstRow opcode modifier
  | 1 => load <$> decodeRegister opcode <*> decodeField opcode modifier
  | 2 => loadNegative <$> decodeRegister opcode <*> decodeField opcode modifier
  | 3 => store <$> decodeRegister opcode <*> decodeField opcode modifier
  | 4 => decodeFifthRow opcode modifier
  | 5 => jumpRegister <$> decodeRegister opcode <*> decodeVariant opcode modifier
  | 6 => transfer <$> decodeRegister opcode <*> decodeVariant opcode modifier
  | 7 => compare <$> decodeRegister opcode <*> decodeField opcode modifier
  | _ => .error (.invalidOpcode opcode)

end Operation

/-- The instruction that a word holds. The index selector is checked first. -/
def Instruction.decode (w : Word) : Except DecodeError Instruction :=
  if w.byte 3 > 6 then .error (.invalidIndex (w.byte 3))
  else (Instruction.mk (Field.address.extract w) (w.byte 3) ·) <$>
    Operation.decode (w.byte 5) (w.byte 4)

end MixMachine
