import MixMachine.Json.Codec
import MixMachine.Image.Basic
import MixMachine.Instruction.Basic
import MixMachine.Registers

/-!
# The parts of the machine in documents

The documents of words, fields, instructions, register files and images. A word
stands for its 32 bits, bit 31 included, so reading a document may give an
improper word. Reading checks that a number fits its place (8 bits for the parts
of a field or an instruction, 16 for an address) and nothing else: a field read
from a document may be reversed, an index register may hold five bytes and an
address may lie outside memory.
-/

namespace MixMachine

/-- The largest number of eight bits. -/
def byteLimit : Nat := 0xFF

/-- The largest number of sixteen bits. -/
def addressLimit : Nat := 0xFFFF

/-! ## Words and fields -/

/-- A word by its bits. -/
def Word.toJson (w : Word) : Json :=
  .natural w.bits.toNat

/-- Reads a word of any 32 bits. -/
def Word.ofJson? (v : Json) : Option Word := do
  Word.ofRawBits? (← v.natural? 0xFFFFFFFF)

/-- A field by its bounds. -/
def Field.toJson (f : Field) : Json :=
  .record [("l", .natural f.left), ("r", .natural f.right)]

/-- Reads a field, in order or not. -/
def Field.ofJson? (v : Json) : Option Field :=
  match v.fields? ["l", "r"] with
  | some [some l, some r] => return ⟨← l.natural? byteLimit, ← r.natural? byteLimit⟩
  | _ => none

/-! ## Instructions -/

namespace Operation

/-- A register and a field. -/
def registerAndField (r : Register) (f : Field) : Json :=
  .record [("reg", .named r), ("field", f.toJson)]

/-- An operation by its name and its parts. -/
def toJson : Operation → Json
  | nop => .text "Nop"
  | arithmetic kind f => .variant (Variants.name kind) f.toJson
  | halt => .text "Halt"
  | shift kind => .variant "Shift" (.named kind)
  | move count => .variant "Move" (.record [("count", .natural count)])
  | load r f => .variant "Load" (registerAndField r f)
  | loadNegative r f => .variant "LoadNeg" (registerAndField r f)
  | store r f => .variant "Store" (registerAndField r f)
  | storeZero f => .variant "StoreZero" (.record [("field", f.toJson)])
  | device op unit => .variant "Io" (.record [("op", .named op), ("unit", .natural unit)])
  | jump condition => .variant "Jump" (.named condition)
  | jumpRegister r test =>
    .variant "JumpRegister" (.record [("reg", .named r), ("test", .named test)])
  | transfer r kind => .variant "Transfer" (.record [("reg", .named r), ("kind", .named kind)])
  | compare r f => .variant "Compare" (registerAndField r f)

/-- Reads a record of two fields. -/
def pair? {α β : Type} (first second : String) (readFirst : Json → Option α)
    (readSecond : Json → Option β) (v : Json) : Option (α × β) :=
  match v.fields? [first, second] with
  | some [some a, some b] => return (← readFirst a, ← readSecond b)
  | _ => none

/-- Reads a record of one field. -/
def single? {α : Type} (name : String) (read : Json → Option α) (v : Json) : Option α :=
  match v.fields? [name] with
  | some [some a] => read a
  | _ => none

/-- Reads a register and a field. -/
def registerAndField? (v : Json) : Option (Register × Field) :=
  pair? "reg" "field" Json.named? Field.ofJson? v

/-- Reads an operation with content. -/
def ofContent? (name : String) (v : Json) : Option Operation :=
  match name with
  | "Shift" => shift <$> v.named?
  | "Move" => move <$> single? "count" (Json.natural? byteLimit) v
  | "Load" => (fun (r, f) => load r f) <$> registerAndField? v
  | "LoadNeg" => (fun (r, f) => loadNegative r f) <$> registerAndField? v
  | "Store" => (fun (r, f) => store r f) <$> registerAndField? v
  | "StoreZero" => storeZero <$> single? "field" Field.ofJson? v
  | "Io" => (fun (op, unit) => device op unit) <$>
      pair? "op" "unit" Json.named? (Json.natural? byteLimit) v
  | "Jump" => jump <$> v.named?
  | "JumpRegister" => (fun (r, test) => jumpRegister r test) <$>
      pair? "reg" "test" Json.named? Json.named? v
  | "Transfer" => (fun (r, kind) => transfer r kind) <$>
      pair? "reg" "kind" Json.named? Json.named? v
  | "Compare" => (fun (r, f) => compare r f) <$> registerAndField? v
  | _ => do
    let kind ← Variants.ofName? name
    let f ← Field.ofJson? v
    return arithmetic kind f

/-- Reads an operation. A null may stand as the content of one without parts. -/
def ofJson? (v : Json) : Option Operation :=
  match v.variant? with
  | some ("Nop", none) | some ("Nop", some .null) => some nop
  | some ("Halt", none) | some ("Halt", some .null) => some halt
  | some (name, some content) => ofContent? name content
  | _ => none

end Operation

/-- An instruction by its parts. -/
def Instruction.toJson (instruction : Instruction) : Json :=
  .record [("address", instruction.address.toJson), ("index", .natural instruction.index),
    ("op", instruction.operation.toJson)]

/-- Reads an instruction. -/
def Instruction.ofJson? (v : Json) : Option Instruction :=
  match v.fields? ["address", "index", "op"] with
  | some [some address, some index, some op] =>
    return ⟨← Word.ofJson? address, ← index.natural? byteLimit, ← Operation.ofJson? op⟩
  | _ => none

/-! ## Register files -/

/-- A register file by its parts. -/
def Registers.toJson (rs : Registers) : Json :=
  .record [("a", rs.a.toJson), ("x", rs.x.toJson),
    ("i", .list (rs.i.toList.map Word.toJson)), ("j", rs.j.toJson), ("pc", .natural rs.pc),
    ("overflow", .bool rs.overflow), ("comparison", .nullable .named rs.comparison)]

/-- Reads the six index registers. -/
def Registers.indexRegisters? (v : Json) : Option (Vector Word 6) := do
  let ws ← v.list? Word.ofJson?
  if h : ws.length = 6 then some ⟨ws.toArray, by simpa using h⟩ else none

/-- Reads a register file. The comparison indicator may be missing from an object,
and is unset then. -/
def Registers.ofJson? (v : Json) : Option Registers :=
  match v.fields? ["a", "x", "i", "j", "pc", "overflow", "comparison"] with
  | some [some a, some x, some i, some j, some pc, some overflow, comparison] =>
    return ⟨← Word.ofJson? a, ← Word.ofJson? x, ← Registers.indexRegisters? i, ← Word.ofJson? j,
      ← pc.natural? addressLimit, ← overflow.bool?,
      ← (comparison.getD .null).nullable? Json.named?⟩
  | _ => none

/-! ## Images -/

/-- An image by its start and its words, each with its address in front. -/
def Image.toJson (image : Image) : Json :=
  .record [("start", .natural image.start),
    ("cells", .list (image.cells.map fun (a, w) => .list [.natural a, w.toJson]))]

/-- Reads an address and its word. -/
def Image.cell? : Json → Option (Nat × Word)
  | .list [a, w] => return (← a.natural? addressLimit, ← Word.ofJson? w)
  | _ => none

/-- Reads an image, in memory or not. -/
def Image.ofJson? (v : Json) : Option Image :=
  match v.fields? ["start", "cells"] with
  | some [some start, some cells] =>
    return ⟨← start.natural? addressLimit, ← cells.list? Image.cell?⟩
  | _ => none

end MixMachine
