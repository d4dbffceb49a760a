import MixMachine.Json.Value
import MixMachine.Text.Decimal

/-!
# Writing documents

A document is written compactly, without white space, or over several lines,
with two blanks of indent for each list or object around a value and one item or
member on a line. An empty list or object is written without a line break in
both forms.
-/

namespace MixMachine.Json

/-- A character as it stands in a written string. -/
def escapeChar (c : Char) : List Char :=
  if c = '"' then ['\\', '"']
  else if c = '\\' then ['\\', '\\']
  else if c = '\n' then ['\\', 'n']
  else if c = '\r' then ['\\', 'r']
  else if c = '\t' then ['\\', 't']
  else if c = '\x08' then ['\\', 'b']
  else if c = '\x0c' then ['\\', 'f']
  else if c.toNat < 0x20 then
    ['\\', 'u', '0', '0', Nat.digitChar (c.toNat / 16), Nat.digitChar (c.toNat % 16)]
  else [c]

/-- A written string. -/
def writeString (s : String) : List Char :=
  '"' :: s.toList.flatMap escapeChar ++ ['"']

/-- A written string that may be no text. -/
def writeText : Option String → List Char
  | some s => writeString s
  | none => writeString ""

/-- A value that holds no other. -/
def writeScalar : Json → List Char
  | bool true => ['t', 'r', 'u', 'e']
  | bool false => ['f', 'a', 'l', 's', 'e']
  | natural n => Decimal.digits n
  | string s => writeText s
  | _ => ['n', 'u', 'l', 'l']

/-- How the parts of a document are kept apart: what stands behind a bracket that
opens at a depth, between the parts, in front of the bracket that closes, and
between a key and its value. -/
structure Layout where
  /-- What stands in front of a part at a depth. -/
  lineBreak : Nat → List Char
  /-- What stands between a key and its value. -/
  colon : List Char

/-- No white space. -/
def Layout.compact : Layout :=
  ⟨fun _ => [], [':']⟩

/-- A line for each part, indented by two blanks for each depth. -/
def Layout.lines : Layout :=
  ⟨fun depth => '\n' :: List.replicate (2 * depth) ' ', [':', ' ']⟩

/-- The written parts between brackets. -/
def bracket (layout : Layout) (depth : Nat) (opening closing : Char) (parts : List (List Char)) :
    List Char :=
  if parts.isEmpty then [opening, closing]
  else
    opening :: layout.lineBreak (depth + 1) ++
      List.intercalate (',' :: layout.lineBreak (depth + 1)) parts ++
      layout.lineBreak depth ++ [closing]

mutual

/-- A document that stands at a depth. -/
def write (layout : Layout) (depth : Nat) : Json → List Char
  | list items => bracket layout depth '[' ']' (writeItems layout (depth + 1) items)
  | object members => bracket layout depth '{' '}' (writeMembers layout (depth + 1) members)
  | v => writeScalar v

/-- The items of a list. -/
def writeItems (layout : Layout) (depth : Nat) : List Json → List (List Char)
  | [] => []
  | v :: items => write layout depth v :: writeItems layout depth items

/-- The members of an object. -/
def writeMembers (layout : Layout) (depth : Nat) :
    List (Option String × Json) → List (List Char)
  | [] => []
  | (key, v) :: members =>
    (writeText key ++ layout.colon ++ write layout depth v) :: writeMembers layout depth members

end

/-- The document without white space. -/
def compact (v : Json) : String :=
  String.ofList (write .compact 0 v)

/-- The document over several lines. -/
def pretty (v : Json) : String :=
  String.ofList (write .lines 0 v)

end MixMachine.Json
