import MixMachine.Image.Basic
import MixMachine.Word.Text

/-!
# The written form of images

An image is written line by line:

```text
; comment
START 3000
3000 + 31 16 00 05 08
3001 -12345
```

A semicolon starts a comment. A line that holds more is either `START`, in
letters of any case, with the address to start at, or an address and the word to
place there. The last start counts; without one the start is 0. Reading ends at
the first line that is wrong.
-/

namespace MixMachine.Image

/-! ## Reading -/

/-- What a line says. -/
inductive Line where
  | blank
  | start (address : Nat)
  | cell (address : Nat) (word : Word)
  deriving DecidableEq

/-- Reads an address of a cell. -/
def readAddress (line : Nat) (cs : List Char) : Except ImageError Nat :=
  match Decimal.signed? cs with
  | none => .error (.parse line s!"expected an address, found {Text.quoted cs}")
  | some v =>
    if 0 ≤ v ∧ v < memorySize then .ok v.toNat else .error (.addressOutOfRange line v)

/-- Reads a word. -/
def readWord (line : Nat) (cs : List Char) : Except ImageError Word :=
  match Word.parse cs with
  | .ok w => .ok w
  | .error e => .error (.parse line e.message)

/-- Reads the line with a number. -/
def readLine (line : Nat) (cs : List Char) : Except ImageError Line :=
  let content := Text.trim (Text.beforeComment cs)
  if content = [] then .ok .blank
  else
    let (first, rest) := Text.headAndRest content
    if first.map Char.toUpper = ['S', 'T', 'A', 'R', 'T'] then
      .start <$> readAddress line rest
    else do
      let a ← readAddress line first
      let w ← readWord line rest
      return .cell a w

/-- Reads lines, the first of which has a number. -/
def readLines (number : Nat) : List (List Char) → Except ImageError (List Line)
  | [] => .ok []
  | cs :: rest => do
    let line ← readLine number cs
    let lines ← readLines (number + 1) rest
    return line :: lines

/-- The start address that a line gives. -/
def Line.start? : Line → Option Nat
  | .start a => some a
  | _ => none

/-- The address and the word that a line gives. -/
def Line.cell? : Line → Option (Nat × Word)
  | .cell a w => some (a, w)
  | _ => none

/-- The image that lines describe. -/
def ofLines (lines : List Line) : Image :=
  ⟨(lines.filterMap Line.start?).getLast?.getD 0, lines.filterMap Line.cell?⟩

/-- Reads an image from its written form. -/
def parse (text : String) : Except ImageError Image :=
  ofLines <$> readLines 1 (Text.lines text.toList)

/-! ## Writing -/

/-- The line of a cell. -/
def cellText (c : Nat × Word) : String :=
  Decimal.padded 4 c.1 ++ " " ++ c.2.text ++ "\n"

/-- The image in its written form, with the number of its words in a comment. -/
def text (image : Image) : String :=
  "; MIX program image, " ++ Decimal.natural image.cells.length ++ " cells\n" ++
    "START " ++ Decimal.natural image.start ++ "\n" ++
    String.join (image.cells.map cellText)

end MixMachine.Image
