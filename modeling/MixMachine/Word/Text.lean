import MixMachine.Text.Blank
import MixMachine.Word.Basic

/-!
# The written form of words

A word is written as its sign and its five bytes, each with two digits:
`+ 31 16 00 05 08`. It is read from that form, with any amount of white space
between the parts and the sign apart from the first byte or not, or from a
signed decimal number. A text of one word of text is read as a number, a longer
one as a sign and bytes.
-/

namespace MixMachine.Word

/-- The sign and the five bytes. -/
def text (w : Word) : String :=
  String.ofList [w.sign.char] ++ String.join (w.bytes.map fun b => " " ++ Decimal.padded 2 b)

/-- The written form and the number it stands for, as a user inspects a word. -/
def record (w : Word) : String :=
  s!"Word({w.text} = {Decimal.integer w.value})"

/-- Reads one of the five bytes: an unsigned number of eight bits that fits six. -/
def parseByte (cs : List Char) : Except WordError Nat :=
  match Decimal.unsigned? 255 cs with
  | none => .error (.unreadable (String.ofList cs))
  | some b => if b > byteMax then .error (.invalidByte b) else .ok b

/-- Reads a sign and five bytes from a trimmed text. The text must start with the
sign; the count of bytes is checked before the bytes. -/
def parseBytes (cs : List Char) : Except WordError Word :=
  match cs with
  | [] => .error (.unreadable "")
  | c :: rest =>
    match Sign.ofChar? c with
    | none => .error (.unreadable (String.ofList cs))
    | some sign =>
      let fields := Text.words rest
      if fields.length = 5 then do
        let bytes ← fields.mapM parseByte
        return ofBytes sign bytes
      else .error (.wrongLength 5 fields.length)

/-- Reads a decimal number from a trimmed text. A zero with a minus sign in front
is negative zero. -/
def parseNumber (cs : List Char) : Except WordError Word :=
  match Decimal.signed? cs with
  | none => .error (.unreadable (String.ofList cs))
  | some v => do
    let w ← ofInt v
    return if v = 0 ∧ cs.head? = some '-' then w.negate else w

/-- Reads either form. White space at both ends is ignored. -/
def parse (cs : List Char) : Except WordError Word :=
  let cs := Text.trim cs
  if (Text.words cs).length > 1 then parseBytes cs else parseNumber cs

end MixMachine.Word
