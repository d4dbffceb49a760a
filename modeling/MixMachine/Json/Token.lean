import MixMachine.Json.Value

/-!
# Tokens of a document

The first half of reading a document: its characters make tokens. A token is a
bracket, a comma, a colon, a string, or a bare word, that is a run of any other
characters, which must be a number or one of the three literals.

The reader takes one character at a time, so what it makes of a text in two parts
is what it makes of the second part from where the first one left it.
-/

namespace MixMachine.Json

/-- The smallest parts of a document. -/
inductive Token where
  | openList
  | closeList
  | openObject
  | closeObject
  | comma
  | colon
  | string (text : Option String)
  /-- A number or a literal. -/
  | scalar (value : Json)

/-! ## Strings -/

/-- The text of code points, where two halves of a surrogate pair next to each
other make one character. A half that stands alone makes no text. -/
def decodeUnits : List Nat → Option (List Char)
  | [] => some []
  | u :: rest =>
    if 0xD800 ≤ u ∧ u < 0xE000 then
      match rest with
      | v :: rest' =>
        if u < 0xDC00 ∧ 0xDC00 ≤ v ∧ v < 0xE000 then
          (decodeUnits rest').map
            (Char.ofNat (0x10000 + 0x400 * (u - 0xD800) + (v - 0xDC00)) :: ·)
        else none
      | [] => none
    else (decodeUnits rest).map (Char.ofNat u :: ·)

/-- The character that an escape of two characters stands for. -/
def shortEscape? (c : Char) : Option Char :=
  if c = '"' ∨ c = '\\' ∨ c = '/' then some c
  else if c = 'b' then some '\x08'
  else if c = 'f' then some '\x0c'
  else if c = 'n' then some '\n'
  else if c = 'r' then some '\r'
  else if c = 't' then some '\t'
  else none

/-- The value of a hexadecimal digit of either case. -/
def hexDigit? (c : Char) : Option Nat :=
  if '0' ≤ c ∧ c ≤ '9' then some (c.toNat - '0'.toNat)
  else if 'a' ≤ c ∧ c ≤ 'f' then some (c.toNat - 'a'.toNat + 10)
  else if 'A' ≤ c ∧ c ≤ 'F' then some (c.toNat - 'A'.toNat + 10)
  else none

/-! ## Bare words -/

/-- The rest behind one or more digits. -/
def dropDigits? : List Char → Option (List Char)
  | c :: cs => if c.isDigit then some (cs.dropWhile Char.isDigit) else none
  | [] => none

/-- Whether a text is the fraction of a number, which may be missing, and the
exponent behind it, which may be missing too. -/
def isFractionAndExponent (cs : List Char) : Bool :=
  let exponent : List Char → Bool
    | [] => true
    | e :: cs =>
      (e == 'e' || e == 'E') &&
        dropDigits? (match cs with
          | '+' :: rest | '-' :: rest => rest
          | _ => cs) == some []
  match cs with
  | '.' :: rest => (dropDigits? rest).any exponent
  | _ => exponent cs

/-- Whether digits are written without superfluous zeros in front. -/
def isPlainDigits (cs : List Char) : Bool :=
  cs == ['0'] || (cs.head? != some '0' && !cs.isEmpty)

/-- The value of a bare word: a literal, or a number in the usual notation, where
only the minus sign may stand in front. -/
def scalar? (cs : List Char) : Option Json :=
  if cs = ['n', 'u', 'l', 'l'] then some .null
  else if cs = ['t', 'r', 'u', 'e'] then some (.bool true)
  else if cs = ['f', 'a', 'l', 's', 'e'] then some (.bool false)
  else
    let unsigned := if cs.head? = some '-' then cs.tail else cs
    let digits := unsigned.takeWhile Char.isDigit
    let rest := unsigned.dropWhile Char.isDigit
    if isPlainDigits digits && isFractionAndExponent rest then
      if digits = cs then some (.natural (Nat.ofDigitChars 10 digits 0)) else some .otherNumber
    else none

/-! ## One character at a time -/

/-- Where the reader of tokens is. -/
inductive TokenMode where
  /-- Between two tokens. -/
  | between
  /-- In a bare word; its characters so far, the last one first. -/
  | bare (word : List Char)
  /-- In a string; its code points so far, the last one first. -/
  | string (units : List Nat)
  /-- Behind a backslash in a string. -/
  | escape (units : List Nat)
  /-- In the four digits of a code point in a string, with `missing` digits still
  to come and the value of those read. -/
  | codePoint (units : List Nat) (missing value : Nat)

/-- The tokens read so far, the last one first, and where the reader is. -/
structure TokenReader where
  tokens : List Token
  mode : TokenMode

namespace TokenReader

/-- Nothing read. -/
def start : TokenReader := ⟨[], .between⟩

/-- Whether a character is white space in a document. -/
def isSpace (c : Char) : Bool :=
  c == ' ' || c == '\t' || c == '\n' || c == '\r'

/-- The token that a single character makes. -/
def punctuation? (c : Char) : Option Token :=
  if c = '[' then some .openList
  else if c = ']' then some .closeList
  else if c = '{' then some .openObject
  else if c = '}' then some .closeObject
  else if c = ',' then some .comma
  else if c = ':' then some .colon
  else none

/-- Ends the bare word that the reader is in, if it is in one. A string that has
not ended is an error. -/
def close (r : TokenReader) : Option (List Token) :=
  match r.mode with
  | .between => some r.tokens
  | .bare word => (scalar? word.reverse).map fun v => .scalar v :: r.tokens
  | _ => none

/-- Reads a character outside strings. -/
def stepOutside (r : TokenReader) (c : Char) : Option TokenReader :=
  if isSpace c then r.close.map fun ts => ⟨ts, .between⟩
  else if c = '"' then r.close.map fun ts => ⟨ts, .string []⟩
  else
    match punctuation? c with
    | some t => r.close.map fun ts => ⟨t :: ts, .between⟩
    | none =>
      match r.mode with
      | .bare word => some { r with mode := .bare (c :: word) }
      | _ => some { r with mode := .bare [c] }

/-- Reads a character. A string may hold no control character. -/
def step (r : TokenReader) (c : Char) : Option TokenReader :=
  match r.mode with
  | .between | .bare _ => r.stepOutside c
  | .string units =>
    if c = '"' then
      some ⟨.string ((decodeUnits units.reverse).map String.ofList) :: r.tokens, .between⟩
    else if c = '\\' then some { r with mode := .escape units }
    else if c.toNat < 0x20 then none
    else some { r with mode := .string (c.toNat :: units) }
  | .escape units =>
    if c = 'u' then some { r with mode := .codePoint units 4 0 }
    else (shortEscape? c).map fun e => { r with mode := .string (e.toNat :: units) }
  | .codePoint units missing value =>
    (hexDigit? c).map fun d =>
      let value := 16 * value + d
      if missing ≤ 1 then { r with mode := .string (value :: units) }
      else { r with mode := .codePoint units (missing - 1) value }

end TokenReader

/-- The tokens of a text. -/
def tokens? (cs : List Char) : Option (List Token) := do
  let r ← cs.foldlM TokenReader.step TokenReader.start
  let ts ← r.close
  return ts.reverse

end MixMachine.Json
