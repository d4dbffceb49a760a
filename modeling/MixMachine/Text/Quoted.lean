import MixMachine.Text.Printable

/-!
# Quoted text

How a message quotes a text that it could not read. The text stands between
double quotes. A quote, a backslash, a tab, a line feed, a carriage return and a
null have an escape of two characters, any other character that is not printable
is written by its code point in lower-case hexadecimal between braces, and all
else stands as it is, a single quote included.
-/

namespace MixMachine.Text

/-- A character as it stands inside quotes. -/
def quoteChar (c : Char) : List Char :=
  if c = '"' then ['\\', '"']
  else if c = '\\' then ['\\', '\\']
  else if c = '\t' then ['\\', 't']
  else if c = '\n' then ['\\', 'n']
  else if c = '\r' then ['\\', 'r']
  else if c = '\x00' then ['\\', '0']
  else if isPrintable c then [c]
  else ['\\', 'u', '\x7b'] ++ Nat.toDigits 16 c.toNat ++ ['\x7d']

/-- The text between double quotes, with escapes. -/
def quoted (cs : List Char) : String :=
  String.ofList ('"' :: cs.flatMap quoteChar ++ ['"'])

end MixMachine.Text
