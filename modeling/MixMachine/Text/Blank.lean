/-!
# Blanks and words of a text

White space is the Unicode property White_Space: twenty-five code points, so the
no-break space and the ideographic space are white space and the zero-width
space is not. A text splits at white space into its words, and a line feed ends
each of its lines.
-/

namespace MixMachine.Text

/-- The code points with the Unicode property White_Space. -/
def blanks : List Nat :=
  [0x09, 0x0A, 0x0B, 0x0C, 0x0D, 0x20, 0x85, 0xA0, 0x1680, 0x2000, 0x2001, 0x2002, 0x2003,
    0x2004, 0x2005, 0x2006, 0x2007, 0x2008, 0x2009, 0x200A, 0x2028, 0x2029, 0x202F, 0x205F,
    0x3000]

/-- Whether a character is white space. -/
def isBlank (c : Char) : Bool :=
  blanks.contains c.toNat

/-! ## Trimming and splitting -/

/-- The text without the white space at its front. -/
def trimLeft (cs : List Char) : List Char :=
  cs.dropWhile isBlank

/-- The text without the white space at its end. -/
def trimRight (cs : List Char) : List Char :=
  (cs.reverse.dropWhile isBlank).reverse

/-- The text without the white space at both ends. -/
def trim (cs : List Char) : List Char :=
  trimRight (trimLeft cs)

/-- Prepends a character to the first word of a list of words. -/
def consFirst (c : Char) : List (List Char) → List (List Char)
  | [] => [[c]]
  | w :: ws => (c :: w) :: ws

/-- The pieces of a text between its separators, the empty pieces included: one
more than there are separators. -/
def splitAt (isSeparator : Char → Bool) : List Char → List (List Char)
  | [] => [[]]
  | c :: cs =>
    if isSeparator c then [] :: splitAt isSeparator cs
    else consFirst c (splitAt isSeparator cs)

/-- The words of a text: its maximal runs without white space, in order. -/
def words (cs : List Char) : List (List Char) :=
  (splitAt isBlank cs).filter (· ≠ [])

/-- The first word of a text that starts without white space, and the trimmed
rest behind it. -/
def headAndRest (cs : List Char) : List Char × List Char :=
  (cs.takeWhile (!isBlank ·), trim (cs.dropWhile (!isBlank ·)))

/-! ## Lines -/

/-- The lines of a text. A line feed ends a line; the text behind the last line
feed is one more line when it is not empty. A carriage return in front of a line
feed stays in the line, where it is white space at its end. -/
def lines (cs : List Char) : List (List Char) :=
  let pieces := splitAt (· == '\n') cs
  if pieces.getLast? = some [] then pieces.dropLast else pieces

/-- The part of a line in front of its first semicolon. -/
def beforeComment (line : List Char) : List Char :=
  line.takeWhile (· ≠ ';')

end MixMachine.Text
