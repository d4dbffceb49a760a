/-!
# Documents

The values of the document format in which images and machine parts are kept. A
document of this library holds no numbers but natural ones, so the value of any
other number is not kept. An object keeps its members in the order in which they
were written, and may have several with one key.

A string in a document may name half of a surrogate pair by an escape. Such a
string is no text, and stands here as `none`.
-/

namespace MixMachine

/-- A document. -/
inductive Json where
  | null
  | bool (b : Bool)
  /-- A number written with digits alone. -/
  | natural (n : Nat)
  /-- A number with a sign, a fraction or an exponent. -/
  | otherNumber
  | string (text : Option String)
  | list (items : List Json)
  | object (members : List (Option String × Json))
  deriving Inhabited

end MixMachine
