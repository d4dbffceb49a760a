import MixMachine.Json.Token

/-!
# Reading documents

The second half of reading a document: its tokens make a value. The reader takes
one token at a time and keeps a stack of the lists and objects that it is in, so
a document may be nested to any depth.
-/

namespace MixMachine.Json

/-- A list or an object that has not ended, with what it holds so far, the last
one first. -/
inductive Frame where
  | list (items : List Json)
  /-- An object in which the value of `key` is being read. -/
  | object (members : List (Option String × Json)) (key : Option String)

/-- What the reader waits for. -/
inductive Expected where
  /-- A value. -/
  | value
  /-- The first value of a list, or its end. -/
  | firstItem
  /-- The first key of an object, or its end. -/
  | firstKey
  /-- A key of an object with these members. -/
  | key (members : List (Option String × Json))
  /-- The colon behind a key. -/
  | colon (members : List (Option String × Json)) (key : Option String)
  /-- What comes behind a value that has been read. -/
  | next (value : Json)

/-- The lists and objects that the reader is in, the innermost first, and what it
waits for. -/
structure Reader where
  frames : List Frame
  expected : Expected

namespace Reader

/-- Nothing read. -/
def start : Reader := ⟨[], .value⟩

/-- Reads the first token of a value. -/
def stepValue (frames : List Frame) : Token → Option Reader
  | .scalar v => some ⟨frames, .next v⟩
  | .string s => some ⟨frames, .next (.string s)⟩
  | .openList => some ⟨frames, .firstItem⟩
  | .openObject => some ⟨frames, .firstKey⟩
  | _ => none

/-- Reads the token behind a value, which ends the innermost list or object or
leads to its next part. -/
def stepNext (v : Json) : List Frame → Token → Option Reader
  | .list items :: frames, .comma => some ⟨.list (v :: items) :: frames, .value⟩
  | .list items :: frames, .closeList => some ⟨frames, .next (.list (v :: items).reverse)⟩
  | .object members key :: frames, .comma => some ⟨frames, .key ((key, v) :: members)⟩
  | .object members key :: frames, .closeObject =>
    some ⟨frames, .next (.object ((key, v) :: members).reverse)⟩
  | _, _ => none

/-- Reads a token. -/
def step (r : Reader) (t : Token) : Option Reader :=
  match r.expected, t with
  | .value, t => stepValue r.frames t
  | .firstItem, .closeList => some ⟨r.frames, .next (.list [])⟩
  | .firstItem, t => stepValue (.list [] :: r.frames) t
  | .firstKey, .closeObject => some ⟨r.frames, .next (.object [])⟩
  | .firstKey, .string s => some ⟨r.frames, .colon [] s⟩
  | .key members, .string s => some ⟨r.frames, .colon members s⟩
  | .colon members key, .colon => some ⟨.object members key :: r.frames, .value⟩
  | .next v, t => stepNext v r.frames t
  | _, _ => none

/-- The value read, when nothing is left open. -/
def finish (r : Reader) : Option Json :=
  match r.frames, r.expected with
  | [], .next v => some v
  | _, _ => none

end Reader

/-- The document that a text holds, with nothing but white space around it. -/
def parse? (cs : List Char) : Option Json := do
  let ts ← tokens? cs
  let r ← ts.foldlM Reader.step Reader.start
  r.finish

end MixMachine.Json
