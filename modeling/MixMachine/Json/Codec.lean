import MixMachine.Json.Value
import MixMachine.Variants

/-!
# Records, variants and numbers in documents

How the values of this library stand in a document, and how they are read from
one. A record is an object with a member for each of its fields; unknown members
are ignored, and the fields may also stand in a list in their order. A variant
without content is its name; one with content is an object with its name as the
only key. Numbers are natural and in range.
-/

namespace MixMachine.Json

/-! ## Reading -/

/-- A natural number of at most `limit`. -/
def natural? (limit : Nat) : Json → Option Nat
  | natural n => if n ≤ limit then some n else none
  | _ => none

/-- A truth value. -/
def bool? : Json → Option Bool
  | bool b => some b
  | _ => none

/-- A list of values of one kind. -/
def list? {α : Type} (read : Json → Option α) : Json → Option (List α)
  | list items => items.mapM read
  | _ => none

/-- A value that may be null. -/
def nullable? {α : Type} (read : Json → Option α) : Json → Option (Option α)
  | null => some none
  | v => (read v).map some

/-- The member with a key. A key that occurs twice is an error, and a key that
does not occur has no member. -/
def member? (members : List (Option String × Json)) (key : String) : Option (Option Json) :=
  match members.filter fun m => m.1 == some key with
  | [] => some none
  | [m] => some (some m.2)
  | _ => none

/-- The fields of a record, in the order of their names: the items of a list of
just as many, or members of an object, where a field may be missing. Every key of
the object must be text. -/
def fields? (names : List String) : Json → Option (List (Option Json))
  | list items => if items.length = names.length then some (items.map some) else none
  | object members =>
    if members.all fun m => m.1.isSome then names.mapM (member? members) else none
  | _ => none

/-- The name of a variant, and its content when it is written as an object. -/
def variant? : Json → Option (String × Option Json)
  | string (some name) => some (name, none)
  | object [(some name, content)] => some (name, some content)
  | _ => none

/-- A variant of a family without contents. A null may stand as its content. -/
def named? {α : Type} [Variants α] (v : Json) : Option α :=
  match variant? v with
  | some (name, none) | some (name, some .null) => Variants.ofName? name
  | _ => none

/-! ## Writing -/

/-- Text. -/
def text (s : String) : Json :=
  string (some s)

/-- A record, by the names and the values of its fields. -/
def record (fields : List (String × Json)) : Json :=
  object (fields.map fun (name, v) => (some name, v))

/-- A variant with content. -/
def variant (name : String) (content : Json) : Json :=
  record [(name, content)]

/-- A variant of a family without contents. -/
def named {α : Type} [Variants α] (v : α) : Json :=
  text (Variants.name v)

/-- A value or null. -/
def nullable {α : Type} (write : α → Json) : Option α → Json
  | none => null
  | some v => write v

end MixMachine.Json
