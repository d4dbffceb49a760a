/-!
# Families of variants

Several parts of an instruction choose one of a few named variants by a small
number: the kind of a shift, the condition of a jump, the device operation. A
family lists its variants in the order of their numbers, from 0.
-/

namespace MixMachine

/-- A finite family of named variants. -/
class Variants (α : Type) where
  /-- The variants in the order of their numbers. -/
  all : List α
  /-- The name a variant has in records and documents. -/
  name : α → String

namespace Variants

variable {α : Type} [Variants α]

/-- The variant with a number, when there is one. -/
def ofNumber? (n : Nat) : Option α :=
  (all : List α)[n]?

/-- The number of a variant. -/
def number [DecidableEq α] (v : α) : Nat :=
  (all : List α).idxOf v

/-- The variant with a name, when there is one. -/
def ofName? (s : String) : Option α :=
  (all : List α).find? fun v => name v == s

end Variants

end MixMachine
