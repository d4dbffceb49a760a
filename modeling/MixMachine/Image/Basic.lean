import MixMachine.Memory

/-!
# Program images

A program image is what an assembler hands to the machine: the address to start
at, and words with the addresses to place them at, in order. An address may
occur more than once; the last word placed there stays.
-/

namespace MixMachine

/-- A program to load. -/
structure Image where
  start : Nat
  cells : List (Nat × Word)
  deriving DecidableEq

/-- Why an image could not be read. -/
inductive ImageError where
  /-- The file cannot be read, or is no text. -/
  | unreadableFile
  /-- The line is neither blank nor one of the two kinds. -/
  | parse (line : Nat) (message : String)
  /-- The address is not one of a cell. An image without lines names line 0. -/
  | addressOutOfRange (line : Nat) (address : Int)
  /-- The document is no image. -/
  | malformedDocument
  deriving DecidableEq

namespace ImageError

/-- What a user is told. -/
def message : ImageError → String
  | unreadableFile => "I/O error: the file cannot be read as text"
  | parse line message => s!"parse error on line {Decimal.natural line}: {message}"
  | addressOutOfRange line address =>
    s!"address {Decimal.integer address} out of range on line {Decimal.natural line}"
  | malformedDocument => "JSON error: the document is not a program image"

end ImageError

namespace Image

/-- An image whose addresses are all addresses of cells. -/
def InMemory (image : Image) : Prop :=
  image.start < memorySize ∧ ∀ c ∈ image.cells, c.1 < memorySize

/-- The first address of an image that is not one of a cell: those of the words
in order, then the start. -/
def firstOutside? (image : Image) : Option Nat :=
  (image.cells.map (·.1) ++ [image.start]).find? fun a => memorySize ≤ a

/-- The lowest and the highest address that a word is placed at. -/
def extent? (image : Image) : Option (Nat × Nat) :=
  let addresses := image.cells.map (·.1)
  match addresses.min?, addresses.max? with
  | some low, some high => some (low, high)
  | _, _ => none

/-- The words at `count` addresses from `first` on, zero where none is placed. -/
def words (image : Image) (first count : Nat) : List Word :=
  (image.cells.foldl
    (fun out (a, w) => if first ≤ a then out.setIfInBounds (a - first) w else out)
    (Array.replicate count Word.zero)).toList

/-- An image is in memory exactly when it has no address outside. -/
theorem firstOutside?_eq_none_iff (image : Image) :
    image.firstOutside? = none ↔ image.InMemory := by
  simp only [firstOutside?, InMemory, List.find?_eq_none, decide_eq_true_eq, Nat.not_le,
    List.mem_append, List.mem_map, List.mem_singleton]
  constructor
  · exact fun h => ⟨h _ (.inr rfl), fun c hc => h _ (.inl ⟨c, hc, rfl⟩)⟩
  · rintro ⟨hs, hc⟩ a (⟨c, hm, rfl⟩ | rfl)
    · exact hc c hm
    · exact hs

end Image

end MixMachine
