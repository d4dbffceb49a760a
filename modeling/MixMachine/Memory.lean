import MixMachine.Word.Basic

/-!
# Memory

Memory has 4000 cells, at the addresses 0 to 3999, each holding a word. Every
access is checked: an address outside memory is an error and is never wrapped.

Addresses are reckoned in 64 bits, and a sum that has no room there wraps round.
So the end of a block that is long enough comes out below its start, and the
accesses between the two then fail.

An error names an address as a signed 64-bit integer. An address of 64 bits
given without a sign is wrapped to that range, except in the loading of a run of
words, where it is capped.
-/

namespace MixMachine

/-- The number of cells. -/
def memorySize : Nat := 4000

/-- The cells of the machine. -/
structure Memory where
  cells : Vector Word memorySize
  deriving DecidableEq

/-- Why an access to memory failed. -/
inductive MemoryError where
  /-- The address is not one of a cell. -/
  | addressOutOfRange (address : Int)
  /-- The words are too many for the cells from their start on. -/
  | programTooLarge (size available : Nat)
  deriving DecidableEq

namespace MemoryError

/-- What a user is told. -/
def message : MemoryError → String
  | addressOutOfRange a => s!"memory address {Decimal.integer a} out of range (0-3999)"
  | programTooLarge size available =>
    s!"program size {Decimal.natural size} exceeds available space {Decimal.natural available}"

end MemoryError

namespace Memory

/-- Every cell holds zero. -/
def zeros : Memory :=
  ⟨Vector.replicate memorySize .zero⟩

/-! ## Addresses -/

/-- A number wrapped to the signed numbers of 64 bits. -/
def wrap64 (v : Int) : Int :=
  Int.bmod v 0x10000000000000000

/-- A number of 64 bits read as a signed one. -/
def signed64 (n : Nat) : Int :=
  wrap64 n

/-- The cell at a signed address. -/
def index (address : Int) : Except MemoryError Nat :=
  if 0 ≤ address ∧ address < memorySize then .ok address.toNat
  else .error (.addressOutOfRange address)

/-- The address of the last of `length` cells from a signed address on, as signed
numbers of 64 bits add up. A length that is no number of 64 bits is added as it
is. -/
def lastAddress (start : Int) (length : Nat) : Int :=
  if length < 0x10000000000000000 then wrap64 (start + length - 1) else start + length - 1

/-- The cells `first` up to `stop`, the end excluded, of a block that has `length`
cells from a signed address on. The start is checked first, also of an empty
block, then the last cell. Both the last cell and the end are reckoned in 64
bits. -/
def block (start : Int) (length : Nat) : Except MemoryError (Nat × Nat) := do
  let first ← index start
  if length > 0 then
    let _ ← index (lastAddress start length)
  return (first, (first + length) % 0x10000000000000000)

/-- The end of a block wraps round: it starts in memory, but is so long that its
end has no room in 64 bits, and its last cell seems to lie in front of its first. -/
def BlockWraps (start : Int) (length : Nat) : Prop :=
  0 ≤ start ∧ start < memorySize ∧ length < 0x10000000000000000 ∧
    0x10000000000000000 < start + length

instance {start : Int} {length : Nat} : Decidable (BlockWraps start length) :=
  inferInstanceAs (Decidable (_ ∧ _ ∧ _ ∧ _))

/-! ## Single cells -/

/-- The word in a cell, for an address that is in memory. An address outside
holds zero. -/
def cell (m : Memory) (a : Nat) : Word :=
  m.cells[a]?.getD .zero

/-- Reads a cell. -/
def read (m : Memory) (a : Nat) : Except MemoryError Word :=
  if h : a < memorySize then .ok m.cells[a]
  else .error (.addressOutOfRange (signed64 a))

/-- Replaces the word in a cell. Outside memory nothing happens. -/
def put (m : Memory) (a : Nat) (w : Word) : Memory :=
  ⟨m.cells.setIfInBounds a w⟩

/-- Writes a cell. -/
def write (m : Memory) (a : Nat) (w : Word) : Except MemoryError Memory :=
  if a < memorySize then .ok (m.put a w)
  else .error (.addressOutOfRange (signed64 a))

/-! ## Runs of cells -/

/-- The words of `length` cells from `first` on. -/
def words (m : Memory) (first length : Nat) : List Word :=
  (m.cells.toList.drop first).take length

/-- Puts words into the cells from `first` on, one after the other. -/
def putWords (m : Memory) (first : Nat) : List Word → Memory
  | [] => m
  | w :: ws => (m.put first w).putWords (first + 1) ws

/-- The words of the cells from `first` up to `stop`, the end excluded. -/
def slice (m : Memory) (first stop : Nat) : Except MemoryError (List Word) :=
  if first ≤ stop ∧ stop ≤ memorySize then .ok (m.words first (stop - first))
  else .error (.addressOutOfRange (signed64 stop))

/-- Replaces the words of the cells from `first` up to `stop`, the end excluded,
by as many words. -/
def replace (m : Memory) (first stop : Nat) (ws : List Word) : Except MemoryError Memory :=
  if first ≤ stop ∧ stop ≤ memorySize then .ok (m.putWords first ws)
  else .error (.addressOutOfRange (signed64 stop))

/-- Puts one word into every cell from `first` up to `stop`, the end excluded. -/
def fill (m : Memory) (first stop : Nat) (w : Word) : Except MemoryError Memory :=
  if first ≤ stop ∧ stop ≤ memorySize then
    .ok (m.putWords first (List.replicate (stop - first) w))
  else .error (.addressOutOfRange (signed64 stop))

/-- Places words in the cells from `start` on. A start outside memory is an error
of the address, capped to a signed number of 64 bits, unless there is nothing to
place; a run that leaves memory is an error of the size. -/
def loadWords (m : Memory) (start : Nat) (ws : List Word) : Except MemoryError Memory :=
  if memorySize ≤ start ∧ ws ≠ [] then
    .error (.addressOutOfRange (min start 0x7FFFFFFFFFFFFFFF))
  else if start + ws.length ≤ memorySize then .ok (m.putWords start ws)
  else .error (.programTooLarge ws.length (memorySize - start))

/-- The cells from `start` on, at most `count` of them, with their addresses. The
end of memory ends the dump. -/
def dump (m : Memory) (start count : Nat) : List (Nat × Word) :=
  let stop := min (start + count) memorySize
  (List.range' start (stop - start)).map fun a => (a, m.cell a)

/-- The number of cells that hold neither zero. -/
def countNonZero (m : Memory) : Nat :=
  m.cells.toList.countP fun w => !w.isZero

/-- The size of memory and how much of it is in use. -/
def record (m : Memory) : String :=
  s!"Memory \x7b non_zero_cells: {Decimal.natural m.countNonZero}, " ++
    s!"total_cells: {Decimal.natural memorySize} \x7d"

/-! ## Reading after writing -/

/-- Within memory, reading finds the cell. -/
theorem read_eq (m : Memory) {a : Nat} (h : a < memorySize) : m.read a = .ok (m.cell a) := by
  simp only [read, cell, h, ↓reduceDIte, Vector.getElem?_eq_getElem, Option.getD_some]

/-- A cell that was replaced holds the new word. -/
theorem cell_put_self (m : Memory) {a : Nat} (h : a < memorySize) (w : Word) :
    (m.put a w).cell a = w := by
  simp only [cell, put, Vector.getElem?_setIfInBounds_self_of_lt h, Option.getD_some]

/-- Replacing a cell leaves the others alone. -/
theorem cell_put_of_ne (m : Memory) {a b : Nat} (h : a ≠ b) (w : Word) :
    (m.put a w).cell b = m.cell b := by
  simp only [cell, put, Vector.getElem?_setIfInBounds_ne h]

end Memory

end MixMachine
