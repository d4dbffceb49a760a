import MixMachine.Variants
import MixMachine.Word.Basic

/-!
# Register names

The machine has an accumulator A, an extension X, six index registers I1 to I6
and a jump register J. A and X hold a whole word, the others a sign and two
bytes.

Eight opcodes of a family name the registers A, I1 to I6 and X by an offset of 0
to 7. J has no offset.
-/

namespace MixMachine

/-- A register. Index register `i k` is the one that the index byte `k + 1`
selects. -/
inductive Register where
  | a
  | i (k : Fin 6)
  | x
  | j
  deriving DecidableEq

/-- How much a register holds. -/
inductive Width where
  /-- A sign and five bytes. -/
  | full
  /-- A sign and two bytes. -/
  | half
  deriving DecidableEq

/-- The number of magnitudes that a register of this width can hold, from 0 on:
those of five bytes or those of two. -/
def Width.capacity : Width → Nat
  | .full => 0x40000000
  | .half => 0x1000

/-- The largest magnitude that a register of this width holds. -/
def Width.maxMagnitude (w : Width) : Nat :=
  w.capacity - 1

/-- The name of a width. -/
def Width.name : Width → String
  | .full => "Full"
  | .half => "Half"

namespace Register

/-- The first index register, which a move takes its target from. -/
abbrev i1 : Register := i ⟨0, by decide⟩

/-- The registers that an opcode family can name, in the order of their offsets. -/
def operands : List Register :=
  [a, i 0, i 1, i 2, i 3, i 4, i 5, x]

/-- The part of a mnemonic that names the register. -/
def suffix : Register → String
  | a => "A"
  | i k => Decimal.natural (k.val + 1)
  | x => "X"
  | j => "J"

/-- The name in records and documents, such as `A` and `I1`. -/
def name : Register → String
  | i k => "I" ++ Decimal.natural (k.val + 1)
  | r => r.suffix

/-- The name a user is shown, such as `rA` and `rI1`. -/
def text (r : Register) : String :=
  "r" ++ r.name

instance : Variants Register where
  all := operands ++ [j]
  name := name

theorem mem_all (r : Register) : r ∈ (Variants.all : List Register) := by
  cases r with
  | i k =>
    revert k
    decide
  | _ => decide

/-- The offset of a register in an opcode family. -/
def offset? : Register → Option Nat
  | a => some 0
  | i k => some (k.val + 1)
  | x => some 7
  | j => none

/-- The register at an offset of an opcode family. -/
def ofOffset? (n : Nat) : Option Register :=
  operands[n]?

/-- The index register that an index byte selects. Zero selects none. -/
def ofIndex? (n : Nat) : Option Register :=
  if h : 1 ≤ n ∧ n ≤ 6 then some (i ⟨n - 1, by omega⟩) else none

/-- How much a register holds. -/
def width : Register → Width
  | a | x => .full
  | i _ | j => .half

/-! ## Offsets -/

/-- An offset leads back to its register. -/
theorem ofOffset?_of_offset? {r : Register} {n : Nat} (h : r.offset? = some n) :
    ofOffset? n = some r := by
  cases r with
  | a => cases h; rfl
  | x => cases h; rfl
  | j => cases h
  | i k => cases h; revert k; decide

/-- A register leads back to its offset. -/
theorem offset?_of_ofOffset? {r : Register} {n : Nat} (h : ofOffset? n = some r) :
    r.offset? = some n := by
  have hn : n < 8 := (List.getElem?_eq_some_iff.1 h).1
  revert r
  revert n
  decide

end Register

end MixMachine
