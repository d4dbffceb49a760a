import Mathlib.Data.List.Nodup
import MixMachine.Instruction.Text
import MixMachine.Proofs.Encoding

/-!
# What a mnemonic names

A mnemonic names an operation up to its field, the count of a move and the unit of a
device. The outline of an operation is the operation without these parts. Finitely many
outlines have a code, and no two of them share a mnemonic.

* `Operation.mem_outlines`: the outlines of the operations that have a code.
* `Operation.outline_eq_of_mnemonic`: a mnemonic names one outline.
* `Operation.eq_of_outline`: an operation by its outline, its field and its number.
-/

namespace MixMachine

/-- The registers that an opcode can name are all but J. -/
theorem Register.mem_operands {r : Register} (h : r.offset? ≠ none) : r ∈ operands := by
  cases found : r.offset? with
  | none => exact absurd found h
  | some k => exact List.mem_of_getElem? (ofOffset?_of_offset? found)

namespace Operation

/-! ## Outlines -/

/-- The count of a move or the unit of a device. -/
def number? : Operation → Option Nat
  | move n | device _ n => some n
  | _ => none

/-- The operation with another field, if it has one, and another count or unit. -/
def refill (f : Field) (n : Nat) : Operation → Operation
  | arithmetic kind _ => arithmetic kind f
  | load r _ => load r f
  | loadNegative r _ => loadNegative r f
  | store r _ => store r f
  | storeZero _ => storeZero f
  | compare r _ => compare r f
  | move _ => move n
  | device op _ => device op n
  | op => op

/-- The operation on whole words, with 0 as its count or unit. -/
def outline (op : Operation) : Operation :=
  op.refill .full 0

variable {a b op : Operation}

/-- An operation is its outline with its own parts filled in. -/
theorem refill_outline (op : Operation) :
    op.outline.refill (op.field?.getD .full) (op.number?.getD 0) = op := by
  cases op <;> rfl

theorem eq_of_outline (outline : a.outline = b.outline) (field : a.field? = b.field?)
    (number : a.number? = b.number?) : a = b := by
  rw [← refill_outline a, ← refill_outline b, outline, field, number]

/-- The outlines of the operations on a register. -/
def registerOutlines (r : Register) : List Operation :=
  [load r .full, loadNegative r .full, store r .full, compare r .full] ++
    Variants.all.map (jumpRegister r) ++ Variants.all.map (transfer r)

/-- The outlines of the operations that have a code. -/
def outlines : List Operation :=
  [nop, halt, move 0, store .j .full, storeZero .full] ++
    Variants.all.map (arithmetic · .full) ++ Variants.all.map shift ++
    Variants.all.map (device · 0) ++ Variants.all.map jump ++
    Register.operands.flatMap registerOutlines

theorem mem_outlines_of_register {r : Register} (named : r.offset? ≠ none)
    (h : op ∈ registerOutlines r) : op ∈ outlines := by
  apply List.mem_append_right
  exact List.mem_flatMap.2 ⟨r, Register.mem_operands named, h⟩

theorem mem_outlines (coded : op.code? ≠ none) : op.outline ∈ outlines := by
  have named : ∀ {r : Register} {f : Nat → Nat × Nat}, r.offset?.map f ≠ none → r.offset? ≠ none :=
    fun coded => mt Option.map_eq_none_iff.2 coded
  cases op with
  | nop | halt | move n | storeZero f =>
      dsimp only [outline, refill]
      decide
  | arithmetic kind f =>
      dsimp only [outline, refill]
      cases kind <;> decide
  | shift kind => cases kind <;> decide
  | device op unit =>
      dsimp only [outline, refill]
      cases op <;> decide
  | jump condition => cases condition <;> decide
  | load r f | loadNegative r f | compare r f =>
      apply mem_outlines_of_register (named coded)
      apply List.mem_append_left _ (List.mem_append_left _ _)
      simp only [outline, refill, List.mem_cons, true_or, or_true]
  | store r f =>
      -- J has no place in a row, and its store is listed apart
      cases offset : r.offset? with
      | none =>
          cases Register.offset?_eq_none_iff.1 offset
          dsimp only [outline, refill]
          decide
      | some k =>
          apply mem_outlines_of_register (offset ▸ Option.some_ne_none k)
          apply List.mem_append_left _ (List.mem_append_left _ _)
          simp only [outline, refill, List.mem_cons, true_or, or_true]
  | jumpRegister r test =>
      have listed : test ∈ Variants.all := by cases test <;> decide
      apply mem_outlines_of_register (named coded)
      exact List.mem_append_left _ (List.mem_append_right _ (List.mem_map_of_mem listed))
  | transfer r kind =>
      have listed : kind ∈ Variants.all := by cases kind <;> decide
      apply mem_outlines_of_register (named coded)
      exact List.mem_append_right _ (List.mem_map_of_mem listed)

/-! ## Mnemonics -/

theorem mnemonic_outline (op : Operation) : op.outline.mnemonic = op.mnemonic := by
  cases op <;> rfl

theorem nodup_mnemonics : (outlines.map mnemonic).Nodup := by
  decide +kernel

/-- **A mnemonic names one outline.** -/
theorem outline_eq_of_mnemonic (codedA : a.code? ≠ none) (codedB : b.code? ≠ none)
    (same : a.mnemonic = b.mnemonic) : a.outline = b.outline := by
  rw [← mnemonic_outline a, ← mnemonic_outline b] at same
  exact List.inj_on_of_nodup_map nodup_mnemonics (mem_outlines codedA) (mem_outlines codedB) same

/-- Mnemonics are letters and digits. -/
theorem isAlphanum_of_mem_mnemonic (coded : op.code? ≠ none) {c : Char}
    (member : c ∈ op.mnemonic.toList) : c.isAlphanum = true := by
  have letters : outlines.all (fun op => op.mnemonic.toList.all Char.isAlphanum) = true := by
    decide +kernel
  rw [← mnemonic_outline op] at member
  exact List.all_eq_true.1 (List.all_eq_true.1 letters _ (mem_outlines coded)) c member

theorem notMem_mnemonic (coded : op.code? ≠ none) : ' ' ∉ op.mnemonic.toList := by
  intro member
  cases isAlphanum_of_mem_mnemonic coded member

/-! ## What the outline has in common with the operation -/

theorem field?_outline (op : Operation) : op.outline.field? = op.field?.map fun _ => .full := by
  cases op <;> rfl

theorem number?_outline (op : Operation) : op.outline.number? = op.number?.map fun _ => 0 := by
  cases op <;> rfl

/-- The opcode is that of the outline. -/
theorem opcode_outline (op : Operation) :
    op.outline.code?.map Prod.fst = op.code?.map Prod.fst := by
  cases op with
  | store r f => cases r <;> rfl
  | load r f | loadNegative r f | compare r f =>
      simp only [outline, refill, code?, Option.map_map, Function.comp_def]
  | _ => rfl

end Operation

end MixMachine
