import MixMachine.Proofs.Actions
import MixMachine.Proofs.WordViews

/-!
# The state without bit 31

`Word.canonical` clears bit 31 of a word. This module clears it in every word of a
register file, of memory and of the buffers, and proves that everything an instruction
reads is the same there, and that everything it writes commutes with the clearing.
What builds a word anew gives a word without the bit, and what copies a word copies
it without the bit.

* `Field.insert_canonical`: what a store builds.
* `Registers.set_canonical` and the lemmas behind it: the changes of the register file.
* `Memory.put_canonical` and the lemmas behind it: the changes of memory.
-/

namespace MixMachine

/-! ## Words

Arithmetic works on numbers, signs and magnitudes. -/

namespace Word

variable (w : Word)

@[simp] theorem addUpTo_canonical (limit : Nat) (v : Word) :
    addUpTo limit w.canonical v = addUpTo limit w v := by
  simp only [addUpTo, value_canonical, sign_canonical]

theorem multiply_canonical (v : Word) : multiply w.canonical v = multiply w v := by
  simp only [multiply, sign_canonical, magnitude_canonical]

theorem divide_canonical (low divisor : Word) :
    divide w.canonical low.canonical divisor = divide w low divisor := by
  have dividend : doubleMagnitude w.canonical low.canonical = doubleMagnitude w low := by
    simp only [doubleMagnitude, magnitude_canonical]
  unfold divide
  rw [dividend, sign_canonical]

end Word

/-- A field shows nothing of bit 31. -/
@[simp] theorem Field.extract_canonical (f : Field) (w : Word) :
    f.extract w.canonical = f.extract w := by
  simp only [extract, Word.sign_canonical, Word.magnitude_canonical]

/-- The word that a store builds does not depend on bit 31, and has it clear. -/
@[simp] theorem Field.insert_canonical (f : Field) (w v : Word) :
    f.insert w.canonical v.canonical = (f.insert w v).canonical := by
  simp only [insert, Word.sign_canonical, Word.magnitude_canonical,
    Word.canonical_ofSignMagnitude]

@[simp] theorem Field.extract_negate_canonical (f : Field) (w : Word) :
    f.extract w.canonical.negate = f.extract w.negate := by
  simp only [extract, Word.sign_negate, Word.magnitude_negate, Word.sign_canonical,
    Word.magnitude_canonical]

/-- The decoder ignores bit 31. -/
theorem Instruction.decode_canonical (w : Word) : decode w.canonical = decode w := by
  simp only [decode, Word.byte_canonical, Field.extract_canonical]

/-! ## The register file -/

namespace Registers

variable (rs : Registers)

/-- The register file without bit 31. -/
def canonical : Registers :=
  { rs with
    a := rs.a.canonical
    x := rs.x.canonical
    i := rs.i.map Word.canonical
    j := rs.j.canonical }

@[simp] theorem get_canonical (r : Register) : rs.canonical.get r = (rs.get r).canonical := by
  cases r with
  | i k => exact Vector.getElem_map ..
  | _ => rfl

@[simp] theorem canonical_narrow (r : Register) (v : Word) :
    (narrow r v).canonical = narrow r v :=
  Word.canonical_ofSignMagnitude _ _

/-- A write narrows its value, which clears the bit. -/
@[simp] theorem set_canonical (r : Register) (v : Word) :
    rs.canonical.set r v = (rs.set r v).canonical := by
  cases r with
  | i k =>
      have kept : (narrow (.i k) v).canonical = narrow (.i k) v := canonical_narrow _ _
      simp only [set, canonical, Vector.map_set, kept]
  | _ => simp only [set, canonical, canonical_narrow]

@[simp] theorem latchOverflow_canonical (overflowed : Bool) :
    rs.canonical.latchOverflow overflowed = (rs.latchOverflow overflowed).canonical :=
  rfl

theorem arithmetic_canonical (kind : Arithmetic) (v : Word) :
    rs.canonical.arithmetic kind v = (rs.arithmetic kind v).canonical := by
  have a : rs.canonical.a = rs.a.canonical := rfl
  have x : rs.canonical.x = rs.x.canonical := rfl
  -- the operand is the same on both sides, so only A and X can differ
  cases kind with
  | add =>
      simp only [arithmetic, a, Word.add, Word.addUpTo_canonical, set_canonical,
        latchOverflow_canonical]
  | sub =>
      simp only [arithmetic, a, Word.subtract, Word.add, Word.addUpTo_canonical, set_canonical,
        latchOverflow_canonical]
  | mul => simp only [arithmetic, a, Word.multiply_canonical, set_canonical]
  | div =>
      unfold arithmetic
      rw [a, x, Word.divide_canonical]
      cases Word.divide rs.a rs.x v with
      | none => rfl
      | some halves => simp only [set_canonical]

/-- A shift takes the bytes apart and puts them together anew. -/
theorem shift_canonical (kind : Shift) (count : Nat) :
    rs.canonical.shift kind count = (rs.shift kind count).canonical := by
  have a : rs.canonical.a = rs.a.canonical := rfl
  have x : rs.canonical.x = rs.x.canonical := rfl
  simp only [shift, a, x, Word.bytes_canonical, Word.sign_canonical, set_canonical]
  split
  · rfl
  · rfl

theorem transfer_canonical (r : Register) (kind : Transfer) (ea : Word) :
    rs.canonical.transfer r kind ea = (rs.transfer r kind ea).canonical := by
  cases kind with
  | inc =>
      simp only [transfer, get_canonical, Word.addUpTo_canonical, set_canonical,
        latchOverflow_canonical]
  | dec =>
      simp only [transfer, get_canonical, Word.addUpTo_canonical, set_canonical,
        latchOverflow_canonical]
  | ent => simp only [transfer, set_canonical, latchOverflow_canonical]
  | enn => simp only [transfer, set_canonical, latchOverflow_canonical]

theorem compare_canonical (r : Register) (f : Field) (cell : Word) :
    rs.canonical.compare r f cell.canonical = (rs.compare r f cell).canonical := by
  simp only [compare, get_canonical, Field.extract_canonical]
  rfl

theorem link_canonical : rs.canonical.link = rs.link.canonical :=
  rs.set_canonical .j _

theorem afterTest_canonical (condition : Condition) :
    rs.canonical.afterTest condition = (rs.afterTest condition).canonical := by
  cases condition <;> rfl

theorem afterJump_canonical (condition : Condition) :
    rs.canonical.afterJump condition = (rs.afterJump condition).canonical := by
  unfold afterJump
  rw [afterTest_canonical, link_canonical]
  split
  · rfl
  · rfl

/-- The index register counts as a number. -/
theorem effectiveAddress_canonical (address : Word) (r? : Option Register) :
    rs.canonical.effectiveAddress address r? = rs.effectiveAddress address r? := by
  cases r? with
  | none => rfl
  | some r => simp only [effectiveAddress, get_canonical, Word.value_canonical]

end Registers

/-! ## Memory -/

namespace Memory

/-- Memory without bit 31. -/
def canonical (m : Memory) : Memory :=
  ⟨m.cells.map Word.canonical⟩

@[simp] theorem cell_canonical (m : Memory) (a : Nat) :
    m.canonical.cell a = (m.cell a).canonical := by
  unfold cell canonical
  rw [Vector.getElem?_map]
  cases m.cells[a]? with
  | none => exact Word.canonical_zero.symm
  | some w => rfl

@[simp] theorem put_canonical (m : Memory) (a : Nat) (w : Word) :
    m.canonical.put a w.canonical = (m.put a w).canonical := by
  unfold put canonical
  dsimp only
  rw [Vector.map_setIfInBounds]

theorem copy_canonical (m : Memory) (source target count : Nat) :
    m.canonical.copy source target count = (m.copy source target count).canonical := by
  induction count generalizing m source target with
  | zero => rfl
  | succ count ih =>
      rw [copy, cell_canonical, put_canonical, ih]
      rfl

theorem putWords_canonical (m : Memory) (first : Nat) (ws : List Word) :
    m.canonical.putWords first (ws.map Word.canonical) = (m.putWords first ws).canonical := by
  induction ws generalizing m first with
  | nil => rfl
  | cons w ws ih =>
      rw [List.map_cons, putWords, put_canonical, ih]
      rfl

theorem words_canonical (m : Memory) (first n : Nat) :
    m.canonical.words first n = (m.words first n).map Word.canonical := by
  unfold words canonical
  rw [Vector.toList_map, List.map_take, List.map_drop]

end Memory

/-! ## Buffers -/

/-- A buffer without bit 31. -/
def Buffer.canonical (b : Buffer) : Buffer :=
  { b with block := b.block.map Word.canonical }

theorem Buffer.length_block_canonical (b : Buffer) :
    b.canonical.block.length = b.block.length :=
  List.length_map _

namespace Devices

/-- The same devices without bit 31. -/
def canonical (ds : Devices Buffer) : Devices Buffer :=
  ⟨ds.slots.map (Option.map Buffer.canonical)⟩

@[simp] theorem get?_canonical (ds : Devices Buffer) (unit : Nat) :
    ds.canonical.get? unit = (ds.get? unit).map Buffer.canonical := by
  unfold get? canonical
  rw [Vector.getElem?_map]
  cases ds.slots[unit]? with
  | none => rfl
  | some slot => rfl

theorem find_canonical {ds : Devices Buffer} {unit : Nat} {b : Buffer}
    (found : ds.find unit = .ok b) : ds.canonical.find unit = .ok b.canonical := by
  rw [find_eq_ok_iff] at found ⊢
  rw [get?_canonical, found]
  rfl

theorem find_canonical_error {ds : Devices Buffer} {unit : Nat} {e : DeviceError}
    (absent : ds.find unit = .error e) : ds.canonical.find unit = .error e := by
  rw [find_eq_error_iff] at absent ⊢
  rw [get?_canonical, absent.1]
  exact ⟨rfl, absent.2⟩

theorem attach_canonical (ds : Devices Buffer) (unit : Nat) (b : Buffer) :
    ds.canonical.attach unit b.canonical = (ds.attach unit b).canonical := by
  unfold attach canonical
  dsimp only
  rw [Vector.map_setIfInBounds]
  rfl

end Devices

/-! ## The machine -/

/-- The machine without bit 31 in memory, registers and buffers. -/
def Machine.canonical (m : Machine Buffer) : Machine Buffer :=
  { m with
    registers := m.registers.canonical
    memory := m.memory.canonical
    devices := m.devices.canonical }

end MixMachine
