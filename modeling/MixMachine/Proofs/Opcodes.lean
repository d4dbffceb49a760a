import MixMachine.Instruction.Code
import MixMachine.Proofs.Checks

/-!
# An operation that was decoded has its code back

`Operation.decode` reads an opcode and a modifier, and `Operation.code?` gives the
opcode and the modifier of an operation. This module proves that the second undoes
the first. A modifier that packs a field, one that numbers a variant and an opcode
whose place in its row names a register are each led back by a lemma of their own,
and the rows of opcodes are then taken one after the other.

* `Operation.code?_of_decode`: the code of a decoded operation is what it was decoded
  from. Only the opcode 0 has more than one modifier for one operation.
* `Instruction.of_decode`: the parts of a decoded instruction.
-/

namespace MixMachine

/-- Variants that are listed once each are numbered by their places. -/
theorem Variants.number_of_ofNumber? {α : Type} [Variants α] [DecidableEq α] {n : Nat} {v : α}
    (once : (Variants.all : List α).Nodup) (h : Variants.ofNumber? n = some v) :
    Variants.number v = n := by
  obtain ⟨short, rfl⟩ := List.getElem?_eq_some_iff.1 h
  exact once.idxOf_getElem n short

namespace Operation

variable {opcode modifier : Nat} {op : Operation}

/-! ## The parts of a code -/

theorem toByte_of_decodeField {f : Field} (h : decodeField opcode modifier = .ok f) :
    f.toByte = modifier := by
  unfold decodeField at h
  split at h
  · rename_i packed
    cases h
    exact Field.toByte_of_ofByte packed
  · cases h

theorem number_of_decodeVariant {α : Type} [Variants α] [DecidableEq α] {v : α}
    (once : (Variants.all : List α).Nodup) (h : decodeVariant opcode modifier = .ok v) :
    Variants.number v = modifier := by
  unfold decodeVariant at h
  split at h
  · rename_i numbered
    cases h
    exact Variants.number_of_ofNumber? once numbered
  · cases h

theorem offset?_of_decodeRegister {r : Register} (h : decodeRegister opcode = .ok r) :
    r.offset? = some (opcode % 8) := by
  unfold decodeRegister at h
  split at h
  · rename_i named
    cases h
    exact Register.offset?_of_ofOffset? named
  · cases h

/-- An operation that is made of the field of its modifier has its modifier back. -/
theorem code?_of_map_decodeField {make : Field → Operation} {c : Nat}
    (h : make <$> decodeField opcode modifier = .ok op)
    (code : ∀ f, (make f).code? = some (c, f.toByte)) : op.code? = some (c, modifier) := by
  obtain ⟨f, packed, rfl⟩ := map_eq_ok h
  rw [code, toByte_of_decodeField packed]

/-- An operation that is made of the variant of its modifier has its modifier back. -/
theorem code?_of_map_decodeVariant {α : Type} [Variants α] [DecidableEq α] {make : α → Operation}
    {c : Nat} (once : (Variants.all : List α).Nodup)
    (h : make <$> decodeVariant opcode modifier = .ok op)
    (code : ∀ v, (make v).code? = some (c, Variants.number v)) :
    op.code? = some (c, modifier) := by
  obtain ⟨v, numbered, rfl⟩ := map_eq_ok h
  rw [code, number_of_decodeVariant once numbered]

/-! ## The rows of opcodes -/

/-- In a row whose places name registers, the row and the place make up the opcode. -/
theorem code_of_row {r : Register} {base row : Nat} (named : r.offset? = some (opcode % 8))
    (place : opcode / 8 = row) (start : base = 8 * row) (b : Nat) :
    (r.offset?.map fun k => (base + k, b)) = some (opcode, b) := by
  rw [named, Option.map_some]
  have : base + opcode % 8 = opcode := by omega
  rw [this]

theorem code?_of_decodeFirstRow (h : decodeFirstRow opcode modifier = .ok op) :
    op.code? = some (opcode, if opcode = 0 then 0 else modifier) := by
  unfold decodeFirstRow at h
  split at h
  · cases h
    rfl
  · exact code?_of_map_decodeField h fun _ => rfl
  · exact code?_of_map_decodeField h fun _ => rfl
  · exact code?_of_map_decodeField h fun _ => rfl
  · exact code?_of_map_decodeField h fun _ => rfl
  · split at h
    · cases h
    · cases h
    · cases h
      rfl
    · cases h
  · exact code?_of_map_decodeVariant (by decide) h fun _ => rfl
  · cases h
    rfl
  · cases h

theorem code?_of_decodeFifthRow (h : decodeFifthRow opcode modifier = .ok op) :
    op.code? = some (opcode, modifier) := by
  unfold decodeFifthRow at h
  split at h
  · exact code?_of_map_decodeField h fun _ => rfl
  · exact code?_of_map_decodeField h fun _ => rfl
  · cases h
    rfl
  · cases h
    rfl
  · cases h
    rfl
  · cases h
    rfl
  · cases h
    rfl
  · exact code?_of_map_decodeVariant (by decide) h fun _ => rfl
  · cases h

/-- **The code of a decoded operation is what it was decoded from**, the modifier of
the opcode 0 apart, which chooses nothing. -/
theorem code?_of_decode (h : decode opcode modifier = .ok op) :
    op.code? = some (opcode, if opcode = 0 then 0 else modifier) := by
  unfold decode at h
  split at h
  case h_1 => exact code?_of_decodeFirstRow h
  case h_9 => cases h
  all_goals
    rename_i row
    have notNop : opcode ≠ 0 := by omega
    rw [if_neg notNop]
  case h_2 =>
      obtain ⟨r, f, named, packed, rfl⟩ := map_seq_eq_ok h
      rw [← toByte_of_decodeField packed]
      exact code_of_row (offset?_of_decodeRegister named) row rfl _
  case h_3 =>
      obtain ⟨r, f, named, packed, rfl⟩ := map_seq_eq_ok h
      rw [← toByte_of_decodeField packed]
      exact code_of_row (offset?_of_decodeRegister named) row rfl _
  case h_4 =>
      obtain ⟨r, f, named, packed, rfl⟩ := map_seq_eq_ok h
      have offset := offset?_of_decodeRegister named
      have place : Opcode.store + opcode % 8 = opcode := by
        have base : Opcode.store = 24 := rfl
        omega
      simp only [code?, offset, place, toByte_of_decodeField packed]
  case h_5 => exact code?_of_decodeFifthRow h
  case h_6 =>
      obtain ⟨r, test, named, numbered, rfl⟩ := map_seq_eq_ok h
      rw [← number_of_decodeVariant (by decide) numbered]
      exact code_of_row (offset?_of_decodeRegister named) row rfl _
  case h_7 =>
      obtain ⟨r, kind, named, numbered, rfl⟩ := map_seq_eq_ok h
      rw [← number_of_decodeVariant (by decide) numbered]
      exact code_of_row (offset?_of_decodeRegister named) row rfl _
  case h_8 =>
      obtain ⟨r, f, named, packed, rfl⟩ := map_seq_eq_ok h
      rw [← toByte_of_decodeField packed]
      exact code_of_row (offset?_of_decodeRegister named) row rfl _

/-! ## The field of a decoded operation -/

theorem valid_of_decodeField {f : Field} (h : decodeField opcode modifier = .ok f) : f.Valid := by
  unfold decodeField at h
  split at h
  · rename_i packed
    cases h
    exact Field.valid_of_ofBounds packed
  · cases h

/-- An operation that is made of the field of its modifier has that field. -/
theorem valid_of_map_decodeField {make : Field → Operation}
    (h : make <$> decodeField opcode modifier = .ok op)
    (field : ∀ f, (make f).field? = some f) : ∀ f ∈ op.field?, f.Valid := by
  obtain ⟨g, packed, rfl⟩ := map_eq_ok h
  rw [field]
  intro f same
  cases same
  exact valid_of_decodeField packed

/-- An operation that is made of a register and the field of its modifier has that field. -/
theorem valid_of_map_seq_decodeField {make : Register → Field → Operation}
    (h : make <$> decodeRegister opcode <*> decodeField opcode modifier = .ok op)
    (field : ∀ r f, (make r f).field? = some f) : ∀ f ∈ op.field?, f.Valid := by
  obtain ⟨r, g, -, packed, rfl⟩ := map_seq_eq_ok h
  rw [field]
  intro f same
  cases same
  exact valid_of_decodeField packed

theorem valid_of_decodeFirstRow (h : decodeFirstRow opcode modifier = .ok op) :
    ∀ f ∈ op.field?, f.Valid := by
  unfold decodeFirstRow at h
  split at h
  · cases h
    exact nofun
  · exact valid_of_map_decodeField h fun _ => rfl
  · exact valid_of_map_decodeField h fun _ => rfl
  · exact valid_of_map_decodeField h fun _ => rfl
  · exact valid_of_map_decodeField h fun _ => rfl
  · split at h <;> cases h
    exact nofun
  · obtain ⟨kind, -, rfl⟩ := map_eq_ok h
    exact nofun
  · cases h
    exact nofun
  · cases h

theorem valid_of_decodeFifthRow (h : decodeFifthRow opcode modifier = .ok op) :
    ∀ f ∈ op.field?, f.Valid := by
  unfold decodeFifthRow at h
  split at h
  · exact valid_of_map_decodeField h fun _ => rfl
  · exact valid_of_map_decodeField h fun _ => rfl
  case h_8 =>
      obtain ⟨condition, -, rfl⟩ := map_eq_ok h
      exact nofun
  all_goals
    cases h
    try exact nofun

/-- **The field of a decoded operation is valid.** -/
theorem valid_of_decode (h : decode opcode modifier = .ok op) : ∀ f ∈ op.field?, f.Valid := by
  unfold decode at h
  split at h
  · exact valid_of_decodeFirstRow h
  · exact valid_of_map_seq_decodeField h fun _ _ => rfl
  · exact valid_of_map_seq_decodeField h fun _ _ => rfl
  · exact valid_of_map_seq_decodeField h fun _ _ => rfl
  · exact valid_of_decodeFifthRow h
  · obtain ⟨r, test, -, -, rfl⟩ := map_seq_eq_ok h
    exact nofun
  · obtain ⟨r, kind, -, -, rfl⟩ := map_seq_eq_ok h
    exact nofun
  · exact valid_of_map_seq_decodeField h fun _ _ => rfl
  · cases h

end Operation

/-! ## Decoded instructions -/

theorem Operation.one_le_duration (op : Operation) : 1 ≤ op.duration := by
  fun_cases Operation.duration op <;> omega

namespace Instruction

variable {w : Word} {i : Instruction}

/-- The parts of a decoded instruction are the parts of its word. -/
theorem of_decode (h : decode w = .ok i) :
    w.byte 3 ≤ 6 ∧ i.address = Field.address.extract w ∧ i.index = w.byte 3 ∧
      Operation.decode (w.byte 5) (w.byte 4) = .ok i.operation := by
  unfold decode at h
  split at h
  · cases h
  · rename_i selector
    obtain ⟨op, decoded, rfl⟩ := map_eq_ok h
    exact ⟨Nat.not_lt.1 selector, rfl, rfl, decoded⟩

/-- A decoded instruction has the code that its word holds. -/
theorem code?_of_decode (h : decode w = .ok i) :
    i.operation.code? = some (w.byte 5, if w.byte 5 = 0 then 0 else w.byte 4) := by
  obtain ⟨-, -, -, decoded⟩ := of_decode h
  exact Operation.code?_of_decode decoded

theorem code?_ne_none_of_decode (h : decode w = .ok i) : i.operation.code? ≠ none := by
  rw [code?_of_decode h]
  exact Option.some_ne_none _

/-- The field of a decoded instruction is valid. -/
theorem valid_of_decode (h : decode w = .ok i) : ∀ f ∈ i.operation.field?, f.Valid := by
  obtain ⟨-, -, -, decoded⟩ := of_decode h
  exact Operation.valid_of_decode decoded

/-- The modifier of a decoded instruction is a byte. -/
theorem modifier_lt_of_decode (h : decode w = .ok i) {code : Nat × Nat}
    (coded : i.operation.code? = some code) : code.2 < 64 := by
  cases coded.symm.trans (code?_of_decode h)
  dsimp only
  split
  · decide
  · exact Nat.mod_lt _ (by decide)

/-- The count of a decoded move is a byte. -/
theorem count_lt_of_decode (h : decode w = .ok i) {count : Nat}
    (moves : i.operation = .move count) : count < 64 := by
  have coded : i.operation.code? = some (Opcode.move, count) := by
    rw [moves]
    rfl
  exact modifier_lt_of_decode h coded

/-- The longest instruction is the move of 63 words. -/
theorem duration_le_of_decode (h : decode w = .ok i) : i.operation.duration ≤ 127 := by
  cases op : i.operation with
  | move count =>
      have byte := count_lt_of_decode h op
      show 1 + 2 * count ≤ 127
      omega
  | arithmetic kind f => cases kind <;> exact Nat.le_of_ble_eq_true rfl
  | _ => exact Nat.le_of_ble_eq_true rfl

/-- The address part of a decoded instruction has two bytes. -/
theorem short_of_decode (h : decode w = .ok i) : i.address.magnitude < 0x1000 := by
  obtain ⟨-, address, -, -⟩ := of_decode h
  have capacity : Field.address.capacity = 0x1000 := rfl
  rw [address, Field.extract, Word.magnitude_ofSignMagnitude, capacity]
  omega

end Instruction

end MixMachine
