import Mathlib.Data.List.Basic
import MixMachine.Proofs.Bytes
import MixMachine.Proofs.Canonical
import MixMachine.Proofs.Opcodes

/-!
# Encoding and decoding are inverse

`Opcodes` leads the code of a decoded operation back to what it was decoded from. This
module adds the way from an operation to its code and back, and puts both together
with the packing of the four parts of an instruction into a word.

An operation has a code unless it names J outside the stores, and decodes from it when
its field is a checked one. A word packs its parts without loss when each of them fits,
and every word is packed from the parts that the decoder reads. The decoder skips two
things: bit 31, and the modifier of the opcode 0. `Instruction.significant` is a word
without them.

* `Operation.decode_of_code?`: an operation is decoded from its code.
* `Instruction.encode_eq_ok_iff`: which instructions have a word.
* `Instruction.decode_encode`, `Instruction.encode_of_decode`: both directions.
* `Instruction.encode_decode_inverse`: the two directions over the whole format.
-/

namespace MixMachine

/-! ## Variants and registers by number -/

/-- A variant that is listed is found by its number. -/
theorem Variants.ofNumber?_number {α : Type} [Variants α] [DecidableEq α] {v : α}
    (listed : v ∈ (Variants.all : List α)) : Variants.ofNumber? (Variants.number v) = some v :=
  List.getElem?_idxOf listed

/-- An offset is a place in a row of eight. -/
theorem Register.offset?_lt {r : Register} {k : Nat} (h : r.offset? = some k) : k < 8 := by
  have place := List.getElem?_eq_some_iff.1 (ofOffset?_of_offset? h)
  exact place.1

/-- Only J has no offset. -/
theorem Register.offset?_eq_none_iff {r : Register} : r.offset? = none ↔ r = .j := by
  cases r <;> simp only [offset?, reduceCtorEq]

namespace Operation

/-! ## From an operation to its code and back -/

/-- The register that an operation names by the place of its opcode. -/
def register? : Operation → Option Register
  | load r _ | loadNegative r _ | store r _ | jumpRegister r _ | transfer r _ | compare r _ =>
    some r
  | _ => none

/-- The operation names J and is no store. -/
def MisusesJ (op : Operation) : Prop :=
  op.register? = some .j ∧ ∀ f, op ≠ store .j f

/-- The number that stands in byte 4: the packed field, the count of a move, the unit of
a device, or the number of the variant. -/
def modifier : Operation → Nat
  | nop => 0
  | halt => haltModifier
  | arithmetic _ f | load _ f | loadNegative _ f | store _ f | storeZero f | compare _ f =>
    f.toByte
  | move n | device _ n => n
  | shift kind => Variants.number kind
  | jump condition => Variants.number condition
  | jumpRegister _ test => Variants.number test
  | transfer _ kind => Variants.number kind

variable {opcode m : Nat} {op : Operation}

theorem decodeField_toByte (opcode : Nat) {f : Field} (valid : f.Valid) :
    decodeField opcode f.toByte = .ok f := by
  rw [decodeField, Field.ofByte_toByte valid]

theorem decodeVariant_number {α : Type} [Variants α] [DecidableEq α] (opcode : Nat) {v : α}
    (listed : v ∈ (Variants.all : List α)) : decodeVariant opcode (Variants.number v) = .ok v := by
  rw [decodeVariant, Variants.ofNumber?_number listed]

theorem decodeRegister_of_offset? {r : Register} {row k : Nat} (named : r.offset? = some k) :
    decodeRegister (8 * row + k) = .ok r := by
  have short := Register.offset?_lt named
  have place : (8 * row + k) % 8 = k := by omega
  rw [decodeRegister, place, Register.ofOffset?_of_offset? named]

/-- The place in a row does not change the row. -/
theorem row_of_offset? {r : Register} {k : Nat} (named : r.offset? = some k) (row : Nat) :
    (8 * row + k) / 8 = row := by
  have short := Register.offset?_lt named
  omega

/-- **An operation is decoded from its code**, when its field is one. -/
theorem decode_of_code? (valid : ∀ f, op.field? = some f → f.Valid)
    (coded : op.code? = some (opcode, m)) : decode opcode m = .ok op := by
  -- in the rows of registers the opcode is the first of its row and the place of the register
  have row : ∀ (base : Nat) {r : Register} {n c : Nat},
      (r.offset?.map fun k => (8 * base + k, n)) = some (opcode, c) →
      opcode / 8 = base ∧ decodeRegister opcode = .ok r ∧ c = n := by
    intro base r n c mapped
    obtain ⟨k, named, pair⟩ := Option.map_eq_some_iff.1 mapped
    cases pair
    exact ⟨row_of_offset? named base, decodeRegister_of_offset? named, rfl⟩
  cases op with
  | nop => cases coded; rfl
  | halt => cases coded; rfl
  | move count => cases coded; rfl
  | arithmetic kind f =>
      cases coded
      have field := fun opcode => decodeField_toByte opcode (valid f rfl)
      cases kind with
      | add => exact congrArg (arithmetic .add <$> ·) (field 1)
      | sub => exact congrArg (arithmetic .sub <$> ·) (field 2)
      | mul => exact congrArg (arithmetic .mul <$> ·) (field 3)
      | div => exact congrArg (arithmetic .div <$> ·) (field 4)
  | shift kind =>
      cases coded
      have variant := decodeVariant_number Opcode.shift (v := kind) (by cases kind <;> decide)
      exact congrArg (shift <$> ·) variant
  | jump condition =>
      cases coded
      have variant := decodeVariant_number Opcode.jump (v := condition)
        (by cases condition <;> decide)
      exact congrArg (jump <$> ·) variant
  | device op unit =>
      cases coded
      cases op <;> rfl
  | storeZero f =>
      cases coded
      exact congrArg (storeZero <$> ·) (decodeField_toByte Opcode.storeZero (valid f rfl))
  | load r f =>
      obtain ⟨place, named, rfl⟩ := row 1 coded
      rw [decode, place, named, decodeField_toByte opcode (valid f rfl)]
      rfl
  | loadNegative r f =>
      obtain ⟨place, named, rfl⟩ := row 2 coded
      rw [decode, place, named, decodeField_toByte opcode (valid f rfl)]
      rfl
  | store r f =>
      have field := fun opcode => decodeField_toByte opcode (valid f rfl)
      cases named : r.offset? with
      | none =>
          cases Register.offset?_eq_none_iff.1 named
          cases coded
          exact congrArg (store .j <$> ·) (field Opcode.storeJump)
      | some k =>
          have code : (store r f).code? = some (8 * 3 + k, f.toByte) := by
            simp only [code?, named, Opcode.store]
          cases coded.symm.trans code
          rw [decode, row_of_offset? named 3, decodeRegister_of_offset? named, field]
          rfl
  | jumpRegister r test =>
      obtain ⟨place, named, rfl⟩ := row 5 coded
      have variant := decodeVariant_number opcode (v := test) (by cases test <;> decide)
      rw [decode, place, named, variant]
      rfl
  | transfer r kind =>
      obtain ⟨place, named, rfl⟩ := row 6 coded
      have variant := decodeVariant_number opcode (v := kind) (by cases kind <;> decide)
      rw [decode, place, named, variant]
      rfl
  | compare r f =>
      obtain ⟨place, named, rfl⟩ := row 7 coded
      rw [decode, place, named, decodeField_toByte opcode (valid f rfl)]
      rfl

/-! ## Which operations have a code -/

/-- An operation has no code exactly when it names J and is no store. -/
theorem code?_eq_none_iff : op.code? = none ↔ op.MisusesJ := by
  -- outside the stores the code is that of the place of the register
  have named : ∀ {r : Register} {f : Nat → Nat × Nat},
      r.offset?.map f = none ↔ some r = some .j := by
    intro r f
    rw [Option.map_eq_none_iff, Register.offset?_eq_none_iff, Option.some_inj]
  cases op with
  | load r f | loadNegative r f | jumpRegister r test | transfer r kind | compare r f =>
      simp only [code?, MisusesJ, register?, named, reduceCtorEq, ne_eq, not_false_eq_true,
        implies_true, and_true]
  | store r f =>
      constructor
      · intro uncoded
        cases r <;> cases uncoded
      · rintro ⟨names, noStore⟩
        cases names
        exact absurd rfl (noStore f)
  | _ => simp only [code?, MisusesJ, register?, reduceCtorEq, false_and]

/-- The code of an operation has its modifier. -/
theorem modifier_of_code? {code : Nat × Nat} (coded : op.code? = some code) :
    code.2 = op.modifier := by
  cases op with
  | load r f | loadNegative r f | jumpRegister r test | transfer r kind | compare r f =>
      obtain ⟨k, -, rfl⟩ := Option.map_eq_some_iff.1 coded
      rfl
  | store r f => cases r <;> cases coded <;> rfl
  | _ =>
      cases coded
      rfl

/-- An opcode that decodes stands in one of the eight rows. -/
theorem opcode_lt_of_decode (h : decode opcode m = .ok op) : opcode < 64 := by
  unfold decode at h
  split at h
  case h_9 => cases h
  all_goals omega

end Operation

/-! ## Packing four parts into a word -/

namespace Instruction

variable {w : Word} {i : Instruction} {address : Word} {index m opcode : Nat}

/-- A packed word keeps the sign of the address. -/
@[simp] theorem sign_pack (address : Word) (index m opcode : Nat) :
    (pack address index m opcode).sign = address.sign :=
  Word.sign_ofSignMagnitude _ _

/-- The magnitude of a packed word: two bytes of the address, then the other parts, when
these are bytes. -/
theorem magnitude_pack (address : Word) (selector : index < 64) (modifier : m < 64)
    (code : opcode < 64) :
    (pack address index m opcode).magnitude =
      262144 * (address.magnitude % 4096) + 4096 * index + 64 * m + opcode := by
  have high : address.magnitude / 64 % 64 < 64 := Nat.mod_lt _ (by decide)
  have low : address.magnitude % 64 < 64 := Nat.mod_lt _ (by decide)
  rw [pack, Word.ofBytes, Word.magnitude_ofSignMagnitude,
    Word.magnitudeOfBytes_of_lt high low selector modifier code]
  omega

/-- The parts of a packed word are read back when each of them fits. -/
theorem decode_pack (proper : address.Proper) (short : address.magnitude < 4096)
    (selector : index ≤ 6) (modifier : m < 64) (code : opcode < 64) :
    decode (pack address index m opcode) =
      (Instruction.mk address index ·) <$> Operation.decode opcode m := by
  have magnitude := magnitude_pack address (by omega : index < 64) modifier code
  have two : Field.address.weight = 262144 := rfl
  have capacity : Field.address.capacity = 4096 := rfl
  have back : Field.address.extract (pack address index m opcode) = address := by
    have high : (262144 * (address.magnitude % 4096) + 4096 * index + 64 * m + opcode) / 262144 %
        4096 = address.magnitude := by omega
    rw [Field.extract, magnitude, two, capacity, high, sign_pack]
    exact proper.canonical_eq
  have byte3 : (pack address index m opcode).byte 3 = index := by
    rw [Word.byte, magnitude]
    show _ / 4096 % 64 = _
    omega
  have byte4 : (pack address index m opcode).byte 4 = m := by
    rw [Word.byte, magnitude]
    show _ / 64 % 64 = _
    omega
  have byte5 : (pack address index m opcode).byte 5 = opcode := by
    rw [Word.byte, magnitude]
    show _ / 1 % 64 = _
    omega
  rw [decode, byte3, byte4, byte5, back, if_neg (by omega)]

/-- What the decoder reads of a word: everything but bit 31 and, with the opcode 0, the
modifier. -/
def significant (w : Word) : Word :=
  if w.byte 5 = 0 then Field.insert ⟨4, 4⟩ w .zero else w.canonical

theorem proper_significant (w : Word) : (significant w).Proper := by
  unfold significant
  split
  · exact Word.proper_ofSignMagnitude _ _
  · exact Word.proper_ofSignMagnitude _ _

theorem sign_significant (w : Word) : (significant w).sign = w.sign := by
  unfold significant
  split
  · exact Word.sign_ofSignMagnitude _ _
  · exact w.sign_canonical

/-- The magnitude of the significant part, by the modifier that the decoder sees. -/
theorem magnitude_significant (w : Word) :
    (significant w).magnitude =
      4096 * (w.magnitude / 4096) + 64 * (if w.byte 5 = 0 then 0 else w.byte 4) + w.byte 5 := by
  have short := w.magnitude_lt
  have byte4 : w.byte 4 = w.magnitude / 64 % 64 := rfl
  have byte5 : w.byte 5 = w.magnitude / 1 % 64 := rfl
  unfold significant
  split
  · have weight : (⟨4, 4⟩ : Field).weight = 64 := rfl
    have capacity : (⟨4, 4⟩ : Field).capacity = 64 := rfl
    have none : Word.zero.magnitude = 0 := rfl
    rw [Field.insert, Word.magnitude_ofSignMagnitude, weight, capacity, none]
    omega
  · rw [Word.magnitude_canonical]
    omega

/-- **The significant part of a word is packed from the parts that the decoder reads.** -/
theorem pack_parts (w : Word) :
    pack (Field.address.extract w) (w.byte 3) (if w.byte 5 = 0 then 0 else w.byte 4) (w.byte 5) =
      significant w := by
  have byte3 : w.byte 3 = w.magnitude / 4096 % 64 := rfl
  have modifier : (if w.byte 5 = 0 then 0 else w.byte 4) < 64 := by
    split
    · decide
    · exact w.byte_lt 4
  have high : (Field.address.extract w).magnitude = w.magnitude / 262144 % 4096 := by
    have weight : Field.address.weight = 262144 := rfl
    have capacity : Field.address.capacity = 4096 := rfl
    rw [Field.extract, Word.magnitude_ofSignMagnitude, weight, capacity]
    omega
  refine Word.Proper.ext (Word.proper_ofSignMagnitude _ _) (proper_significant w) ?_ ?_
  · rw [sign_pack, sign_significant]
    exact Word.sign_ofSignMagnitude _ _
  · have short := w.magnitude_lt
    rw [magnitude_pack _ (by omega) modifier (w.byte_lt 5), high, magnitude_significant]
    omega

/-! ## Which instructions have a word -/

/-- **An instruction has a word exactly when all its parts fit**, and then it is packed
from them. -/
theorem encode_eq_ok_iff :
    encode i = .ok w ↔
      ∃ code, i.operation.code? = some code ∧ i.index ≤ 6 ∧ code.2 ≤ 63 ∧
        i.address.magnitude < 4096 ∧ pack i.address i.index code.2 code.1 = w := by
  unfold encode
  constructor
  · intro encoded
    cases coded : i.operation.code? with
    | none =>
        rw [coded] at encoded
        cases encoded
    | some code =>
        rw [coded] at encoded
        dsimp only at encoded
        split at encoded
        · cases encoded
        rename_i selector
        split at encoded
        · cases encoded
        rename_i modifier
        split at encoded
        · cases encoded
        rename_i short
        exact ⟨code, rfl, Nat.not_lt.1 selector, Nat.not_lt.1 modifier, Nat.not_le.1 short,
          Except.ok.inj encoded⟩
  · rintro ⟨code, coded, selector, modifier, short, rfl⟩
    rw [coded]
    dsimp only
    have fits : ¬ code.2 > Word.byteMax := Nat.not_lt.2 modifier
    rw [if_neg (Nat.not_lt.2 selector), if_neg fits, if_neg (Nat.not_le.2 short)]

/-- An instruction has a word exactly when it names J in no other family than the
stores and its index, its modifier and its address fit. -/
theorem exists_encode_iff :
    (∃ w, encode i = .ok w) ↔
      ¬ i.operation.MisusesJ ∧ i.index ≤ 6 ∧ i.operation.modifier ≤ 63 ∧
        i.address.magnitude ≤ 4095 := by
  constructor
  · rintro ⟨w, encoded⟩
    obtain ⟨code, coded, selector, modifier, short, -⟩ := encode_eq_ok_iff.1 encoded
    rw [Operation.modifier_of_code? coded] at modifier
    refine ⟨?_, selector, modifier, Nat.le_of_lt_succ short⟩
    intro misused
    cases coded.symm.trans (Operation.code?_eq_none_iff.2 misused)
  · rintro ⟨names, selector, modifier, short⟩
    cases coded : i.operation.code? with
    | none => exact absurd (Operation.code?_eq_none_iff.1 coded) names
    | some code =>
        rw [← Operation.modifier_of_code? coded] at modifier
        exact ⟨_, encode_eq_ok_iff.2
          ⟨code, coded, selector, modifier, Nat.lt_succ_of_le short, rfl⟩⟩

/-! ## Both directions -/

/-- **The word of an instruction decodes to the instruction.** -/
theorem decode_encode (proper : i.address.Proper)
    (valid : ∀ f, i.operation.field? = some f → f.Valid) (encoded : encode i = .ok w) :
    decode w = .ok i := by
  obtain ⟨code, coded, selector, modifier, short, rfl⟩ := encode_eq_ok_iff.1 encoded
  have decoded := Operation.decode_of_code? valid coded
  have code := Operation.opcode_lt_of_decode decoded
  rw [decode_pack proper short selector (Nat.lt_succ_of_le modifier) code, decoded]
  rfl

/-- **A word that decodes is the word of its instruction**, up to what the decoder
skips. -/
theorem encode_of_decode (h : decode w = .ok i) : encode i = .ok (significant w) := by
  obtain ⟨selector, address, index, -⟩ := of_decode h
  have coded := code?_of_decode h
  have modifier := modifier_lt_of_decode h coded
  refine encode_eq_ok_iff.2 ⟨_, coded, ?_, Nat.le_of_lt_succ modifier, short_of_decode h, ?_⟩
  · rw [index]
    exact selector
  · rw [address, index]
    exact pack_parts w

/-- A decoded instruction that names a register by its opcode does not name J, which only its
own store does. -/
theorem ne_j_of_decode {r : Register} (h : decode w = .ok i)
    (named : i.operation.register? = some r) (noStore : ∀ f, i.operation ≠ .store .j f) :
    r ≠ .j := by
  intro same
  subst same
  exact code?_ne_none_of_decode h (Operation.code?_eq_none_iff.2 ⟨named, noStore⟩)

/-- Two words that decode to one instruction differ at most in what the decoder
skips. -/
theorem significant_eq_of_decode {v : Word} (hv : decode v = .ok i) (hw : decode w = .ok i) :
    significant v = significant w :=
  Except.ok.inj ((encode_of_decode hv).symm.trans (encode_of_decode hw))

/-- **Encoding and decoding are inverse over the whole format.** An instruction with a
proper address and a checked field has a word exactly when it names J in no other family
than the stores, its index is at most 6, and its modifier and its address fit; that word
decodes to the instruction again. A word that decodes is the word of its instruction once
bit 31 is cleared, and byte 4 too when the opcode is 0. So no two proper words with
another opcode decode to one instruction. -/
theorem encode_decode_inverse :
    (∀ i : Instruction, i.address.Proper →
      (∀ f, i.operation.field? = some f → ∃ l r, Field.ofBounds l r = .ok f) →
      ((∃ w, encode i = .ok w) ↔
        ¬ i.operation.MisusesJ ∧ i.index ≤ 6 ∧ i.operation.modifier ≤ 63 ∧
          i.address.value.natAbs ≤ 4095) ∧
      ∀ w, encode i = .ok w → decode w = .ok i) ∧
    (∀ w i, decode w = .ok i →
      encode i = .ok (if w.byte 5 = 0 then Field.insert ⟨4, 4⟩ w .zero else w.canonical)) ∧
    ∀ v w i, v.Proper → w.Proper → v.byte 5 ≠ 0 → w.byte 5 ≠ 0 →
      decode v = .ok i → decode w = .ok i → v = w := by
  refine ⟨?_, ?_, ?_⟩
  · intro i proper checked
    have valid : ∀ f, i.operation.field? = some f → f.Valid := by
      intro f hasField
      obtain ⟨l, r, bounds⟩ := checked f hasField
      exact Field.valid_of_ofBounds bounds
    have size : i.address.value.natAbs = i.address.magnitude := Sign.natAbs_apply _ _
    rw [size]
    exact ⟨exists_encode_iff, fun w encoded => decode_encode proper valid encoded⟩
  · intro w i decoded
    exact encode_of_decode decoded
  · intro v w i hv hw codeV codeW decodedV decodedW
    have same := significant_eq_of_decode decodedV decodedW
    rw [significant, significant, if_neg codeV, if_neg codeW, hv.canonical_eq,
      hw.canonical_eq] at same
    exact same

/-- `LDA -0,4(4:5)` has a word that decodes to it again, and no other proper word does;
and the word with bit 31 and a modifier under the opcode 0 is encoded as plain zero. -/
theorem encode_decode_inverse_negative_zero :
    (∃ w, encode ⟨Word.zero.negate, 4, .load .a ⟨4, 5⟩⟩ = .ok w ∧
      decode w = .ok ⟨Word.zero.negate, 4, .load .a ⟨4, 5⟩⟩ ∧
      ∀ v : Word, v.Proper → v.byte 5 ≠ 0 →
        decode v = .ok ⟨Word.zero.negate, 4, .load .a ⟨4, 5⟩⟩ → v = w) ∧
    decode ⟨0x80000240⟩ = .ok ⟨.zero, 0, .nop⟩ ∧ encode ⟨.zero, 0, .nop⟩ = .ok .zero := by
  obtain ⟨hasWord, fromWord, unique⟩ := encode_decode_inverse
  have checked : ∀ f, (Operation.load .a ⟨4, 5⟩).field? = some f →
      ∃ l r, Field.ofBounds l r = .ok f := by
    intro f hasField
    cases hasField
    exact ⟨4, 5, rfl⟩
  obtain ⟨-, back⟩ := hasWord ⟨Word.zero.negate, 4, .load .a ⟨4, 5⟩⟩ (by decide) checked
  have encoded : encode ⟨Word.zero.negate, 4, .load .a ⟨4, 5⟩⟩ =
      .ok (pack Word.zero.negate 4 37 8) := rfl
  have decoded := back _ encoded
  have nop : decode ⟨0x80000240⟩ = .ok ⟨.zero, 0, .nop⟩ := rfl
  refine ⟨⟨_, encoded, decoded, ?_⟩, nop, fromWord _ _ nop⟩
  intro v proper code same
  exact unique _ _ _ proper (Word.proper_ofSignMagnitude _ _) code (by decide) same decoded

end Instruction

end MixMachine
