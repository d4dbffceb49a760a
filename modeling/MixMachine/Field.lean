import MixMachine.Word.Basic

/-!
# Fields of a word

A field `(L:R)` is the part of a word from position L to position R, where
position 0 is the sign and positions 1 to 5 are the bytes. It packs into one
byte as `8 * L + R`.

`extract` reads a field out of a word and moves its bytes to the right end;
`insert` puts the low bytes of a value into a field of a word. A field without
position 0 has a plus sign when it is read and leaves the sign alone when it is
written.
-/

namespace MixMachine

/-- The positions from `left` to `right` of a word. -/
structure Field where
  left : Nat
  right : Nat
  deriving DecidableEq, Inhabited

/-- Why two bounds, or a packed byte, are no field. -/
inductive FieldError where
  /-- The right bound is past byte 5. -/
  | rightOutOfRange (left right : Nat)
  /-- The left bound is behind the right one. -/
  | reversed (left right : Nat)
  deriving DecidableEq

namespace FieldError

/-- What a user is told. -/
def message : FieldError → String
  | rightOutOfRange l r =>
    s!"field ({Decimal.natural l}:{Decimal.natural r}) ends past byte 5"
  | reversed l r =>
    s!"field ({Decimal.natural l}:{Decimal.natural r}) has its left bound after its right bound"

end FieldError

namespace Field

/-- The whole word. -/
def full : Field := ⟨0, 5⟩

/-- The sign and the two address bytes. -/
def address : Field := ⟨0, 2⟩

/-- A field whose bounds lie in the word and in order. Every other notion of this
module is meant for these. -/
def Valid (f : Field) : Prop :=
  f.left ≤ f.right ∧ f.right ≤ 5

instance (f : Field) : Decidable f.Valid :=
  inferInstanceAs (Decidable (_ ∧ _))

/-- The field with these bounds. The right bound is checked first. -/
def ofBounds (left right : Nat) : Except FieldError Field :=
  if right > 5 then .error (.rightOutOfRange left right)
  else if left > right then .error (.reversed left right)
  else .ok ⟨left, right⟩

/-- The field that a byte packs. -/
def ofByte (b : Nat) : Except FieldError Field :=
  ofBounds (b / 8) (b % 8)

/-- The byte that packs a field. -/
def toByte (f : Field) : Nat :=
  8 * f.left + f.right

/-- The written form, `(L:R)`. -/
def text (f : Field) : String :=
  s!"({Decimal.natural f.left}:{Decimal.natural f.right})"

/-- Whether the field has the sign position. -/
def includesSign (f : Field) : Bool :=
  f.left == 0

/-- The number of bytes of the field, the sign position not counted. -/
def width (f : Field) : Nat :=
  if f.right = 0 then 0 else f.right - max f.left 1 + 1

/-- What the lowest byte of the field weighs in the word. -/
def weight (f : Field) : Nat :=
  Word.placeValue (5 - f.right)

/-- One more than the largest magnitude that the bytes of the field can hold. -/
def capacity (f : Field) : Nat :=
  Word.placeValue f.width

/-! ## Reading and writing a field -/

/-- The field of a word as a word of its own. -/
def extract (f : Field) (w : Word) : Word :=
  Word.ofSignMagnitude (if f.includesSign then w.sign else .plus)
    (w.magnitude / f.weight % f.capacity)

/-- The word `w` with its field replaced by the low bytes of `value`: the bytes
left of the field, the new bytes, and the bytes right of it. -/
def insert (f : Field) (w value : Word) : Word :=
  let above := w.magnitude / (f.weight * f.capacity)
  let below := w.magnitude % f.weight
  Word.ofSignMagnitude (if f.includesSign then value.sign else w.sign)
    (f.weight * (f.capacity * above + value.magnitude % f.capacity) + below)

/-! ## Valid fields -/

theorem valid_of_ofBounds {l r : Nat} {f : Field} (h : ofBounds l r = .ok f) : f.Valid := by
  unfold ofBounds at h
  split at h
  · cases h
  · split at h
    · cases h
    · cases h; exact ⟨by simp only; omega, by simp only; omega⟩

theorem ofBounds_of_valid {f : Field} (h : f.Valid) : ofBounds f.left f.right = .ok f := by
  obtain ⟨hl, hr⟩ := h
  rw [ofBounds, if_neg (by omega), if_neg (by omega)]

/-- A valid field is read back from its byte. -/
theorem ofByte_toByte {f : Field} (h : f.Valid) : ofByte f.toByte = .ok f := by
  have hb := ofBounds_of_valid h
  obtain ⟨hl, hr⟩ := h
  have hd : f.toByte / 8 = f.left := by simp only [toByte]; omega
  have hm : f.toByte % 8 = f.right := by simp only [toByte]; omega
  rw [ofByte, hd, hm, hb]

/-- A byte that packs a field is the byte of that field. -/
theorem toByte_of_ofByte {b : Nat} {f : Field} (h : ofByte b = .ok f) : f.toByte = b := by
  unfold ofByte ofBounds at h
  split at h
  · cases h
  · split at h
    · cases h
    · cases h; simp only [toByte]; omega

end Field

end MixMachine
