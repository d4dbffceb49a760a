import MixMachine.Proofs.Bytes
import MixMachine.Proofs.Numerals
import MixMachine.Word.Text

/-!
# A word is read back from its written form

The written form of a word is its sign and, behind a blank each, the numerals of its five
bytes. Read as a text it has six words, so it is taken for a sign and bytes; the bytes fit,
and the word that is built from them is the word itself, bit 31 apart.

* `Word.toList_text`: the written form as pieces behind blanks.
* `Word.parse_text_canonical`: the word is read back, bit 31 apart.
-/

namespace MixMachine.Word

variable (w : Word)

/-! ## The pieces of the written form -/

/-- The numerals of the bytes. -/
def numerals : List (List Char) :=
  w.bytes.map fun b => (Decimal.padded 2 b).toList

theorem toList_text :
    w.text.toList = [w.sign.char] ++ w.numerals.flatMap fun p => ' ' :: p := by
  have spaced : ∀ b, (" " ++ Decimal.padded 2 b).toList = ' ' :: (Decimal.padded 2 b).toList := by
    intro b
    rw [String.toList_append]
    rfl
  rw [text, String.toList_append, String.toList_ofList, String.toList_join, numerals,
    List.flatMap_map, List.flatMap_map]
  simp only [spaced]

theorem solid_sign (s : Sign) : Text.Solid [s.char] := by
  cases s <;> decide

theorem solid_numerals : ∀ p ∈ w.numerals, Text.Solid p := by
  intro p member
  obtain ⟨b, -, rfl⟩ := List.mem_map.1 member
  exact Decimal.solid_of_natural? (Decimal.natural?_padded 2 b)

/-- Nothing of the written form is trimmed. -/
theorem trim_text : Text.trim w.text.toList = w.text.toList := by
  rw [toList_text]
  exact Text.trim_spaced (solid_sign w.sign) w.solid_numerals

/-- The written form holds nothing but a sign, blanks and digits. -/
theorem notMem_text {c : Char} (noDigit : c.isDigit = false) (noBlank : c ≠ ' ')
    (noSign : Sign.ofChar? c = none) : c ∉ w.text.toList := by
  rw [toList_text, List.mem_append, List.mem_flatMap]
  rintro (sign | ⟨p, member, inside⟩)
  · rw [List.mem_singleton.1 sign, Sign.ofChar?_char] at noSign
    cases noSign
  · obtain ⟨b, -, rfl⟩ := List.mem_map.1 member
    rcases List.mem_cons.1 inside with blank | digit
    · exact noBlank blank
    · exact Decimal.notMem_of_natural? (Decimal.natural?_padded 2 b) noDigit digit

/-! ## Reading -/

theorem parseByte_padded {b : Nat} (fits : b < 64) :
    parseByte (Decimal.padded 2 b).toList = .ok b := by
  have read : Decimal.unsigned? 255 (Decimal.padded 2 b).toList = some b :=
    Decimal.unsigned?_of_natural? (Decimal.natural?_padded 2 b) (by omega)
  have small : ¬ b > byteMax := Nat.not_lt.2 (Nat.le_of_lt_succ fits)
  rw [parseByte, read]
  exact if_neg small

theorem mapM_parseByte {bs : List Nat} (fit : ∀ b ∈ bs, b < 64) :
    (bs.map fun b => (Decimal.padded 2 b).toList).mapM parseByte = .ok bs := by
  induction bs with
  | nil => rfl
  | cons b bs ih =>
      obtain ⟨head, tail⟩ := List.forall_mem_cons.1 fit
      rw [List.map_cons, List.mapM_cons, parseByte_padded head, ih tail]
      rfl

/-- **A word is read back from its written form**, bit 31 apart. -/
theorem parse_text_canonical : parse w.text.toList = .ok w.canonical := by
  have fields : Text.words (w.numerals.flatMap fun p => ' ' :: p) = w.numerals :=
    Text.words_spaced w.solid_numerals []
  have wide : (Text.words w.text.toList).length > 1 := by
    rw [toList_text, Text.words_spaced w.solid_numerals, (solid_sign w.sign).words]
    show 1 < 6
    decide
  have bytes : w.numerals.mapM parseByte = .ok w.bytes := mapM_parseByte w.bytes_lt
  rw [parse, trim_text, if_pos wide, toList_text, List.singleton_append, parseBytes]
  dsimp only
  have five : w.numerals.length = 5 := rfl
  rw [Sign.ofChar?_char, fields]
  dsimp only
  rw [if_pos five, bytes, ← ofBytes_bytes]
  rfl

/-- The written form shows a word, bit 31 apart. -/
theorem canonical_eq_of_text_eq {w v : Word} (same : w.text = v.text) :
    w.canonical = v.canonical := by
  have read := w.parse_text_canonical
  rw [same, v.parse_text_canonical] at read
  exact (Except.ok.inj read).symm

end MixMachine.Word
