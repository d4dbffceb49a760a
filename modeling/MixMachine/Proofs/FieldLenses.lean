import Mathlib.Algebra.Group.Nat.Defs
import MixMachine.Proofs.Fields

/-!
# Fields as lenses

What reading and writing a field does is told position by position: the sign is position 0, and
the bytes are positions 1 to 5. A field that is read gives its bytes at the right end and zero
bytes in front of them; a field that is written takes as many bytes from the right end of the
value, and every other position is kept. The laws of reading and writing follow by looking at
one position after the other, since a proper word is its sign and its bytes.

* `Field.byte_insert_inside`, `Field.bytes_extract`: the bytes of a field that was written, and
  of one that was read.
* `Field.insert_extract`, `Field.extract_insert`, `Field.insert_insert`: the laws of one field.
* `Field.extract_insert_apart`, `Field.insert_comm`: the laws of two fields that are apart.
* `Field.lens_laws`: all of them, for the fields that can be built.
-/

namespace MixMachine

namespace Word

/-- The digits of the middle of a number are digits of the number, and zeros in front of them. -/
theorem digit_of_middle (m a b k : Nat) :
    m / placeValue a % placeValue b / placeValue k % 64 =
      if k < b then m / placeValue (a + k) % 64 else 0 := by
  split
  · rename_i inside
    have low : m / placeValue a % placeValue b % placeValue (k + 1) =
        m / placeValue a % placeValue (k + 1) :=
      Nat.mod_mod_of_dvd _ (placeValue_dvd inside)
    rw [digit_congr low, Nat.div_div_eq_div_mul, placeValue_add]
  · rename_i before
    have small := Nat.mod_lt (m / placeValue a) (placeValue_pos b)
    have larger := Nat.le_of_dvd (placeValue_pos k) (placeValue_dvd (Nat.not_lt.1 before))
    rw [Nat.div_eq_of_lt (Nat.lt_of_lt_of_le small larger), Nat.zero_mod]

end Word

/-- A field is built from two bounds exactly when they are in order and in the word. -/
theorem Field.ofBounds_eq_ok_iff {l r : Nat} {f : Field} :
    ofBounds l r = .ok f ↔ l ≤ r ∧ r ≤ 5 ∧ f = ⟨l, r⟩ := by
  constructor
  · intro built
    obtain ⟨order, last⟩ := valid_of_ofBounds built
    unfold ofBounds at built
    split at built
    · cases built
    · split at built
      · cases built
      · cases built
        exact ⟨order, last, rfl⟩
  · rintro ⟨order, last, rfl⟩
    exact ofBounds_of_valid (f := ⟨l, r⟩) ⟨order, last⟩

namespace Field

open Word

variable {f g : Field} {d u v w : Word} {k : Nat}

/-- The bytes of a field are those from its left bound, or from byte 1, to its right bound. -/
theorem width_eq (valid : f.Valid) : f.width = f.right + 1 - max f.left 1 := by
  obtain ⟨order, last⟩ := valid
  unfold width
  split <;> omega

theorem includesSign_iff (f : Field) : f.includesSign = true ↔ f.left = 0 :=
  beq_iff_eq

/-! ## Position by position -/

theorem sign_extract (f : Field) (w : Word) :
    (f.extract w).sign = if f.left = 0 then w.sign else .plus := by
  simp only [extract, sign_ofSignMagnitude, includesSign_iff]

theorem sign_insert_eq (f : Field) (d v : Word) :
    (f.insert d v).sign = if f.left = 0 then v.sign else d.sign := by
  simp only [sign_insert, includesSign_iff]

theorem proper_insert (f : Field) (d v : Word) : (f.insert d v).Proper :=
  proper_ofSignMagnitude _ _

/-- The bytes that are read from a field. -/
theorem magnitude_extract (valid : f.Valid) (w : Word) :
    (f.extract w).magnitude = w.magnitude / f.weight % f.capacity := by
  have small := Nat.mod_lt (w.magnitude / f.weight) f.capacity_pos
  have narrow : f.capacity ≤ 0x40000000 :=
    Nat.le_of_dvd (by decide) (Nat.dvd_trans (Nat.dvd_mul_left _ _) (weight_mul_capacity_dvd valid))
  rw [extract, magnitude_ofSignMagnitude]
  exact Nat.mod_eq_of_lt (Nat.lt_of_lt_of_le small narrow)

/-- **The bytes of a field that was read**, counted from the right end: those of the field, and
zeros in front of them. -/
theorem byte_extract (valid : f.Valid) (w : Word) (low : 1 ≤ k) (high : k ≤ 5) :
    (f.extract w).byte k = if 5 - k < f.width then w.byte (f.right - (5 - k)) else 0 := by
  obtain ⟨order, last⟩ := id valid
  have width := width_eq valid
  rw [byte, magnitude_extract valid, weight, capacity, digit_of_middle]
  by_cases inside : 5 - k < f.width
  · have place : 5 - f.right + (5 - k) = 5 - (f.right - (5 - k)) := by omega
    rw [if_pos inside, if_pos inside, place, byte]
  · rw [if_neg inside, if_neg inside]

/-- Without the bytes right of the field the new ones are the last of a number. -/
theorem insert_div_weight (valid : f.Valid) (d v : Word) :
    (f.insert d v).magnitude / f.weight =
      f.capacity * (d.magnitude / (f.weight * f.capacity)) + v.magnitude % f.capacity := by
  rw [magnitude_insert valid, Nat.mul_add_div f.weight_pos,
    Nat.div_eq_of_lt (Nat.mod_lt _ f.weight_pos), Nat.add_zero]

/-- **The bytes of a field that was written** are the last ones of the value. -/
theorem byte_insert_inside (valid : f.Valid) (d v : Word) (low : 1 ≤ k) (left : f.left ≤ k)
    (right : k ≤ f.right) : (f.insert d v).byte k = v.byte (5 - (f.right - k)) := by
  obtain ⟨order, last⟩ := id valid
  have width := width_eq valid
  have place : 5 - k = 5 - f.right + (f.right - k) := by omega
  have back : 5 - (5 - (f.right - k)) = f.right - k := by omega
  have inside : placeValue (f.right - k + 1) ∣ f.capacity := placeValue_dvd (by omega)
  obtain ⟨rest, capacity⟩ := id inside
  rw [byte, byte, place, placeValue_add, ← Nat.div_div_eq_div_mul, back]
  refine (congrArg (· / _ % 64) (insert_div_weight valid d v)).trans (digit_congr ?_)
  rw [← Nat.mod_mod_of_dvd v.magnitude inside, capacity, Nat.mul_assoc, Nat.mul_add_mod]

/-- A field that is read gives a run of bytes of the word at the right end. -/
theorem bytes_extract (valid : f.Valid) (w : Word) :
    (f.extract w).bytes = List.replicate (5 - f.width) 0 ++
      (List.range' (max f.left 1) (f.right + 1 - max f.left 1)).map w.byte := by
  obtain ⟨order, last⟩ := id valid
  have width := width_eq valid
  have short : f.width ≤ 5 := by omega
  have five : (f.extract w).bytes =
      (List.range' 1 (5 - f.width) ++ List.range' (1 + (5 - f.width)) f.width).map
        (f.extract w).byte := by
    rw [List.range'_append_1, Nat.sub_add_cancel short]
    rfl
  rw [five, List.map_append, ← width]
  congr 1
  · refine List.eq_replicate_iff.2 ⟨by simp only [List.length_map, List.length_range'], ?_⟩
    intro b member
    obtain ⟨k, place, rfl⟩ := List.mem_map.1 member
    obtain ⟨low, high⟩ := List.mem_range'_1.1 place
    rw [byte_extract valid w low (by omega), if_neg (by omega)]
  · rw [List.range'_eq_map_range, List.range'_eq_map_range, List.map_map, List.map_map]
    refine List.map_congr_left fun j member => ?_
    have inside := List.mem_range.1 member
    have same : f.right - (5 - (1 + (5 - f.width) + j)) = max f.left 1 + j := by omega
    rw [Function.comp_apply, Function.comp_apply, byte_extract valid w (by omega) (by omega),
      if_pos (by omega), same]

/-! ## The laws of one field -/

/-- **A field that is written with what was read from it is as before.** -/
theorem insert_extract (valid : f.Valid) (proper : w.Proper) : f.insert w (f.extract w) = w := by
  obtain ⟨order, last⟩ := id valid
  have width := width_eq valid
  refine (proper_insert ..).ext_byte proper ?_ ?_
  · rw [sign_insert_eq, sign_extract]
    split <;> rfl
  · intro k low high
    by_cases inside : f.left ≤ k ∧ k ≤ f.right
    · have here : f.right - (5 - (5 - (f.right - k))) = k := by omega
      rw [byte_insert_inside valid _ _ low inside.1 inside.2,
        byte_extract valid w (by omega) (by omega), if_pos (by omega), here]
    · exact byte_insert valid _ _ low high (by omega)

/-- **A field that was written reads as the value**, cut to the bytes of the field. -/
theorem extract_insert (valid : f.Valid) (d v : Word) :
    f.extract (f.insert d v) =
      ofSignMagnitude (if f.left = 0 then v.sign else .plus) (v.magnitude % f.capacity) := by
  have sign : (f.extract (f.insert d v)).sign = if f.left = 0 then v.sign else .plus := by
    rw [sign_extract, sign_insert_eq]
    split <;> rfl
  have magnitude : (f.insert d v).magnitude / f.weight % f.capacity =
      v.magnitude % f.capacity := by
    rw [insert_div_weight valid, Nat.mul_add_mod, Nat.mod_mod]
  rw [← sign, sign_extract]
  simp only [extract, includesSign_iff, magnitude]

/-- **Only the last value that is written to a field counts.** -/
theorem insert_insert (valid : f.Valid) (d u v : Word) :
    f.insert (f.insert d v) u = f.insert d u := by
  refine (proper_insert ..).ext_byte (proper_insert ..) ?_ ?_
  · rw [sign_insert_eq, sign_insert_eq, sign_insert_eq]
    split <;> rfl
  · intro k low high
    by_cases inside : f.left ≤ k ∧ k ≤ f.right
    · rw [byte_insert_inside valid _ _ low inside.1 inside.2,
        byte_insert_inside valid _ _ low inside.1 inside.2]
    · have outside : k < f.left ∨ f.right < k := by omega
      rw [byte_insert valid _ _ low high outside, byte_insert valid _ _ low high outside,
        byte_insert valid _ _ low high outside]

/-! ## Two fields that are apart -/

/-- The fields have no position in common: one of them ends before the other begins. -/
def Apart (f g : Field) : Prop :=
  ∀ k, ¬ ((f.left ≤ k ∧ k ≤ f.right) ∧ g.left ≤ k ∧ k ≤ g.right)

/-- At most one of two fields that are apart has the sign. -/
theorem Apart.left_eq_zero (apart : f.Apart g) : ¬ (f.left = 0 ∧ g.left = 0) := by
  rintro ⟨first, second⟩
  exact apart 0 (by omega)

/-- **Writing a field does not show in a field that is apart.** -/
theorem extract_insert_apart (validF : f.Valid) (validG : g.Valid) (apart : f.Apart g)
    (d v : Word) : g.extract (f.insert d v) = g.extract d := by
  obtain ⟨order, last⟩ := id validG
  have width := width_eq validG
  refine (proper_ofSignMagnitude _ _).ext_byte (proper_ofSignMagnitude _ _) ?_ ?_
  · show (g.extract _).sign = (g.extract _).sign
    rw [sign_extract, sign_extract, sign_insert_eq]
    split
    · rename_i signed
      rw [if_neg fun also => apart.left_eq_zero ⟨also, signed⟩]
    · rfl
  · intro k low high
    show (g.extract _).byte k = (g.extract _).byte k
    rw [byte_extract validG _ low high, byte_extract validG _ low high]
    split
    · rename_i inside
      have outside := apart (g.right - (5 - k))
      exact byte_insert validF _ _ (by omega) (by omega) (by omega)
    · rfl

/-- **Fields that are apart may be written in either order.** -/
theorem insert_comm (validF : f.Valid) (validG : g.Valid) (apart : f.Apart g) (d u v : Word) :
    g.insert (f.insert d v) u = f.insert (g.insert d u) v := by
  refine (proper_insert ..).ext_byte (proper_insert ..) ?_ ?_
  · have one := apart.left_eq_zero
    rw [sign_insert_eq, sign_insert_eq, sign_insert_eq, sign_insert_eq]
    by_cases first : f.left = 0
    · rw [if_pos first, if_pos first, if_neg fun second => one ⟨first, second⟩]
    · rw [if_neg first, if_neg first]
  · intro k low high
    have notBoth := apart k
    by_cases inF : f.left ≤ k ∧ k ≤ f.right
    · rw [byte_insert_inside validF _ _ low inF.1 inF.2,
        byte_insert validG _ _ low high (by omega),
        byte_insert_inside validF _ _ low inF.1 inF.2]
    · have outF : k < f.left ∨ f.right < k := by omega
      rw [byte_insert validF _ _ low high outF]
      by_cases inG : g.left ≤ k ∧ k ≤ g.right
      · rw [byte_insert_inside validG _ _ low inG.1 inG.2,
          byte_insert_inside validG _ _ low inG.1 inG.2]
      · have outG : k < g.left ∨ g.right < k := by omega
        rw [byte_insert validG _ _ low high outG, byte_insert validG _ _ low high outG,
          byte_insert validF _ _ low high outF]

/-! ## Fields that can be built -/

/-- **Fields are lenses on words.** A field can be built from the bounds `l` and `r` when these
are in order and in the word. Writing it takes the last bytes of the value, and the sign when it
has position 0, and keeps every other position; reading it gives the bytes `max l 1` to `r` at
the right end behind zero bytes, and the sign when it has position 0 or else a plus sign. So a
field that is written with what was read changes nothing, a field that was written reads as the
value cut to its bytes, and the last of two writes counts; of two fields without a common
position neither shows in the other, and they may be written in either order. -/
theorem lens_laws :
    (∀ l r, (∃ f, ofBounds l r = .ok f) ↔ l ≤ r ∧ r ≤ 5) ∧
    ∀ (l r : Nat) (f : Field), ofBounds l r = .ok f →
      f.width = r + 1 - max l 1 ∧
      (∀ d v : Word,
        (f.insert d v).sign = (if l = 0 then v.sign else d.sign) ∧
        (∀ k, 1 ≤ k → k ≤ 5 → k < l ∨ r < k → (f.insert d v).byte k = d.byte k) ∧
        ∀ j, j < f.width → (f.insert d v).byte (r - j) = v.byte (5 - j)) ∧
      (∀ w : Word,
        (f.extract w).sign = (if l = 0 then w.sign else .plus) ∧
        (f.extract w).bytes =
          List.replicate (5 - f.width) 0 ++ (List.range' (max l 1) f.width).map w.byte) ∧
      (∀ w : Word, w.Proper → f.insert w (f.extract w) = w) ∧
      (∀ d v : Word, f.extract (f.insert d v) =
        ofSignMagnitude (if l = 0 then v.sign else .plus) (v.magnitude % 64 ^ f.width)) ∧
      (∀ d u v : Word, f.insert (f.insert d v) u = f.insert d u) ∧
      ∀ (l' r' : Nat) (g : Field), ofBounds l' r' = .ok g → f.Apart g →
        (∀ d u v : Word, g.insert (f.insert d v) u = f.insert (g.insert d u) v) ∧
        ∀ d v : Word, g.extract (f.insert d v) = g.extract d := by
  constructor
  · intro l r
    simp only [ofBounds_eq_ok_iff, exists_and_left, exists_eq, and_true]
  · intro l r f built
    have valid := valid_of_ofBounds built
    obtain ⟨-, -, rfl⟩ := ofBounds_eq_ok_iff.1 built
    have width : _ = r + 1 - max l 1 := width_eq valid
    refine ⟨width, ?_, ?_, fun w => insert_extract valid, ?_, fun d u v => insert_insert valid d u v,
      ?_⟩
    · intro d v
      refine ⟨sign_insert_eq _ d v, fun k low high => byte_insert valid d v low high, ?_⟩
      intro j inside
      obtain ⟨order, last⟩ := valid
      have order : l ≤ r := order
      have back : r - (r - j) = j := by omega
      have written := byte_insert_inside (f := ⟨l, r⟩) (k := r - j) ⟨order, last⟩ d v
      rw [back] at written
      exact written (by omega) (by dsimp only; omega) (Nat.sub_le r j)
    · intro w
      have bytes := bytes_extract valid w
      rw [← width_eq valid] at bytes
      exact ⟨sign_extract _ w, bytes⟩
    · intro d v
      rw [extract_insert valid, capacity, placeValue_eq_pow]
    · intro l' r' g builtG apart
      have validG := valid_of_ofBounds builtG
      exact ⟨insert_comm valid validG apart, extract_insert_apart valid validG apart⟩

/-- Bytes 2 and 3 of a negative word become the last ones of a value, and the sign alone, another
field, is the one of before. -/
theorem lens_laws_middle :
    (insert ⟨2, 3⟩ (ofBytes .minus [1, 2, 3, 4, 5]) (ofBytes .plus [6, 7, 8, 9, 0])).byte 2 = 9 ∧
    extract ⟨2, 3⟩ (insert ⟨2, 3⟩ (ofBytes .minus [1, 2, 3, 4, 5])
      (ofBytes .plus [6, 7, 8, 9, 0])) = ofBytes .plus [0, 0, 0, 9, 0] ∧
    extract ⟨0, 0⟩ (insert ⟨2, 3⟩ (ofBytes .minus [1, 2, 3, 4, 5])
      (ofBytes .plus [6, 7, 8, 9, 0])) = zero.negate := by
  obtain ⟨-, fields⟩ := lens_laws
  obtain ⟨-, written, -, -, reads, -, other⟩ := fields 2 3 ⟨2, 3⟩ rfl
  obtain ⟨-, -, bytes⟩ := written (ofBytes .minus [1, 2, 3, 4, 5]) (ofBytes .plus [6, 7, 8, 9, 0])
  have apart : Apart ⟨2, 3⟩ ⟨0, 0⟩ := by
    intro k
    dsimp only
    omega
  obtain ⟨-, unread⟩ := other 0 0 ⟨0, 0⟩ rfl apart
  exact ⟨(bytes 1 (by decide)).trans (by decide), (reads _ _).trans (by decide),
    (unread _ _).trans (by decide)⟩

end Field

end MixMachine
