import Mathlib.Algebra.Group.Nat.Defs
import MixMachine.Field
import MixMachine.Proofs.Bytes

/-!
# Reading and writing fields

A magnitude is a number in base 64, and its bytes are its digits. A field splits it in three:
the bytes left of the field, those in it, and those right of it. Writing a field puts other
digits between the two outer parts, so no byte outside the field is changed.

* `Field.byte_insert`: a byte outside a field is kept when the field is written.
-/

namespace MixMachine

namespace Word

theorem placeValue_eq_pow (n : Nat) : placeValue n = 64 ^ n := by
  induction n with
  | zero => rfl
  | succ n ih => rw [placeValue, ih, Nat.pow_succ, Nat.mul_comm]

theorem placeValue_add (a b : Nat) : placeValue (a + b) = placeValue a * placeValue b := by
  induction b with
  | zero => exact (Nat.mul_one _).symm
  | succ b ih => rw [← Nat.add_assoc, placeValue, placeValue, ih, Nat.mul_left_comm]

theorem placeValue_pos (n : Nat) : 0 < placeValue n := by
  induction n with
  | zero => decide
  | succ n ih => exact Nat.mul_pos (by decide) ih

theorem placeValue_dvd {a b : Nat} (le : a ≤ b) : placeValue a ∣ placeValue b := by
  obtain ⟨rest, rfl⟩ := Nat.exists_eq_add_of_le le
  exact ⟨placeValue rest, placeValue_add a rest⟩

/-- The digit at a place is told from the number below the next place. -/
theorem digit_congr {m n k : Nat} (same : m % placeValue (k + 1) = n % placeValue (k + 1)) :
    m / placeValue k % 64 = n / placeValue k % 64 := by
  have split : placeValue (k + 1) = placeValue k * 64 := Nat.mul_comm _ _
  rw [split] at same
  rw [← Nat.mod_mul_right_div_self, ← Nat.mod_mul_right_div_self, same]

end Word

namespace Field

open Word

variable {f : Field}

theorem weight_pos (f : Field) : 0 < f.weight :=
  placeValue_pos _

theorem capacity_pos (f : Field) : 0 < f.capacity :=
  placeValue_pos _

/-- What the bytes of a field and those right of it weigh together. -/
theorem weight_mul_capacity (f : Field) :
    f.weight * f.capacity = placeValue (5 - f.right + f.width) :=
  (placeValue_add _ _).symm

/-- The bytes of a field and those right of it are five at most. -/
theorem places_le (valid : f.Valid) : 5 - f.right + f.width ≤ 5 := by
  obtain ⟨order, last⟩ := valid
  unfold width
  split <;> omega

theorem weight_mul_capacity_dvd (valid : f.Valid) : f.weight * f.capacity ∣ 0x40000000 := by
  rw [weight_mul_capacity]
  exact placeValue_dvd (places_le valid)

theorem sign_insert (f : Field) (w v : Word) :
    (f.insert w v).sign = if f.includesSign then v.sign else w.sign :=
  sign_ofSignMagnitude _ _

/-- The bytes of a word whose field has been written: those left of the field, the new ones,
and those right of it. -/
theorem magnitude_insert (valid : f.Valid) (w v : Word) :
    (f.insert w v).magnitude =
      f.weight * (f.capacity * (w.magnitude / (f.weight * f.capacity)) +
        v.magnitude % f.capacity) + w.magnitude % f.weight := by
  obtain ⟨rest, whole⟩ := weight_mul_capacity_dvd valid
  have above : w.magnitude / (f.weight * f.capacity) < rest := by
    apply Nat.div_lt_of_lt_mul
    rw [← whole]
    exact w.magnitude_lt
  have short := mul_add_lt (mul_add_lt above (Nat.mod_lt v.magnitude f.capacity_pos))
    (Nat.mod_lt w.magnitude f.weight_pos)
  rw [← Nat.mul_assoc, ← whole] at short
  exact (magnitude_ofSignMagnitude _ _).trans (Nat.mod_eq_of_lt short)

/-- **A byte outside a field is kept when the field is written.** -/
theorem byte_insert (valid : f.Valid) (w v : Word) {k : Nat} (low : 1 ≤ k) (high : k ≤ 5)
    (outside : k < f.left ∨ f.right < k) : (f.insert w v).byte k = w.byte k := by
  obtain ⟨order, last⟩ := id valid
  unfold Word.byte
  rcases outside with left | right
  · -- the place of the byte is some number of fields away
    have places : 5 - f.right + f.width ≤ 5 - k := by
      unfold width
      split <;> omega
    obtain ⟨rest, place⟩ := placeValue_dvd places
    rw [← weight_mul_capacity] at place
    have below : f.weight * (v.magnitude % f.capacity) + w.magnitude % f.weight <
        f.weight * f.capacity :=
      mul_add_lt (Nat.mod_lt _ f.capacity_pos) (Nat.mod_lt _ f.weight_pos)
    have above : (f.insert w v).magnitude / (f.weight * f.capacity) =
        w.magnitude / (f.weight * f.capacity) := by
      rw [magnitude_insert valid, Nat.mul_add, ← Nat.mul_assoc, Nat.add_assoc,
        Nat.mul_add_div (Nat.mul_pos f.weight_pos f.capacity_pos),
        Nat.div_eq_of_lt below, Nat.add_zero]
    rw [place, ← Nat.div_div_eq_div_mul _ _ rest, ← Nat.div_div_eq_div_mul _ _ rest, above]
  · have place : placeValue (5 - k + 1) ∣ f.weight := placeValue_dvd (by omega)
    obtain ⟨rest, upper⟩ := Nat.dvd_mul_right_of_dvd place
      (f.capacity * (w.magnitude / (f.weight * f.capacity)) + v.magnitude % f.capacity)
    apply digit_congr
    rw [magnitude_insert valid, ← Nat.mod_mod_of_dvd w.magnitude place, upper,
      Nat.mul_add_mod]

end Field

end MixMachine
