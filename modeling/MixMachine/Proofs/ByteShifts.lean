import Mathlib.Data.List.Rotate
import MixMachine.Word.Arithmetic

/-!
# Shifts of a run of bytes

A shift moves a run of bytes of any length; the machine shifts runs of five and of ten. The
count is taken modulo the length. A circular shift is a rotation of the run, any other drops
the bytes that leave and fills up with zeros. To the right is to the left seen from behind, so
the laws of the right follow from those of the left.

* `Word.shiftBytes_right_eq_reverse`: the two directions.
* `Word.getElem?_shiftBytes_left_wrapped` and the three lemmas behind it: where the byte at a
  position comes from.
* `Word.shiftBytes_wrapped_add`, `Word.shiftBytes_zeros_add`: two shifts as one.
* `Word.shiftBytes_laws`: all of this for every run.
-/

namespace MixMachine.Word

variable {bytes : List Nat} {i : Nat}

/-- To the right is to the left on the reversed bytes. -/
theorem shiftBytes_right_eq_reverse (fill : Fill) (count : Nat) (bytes : List Nat) :
    shiftBytes .right fill count bytes =
      (shiftBytes .left fill count bytes.reverse).reverse := by
  unfold shiftBytes
  dsimp only
  rw [List.length_reverse, List.reverse_append, List.drop_reverse, List.reverse_reverse,
    List.take_reverse]
  cases fill with
  | zeros => rw [List.length_reverse, List.reverse_replicate]
  | wrapped => rw [List.reverse_reverse]

/-! ## Rotations -/

/-- A circular shift to the left is a rotation. -/
theorem shiftBytes_left_wrapped (count : Nat) (bytes : List Nat) :
    shiftBytes .left .wrapped count bytes = bytes.rotate count :=
  List.rotate_eq_drop_append_take_mod.symm

/-- A circular shift to the right is a rotation by what is missing to a whole turn. -/
theorem shiftBytes_right_wrapped (count : Nat) (bytes : List Nat) :
    shiftBytes .right .wrapped count bytes =
      bytes.rotate (bytes.length - count % bytes.length) :=
  (List.rotate_eq_drop_append_take (Nat.sub_le _ _)).symm

/-- What is missing to a whole turn completes it. -/
theorem rotate_turn {bytes : List Nat} (nonempty : 0 < bytes.length) (count : Nat) :
    bytes.rotate (count + (bytes.length - count % bytes.length)) = bytes := by
  have short := Nat.mod_lt count nonempty
  have turns : count + (bytes.length - count % bytes.length) =
      bytes.length * (count / bytes.length + 1) := by
    have parts := Nat.div_add_mod count bytes.length
    rw [Nat.mul_add, Nat.mul_one]
    omega
  rw [turns, List.rotate_length_mul]

/-- **Circular shifts one way add up.** -/
theorem shiftBytes_wrapped_add (direction : Direction) (c₁ c₂ : Nat) (bytes : List Nat) :
    shiftBytes direction .wrapped c₂ (shiftBytes direction .wrapped c₁ bytes) =
      shiftBytes direction .wrapped (c₁ + c₂) bytes := by
  have left : ∀ run, shiftBytes .left .wrapped c₂ (shiftBytes .left .wrapped c₁ run) =
      shiftBytes .left .wrapped (c₁ + c₂) run := by
    intro run
    rw [shiftBytes_left_wrapped, shiftBytes_left_wrapped, shiftBytes_left_wrapped,
      List.rotate_rotate]
  cases direction with
  | left => exact left bytes
  | right =>
      rw [shiftBytes_right_eq_reverse, shiftBytes_right_eq_reverse, List.reverse_reverse, left,
        ← shiftBytes_right_eq_reverse]

/-- **Circular shifts by one count take each other back.** -/
theorem shiftBytes_wrapped_cancel (nonempty : 0 < bytes.length) (count : Nat) :
    shiftBytes .right .wrapped count (shiftBytes .left .wrapped count bytes) = bytes ∧
      shiftBytes .left .wrapped count (shiftBytes .right .wrapped count bytes) = bytes := by
  have turn := rotate_turn nonempty count
  constructor
  · rw [shiftBytes_right_wrapped, shiftBytes_left_wrapped, List.length_rotate,
      List.rotate_rotate, turn]
  · rw [shiftBytes_right_wrapped, shiftBytes_left_wrapped, List.rotate_rotate, Nat.add_comm, turn]

/-! ## Zeros -/

/-- To the left the first bytes leave and as many zeros stand at the end. -/
theorem shiftBytes_left_zeros (nonempty : 0 < bytes.length) (count : Nat) :
    shiftBytes .left .zeros count bytes =
      bytes.drop (count % bytes.length) ++ List.replicate (count % bytes.length) 0 := by
  have leaving : (bytes.take (count % bytes.length)).length = count % bytes.length :=
    List.length_take_of_le (Nat.le_of_lt (Nat.mod_lt count nonempty))
  unfold shiftBytes
  dsimp only
  rw [leaving]

/-- To the right the last bytes leave and as many zeros stand in front. -/
theorem shiftBytes_right_zeros (nonempty : 0 < bytes.length) (count : Nat) :
    shiftBytes .right .zeros count bytes =
      List.replicate (count % bytes.length) 0 ++
        bytes.take (bytes.length - count % bytes.length) := by
  have leaving : (bytes.drop (bytes.length - count % bytes.length)).length =
      count % bytes.length := by
    rw [List.length_drop]
    exact Nat.sub_sub_self (Nat.le_of_lt (Nat.mod_lt count nonempty))
  unfold shiftBytes
  dsimp only
  rw [leaving]

/-- **Other shifts one way add up as long as they stay below the length.** Beyond it the count
of one shift would start again, and two shifts would have cleared the run. -/
theorem shiftBytes_zeros_add (direction : Direction) {c₁ c₂ : Nat}
    (short : c₁ % bytes.length + c₂ % bytes.length < bytes.length) :
    shiftBytes direction .zeros c₂ (shiftBytes direction .zeros c₁ bytes) =
      shiftBytes direction .zeros (c₁ + c₂) bytes := by
  have left : ∀ run : List Nat, run.length = bytes.length →
      shiftBytes .left .zeros c₂ (shiftBytes .left .zeros c₁ run) =
        shiftBytes .left .zeros (c₁ + c₂) run := by
    intro run same
    rw [← same] at short
    have nonempty := Nat.zero_lt_of_lt short
    have sum : (c₁ + c₂) % run.length = c₁ % run.length + c₂ % run.length := by
      rw [Nat.add_mod, Nat.mod_eq_of_lt short]
    have within : c₂ % run.length ≤ (run.drop (c₁ % run.length)).length := by
      rw [List.length_drop]
      omega
    have shifted := length_shiftBytes .left .zeros c₁ run
    rw [shiftBytes_left_zeros (shifted ▸ nonempty), shifted, shiftBytes_left_zeros nonempty,
      shiftBytes_left_zeros nonempty, sum, List.drop_append_of_le_length within, List.drop_drop,
      List.append_assoc, List.replicate_append_replicate]
  cases direction with
  | left => exact left bytes rfl
  | right =>
      rw [shiftBytes_right_eq_reverse, shiftBytes_right_eq_reverse, List.reverse_reverse,
        left _ List.length_reverse, ← shiftBytes_right_eq_reverse]

/-! ## The byte at a position -/

theorem getElem?_shiftBytes_left_wrapped (inside : i < bytes.length) (count : Nat) :
    (shiftBytes .left .wrapped count bytes)[i]? =
      bytes[(i + count % bytes.length) % bytes.length]? := by
  rw [shiftBytes_left_wrapped, List.getElem?_rotate inside, Nat.add_mod_mod]

theorem getElem?_shiftBytes_left_zeros (inside : i < bytes.length) (count : Nat) :
    (shiftBytes .left .zeros count bytes)[i]? =
      if i + count % bytes.length < bytes.length then bytes[i + count % bytes.length]?
      else some 0 := by
  have short := Nat.mod_lt count (Nat.zero_lt_of_lt inside)
  rw [shiftBytes_left_zeros (Nat.zero_lt_of_lt inside), List.getElem?_append, List.length_drop,
    List.getElem?_drop, List.getElem?_replicate, Nat.add_comm i]
  split
  · rw [if_pos (by omega)]
  · rw [if_pos (by omega), if_neg (by omega)]

theorem getElem?_shiftBytes_right_wrapped (inside : i < bytes.length) (count : Nat) :
    (shiftBytes .right .wrapped count bytes)[i]? =
      bytes[(i + bytes.length - count % bytes.length) % bytes.length]? := by
  have short := Nat.mod_lt count (Nat.zero_lt_of_lt inside)
  rw [shiftBytes_right_wrapped, List.getElem?_rotate inside,
    Nat.add_sub_assoc (Nat.le_of_lt short)]

theorem getElem?_shiftBytes_right_zeros (inside : i < bytes.length) (count : Nat) :
    (shiftBytes .right .zeros count bytes)[i]? =
      if count % bytes.length ≤ i then bytes[i - count % bytes.length]? else some 0 := by
  have short := Nat.mod_lt count (Nat.zero_lt_of_lt inside)
  rw [shiftBytes_right_zeros (Nat.zero_lt_of_lt inside), List.getElem?_append,
    List.length_replicate, List.getElem?_replicate, List.getElem?_take]
  split
  · rw [if_neg (by omega)]
  · rw [if_pos (by omega), if_pos (by omega)]

/-- **What a shift does to a run of bytes of any length.** It keeps the length, and the byte at
a position comes from the position that the count leads to, round the run when the shift is
circular and else a zero from outside. To the right is to the left on the reversed bytes,
circular shifts add up and have inverses, and other shifts add up as long as the two counts
together stay below the length. No bytes are shifted to none. -/
theorem shiftBytes_laws :
    (∀ direction fill count, shiftBytes direction fill count [] = []) ∧
    ∀ bytes : List Nat, 0 < bytes.length →
      (∀ direction fill count,
        (shiftBytes direction fill count bytes).length = bytes.length) ∧
      (∀ count i, i < bytes.length →
        (shiftBytes .left .wrapped count bytes)[i]? =
          bytes[(i + count % bytes.length) % bytes.length]? ∧
        (shiftBytes .left .zeros count bytes)[i]? =
          (if i + count % bytes.length < bytes.length then bytes[i + count % bytes.length]?
          else some 0) ∧
        (shiftBytes .right .wrapped count bytes)[i]? =
          bytes[(i + bytes.length - count % bytes.length) % bytes.length]? ∧
        (shiftBytes .right .zeros count bytes)[i]? =
          if count % bytes.length ≤ i then bytes[i - count % bytes.length]? else some 0) ∧
      (∀ fill count, shiftBytes .right fill count bytes =
        (shiftBytes .left fill count bytes.reverse).reverse) ∧
      (∀ direction c₁ c₂,
        shiftBytes direction .wrapped c₂ (shiftBytes direction .wrapped c₁ bytes) =
          shiftBytes direction .wrapped (c₁ + c₂) bytes) ∧
      (∀ count,
        shiftBytes .right .wrapped count (shiftBytes .left .wrapped count bytes) = bytes ∧
        shiftBytes .left .wrapped count (shiftBytes .right .wrapped count bytes) = bytes) ∧
      ∀ direction c₁ c₂, c₁ % bytes.length + c₂ % bytes.length < bytes.length →
        shiftBytes direction .zeros c₂ (shiftBytes direction .zeros c₁ bytes) =
          shiftBytes direction .zeros (c₁ + c₂) bytes := by
  constructor
  · intro direction fill count
    exact List.eq_nil_of_length_eq_zero (length_shiftBytes direction fill count [])
  · intro bytes nonempty
    refine ⟨fun direction fill count => length_shiftBytes direction fill count bytes, ?_,
      fun fill count => shiftBytes_right_eq_reverse fill count bytes,
      fun direction c₁ c₂ => shiftBytes_wrapped_add direction c₁ c₂ bytes,
      shiftBytes_wrapped_cancel nonempty, fun direction c₁ c₂ => shiftBytes_zeros_add direction⟩
    intro count i inside
    exact ⟨getElem?_shiftBytes_left_wrapped inside count,
      getElem?_shiftBytes_left_zeros inside count,
      getElem?_shiftBytes_right_wrapped inside count,
      getElem?_shiftBytes_right_zeros inside count⟩

/-- Three bytes shifted by 1 and by 4, which is 1 again: the counts stay below the length, and
the last byte goes to the front. -/
theorem shiftBytes_laws_three :
    shiftBytes .left .zeros 4 (shiftBytes .left .zeros 1 [7, 8, 9]) =
        shiftBytes .left .zeros 5 [7, 8, 9] ∧
      (shiftBytes .left .zeros 5 [7, 8, 9])[0]? = some 9 ∧
      shiftBytes .right .wrapped 4 (shiftBytes .left .wrapped 4 [7, 8, 9]) = [7, 8, 9] := by
  obtain ⟨-, run⟩ := shiftBytes_laws
  obtain ⟨-, moved, -, -, cancel, add⟩ := run [7, 8, 9] (by decide)
  obtain ⟨-, zeros, -⟩ := moved 5 0 (by decide)
  obtain ⟨back, -⟩ := cancel 4
  exact ⟨add .left 1 4 (by decide), zeros, back⟩

end MixMachine.Word
