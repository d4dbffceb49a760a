import Mathlib.Algebra.Group.Nat.Defs
import MixMachine.Proofs.Bytes

/-!
# The views of a word

A word is looked at in three ways: as a sign and five bytes, as a sign and a magnitude, and as
a number. The first two show everything but bit 31, so a proper word is built again from either.
A number shows one thing less. It has no sign of its own when it is zero, so both zeros are seen
as 0, and the word that is built from 0 has a plus sign.

* `Word.toNat_bits_ofSignMagnitude_eq_or`: a word is packed by shifts and masks.
* `Word.toNat_bits_canonical`: clearing bit 31 touches no other bit.
* `Word.value_of_natAbs`: a number within thirty bits is the number of a word.
* `Word.value_eq_iff`: which words stand for one number.
* `Word.ofInt_value`: the word that is built from the number of a word.
* `Word.views_inverse`: what can be built again from which view.
-/

namespace MixMachine

/-! ## Signs of numbers -/

namespace Sign

/-- A number is its sign and its size. -/
theorem of_apply_natAbs (v : Int) : (of v).apply v.natAbs = v := by
  unfold of
  split
  · show -(v.natAbs : Int) = v
    omega
  · show (v.natAbs : Int) = v
    omega

/-- A number is its sign and its size, whatever sign its zero is given. -/
theorem apply_natAbs (v : Int) (zeroSign : Sign) :
    (if v = 0 then zeroSign else of v).apply v.natAbs = v := by
  by_cases zero : v = 0
  · subst zero
    cases zeroSign <;> rfl
  · rw [if_neg zero, of_apply_natAbs]

theorem of_natCast (n : Nat) : of (n : Int) = plus :=
  if_neg (Int.not_lt.2 (Int.natCast_nonneg n))

/-- The sign is seen on every number but zero. -/
theorem of_apply (s : Sign) (n : Nat) : of (s.apply n) = if n = 0 then plus else s := by
  cases s with
  | plus =>
      rw [ite_self]
      exact of_natCast n
  | minus =>
      by_cases zero : n = 0
      · rw [if_pos zero, zero]
        rfl
      · have negative : minus.apply n < 0 := by
          show -(n : Int) < 0
          omega
        rw [if_neg zero]
        exact if_pos negative

end Sign

namespace Word

variable {w : Word} {n : Nat}

/-! ## The packed form -/

/-- The magnitude has the thirty low bits to itself. -/
theorem magnitude_eq_and (w : Word) : w.magnitude = w.bits.toNat &&& 0x3FFFFFFF :=
  (Nat.and_two_pow_sub_one_eq_mod w.bits.toNat 30).symm

/-- The sign comes next. -/
theorem sign_eq_shiftRight (w : Word) : w.sign = Sign.ofBit (w.bits.toNat >>> 30) := by
  rw [Nat.shiftRight_eq_div_pow]
  rfl

theorem toNat_bits_ofBits (n : Nat) : (ofBits n).bits.toNat = n &&& 0x7FFFFFFF := by
  have low : n &&& 0x7FFFFFFF = n % 0x80000000 := Nat.and_two_pow_sub_one_eq_mod n 31
  rw [ofBits, UInt32.toNat_ofNat', low]
  omega

/-- The sign and the magnitude do not meet in a bit. -/
theorem toNat_bits_ofSignMagnitude_eq_or (s : Sign) (m : Nat) :
    (ofSignMagnitude s m).bits.toNat = s.bit <<< 30 ||| (m &&& 0x3FFFFFFF) := by
  have low : m &&& 0x3FFFFFFF = m % 0x40000000 := Nat.and_two_pow_sub_one_eq_mod m 30
  have short : m % 0x40000000 < 2 ^ 30 := Nat.mod_lt m (by decide)
  rw [low, ← Nat.shiftLeft_add_eq_or_of_lt short, Nat.shiftLeft_eq, Nat.mul_comm,
    toNat_bits_ofSignMagnitude]

/-! ## Without bit 31 -/

/-- The bits of a word: bit 31, the sign and the magnitude. -/
theorem toNat_bits_eq (w : Word) :
    w.bits.toNat =
      0x80000000 * (w.bits.toNat / 0x80000000) + 0x40000000 * w.sign.bit + w.magnitude := by
  have sign : w.sign.bit = w.bits.toNat / 0x40000000 % 2 := by
    unfold Word.sign Sign.ofBit
    split <;> simp only [Sign.bit] <;> omega
  rw [sign, magnitude]
  omega

section Canonical

variable (w : Word)

@[simp] theorem sign_canonical : w.canonical.sign = w.sign :=
  sign_ofSignMagnitude _ _

@[simp] theorem magnitude_canonical : w.canonical.magnitude = w.magnitude := by
  rw [canonical, magnitude_ofSignMagnitude, Nat.mod_eq_of_lt w.magnitude_lt]

/-- **Clearing touches no bit but bit 31.** -/
theorem toNat_bits_canonical : w.canonical.bits.toNat = w.bits.toNat % 0x80000000 := by
  have bits := w.toNat_bits_eq
  have sign := w.sign.bit_lt_two
  have magnitude := w.magnitude_lt
  rw [canonical, toNat_bits_ofSignMagnitude]
  omega

/-- The low 31 bits of a word are its sign and its magnitude. -/
theorem canonical_eq_ofBits : w.canonical = ofBits w.bits.toNat := by
  apply ext_toNat
  rw [toNat_bits_canonical, toNat_bits_ofBits]
  exact (Nat.and_two_pow_sub_one_eq_mod w.bits.toNat 31).symm

@[simp] theorem value_canonical : w.canonical.value = w.value := by
  rw [value, value, sign_canonical, magnitude_canonical]

@[simp] theorem byte_canonical (i : Nat) : w.canonical.byte i = w.byte i := by
  rw [byte, byte, magnitude_canonical]

@[simp] theorem bytes_canonical : w.canonical.bytes = w.bytes := by
  simp only [bytes, byte_canonical]

/-- A word that is built from a sign and a magnitude has bit 31 clear. -/
@[simp] theorem canonical_ofSignMagnitude (s : Sign) (m : Nat) :
    (ofSignMagnitude s m).canonical = ofSignMagnitude s m :=
  (proper_ofSignMagnitude s m).canonical_eq

@[simp] theorem canonical_zero : zero.canonical = zero :=
  Proper.canonical_eq (by decide)

end Canonical

/-! ## The number of a word -/

/-- The number of a word lies as far from zero as its magnitude says. -/
theorem natAbs_value (w : Word) : w.value.natAbs = w.magnitude :=
  Sign.natAbs_apply _ _

/-- A word has the number zero exactly when it has no magnitude, whatever its sign. -/
theorem value_eq_zero_iff (w : Word) : w.value = 0 ↔ w.magnitude = 0 := by
  rw [← Int.natAbs_eq_zero, natAbs_value]

theorem isZero_iff (w : Word) : w.isZero = true ↔ w.value = 0 :=
  beq_iff_eq.trans w.value_eq_zero_iff.symm

theorem value_ofSignMagnitude (short : n ≤ maxMagnitude) (s : Sign) :
    (ofSignMagnitude s n).value = s.apply n := by
  have fits : n < 0x40000000 := Nat.lt_succ_of_le short
  rw [value, sign_ofSignMagnitude, magnitude_ofSignMagnitude, Nat.mod_eq_of_lt fits]

/-- A number within thirty bits is kept by its sign and its size, whatever sign its
zero is given. -/
theorem value_of_natAbs {v : Int} (short : v.natAbs < 0x40000000) (zeroSign : Sign) :
    (ofSignMagnitude (if v = 0 then zeroSign else Sign.of v) v.natAbs).value = v := by
  rw [value_ofSignMagnitude (Nat.le_of_lt_succ short), Sign.apply_natAbs]

/-- A natural number is kept by its size, with a plus sign or, for zero, any sign. -/
theorem value_of_natCast (short : n < 0x40000000) (zeroSign : Sign) :
    (ofSignMagnitude (if n = 0 then zeroSign else .plus) n).value = n := by
  have exact := value_of_natAbs (v := (n : Int)) short zeroSign
  simpa only [Int.natCast_eq_zero, Sign.of_natCast, Int.natAbs_natCast] using exact

theorem value_plus (short : n < 0x40000000) : (ofSignMagnitude .plus n).value = n :=
  value_ofSignMagnitude (Nat.le_of_lt_succ short) .plus

/-- Words that stand for one number have one magnitude, and one sign unless they are zeros. -/
theorem value_eq_iff (v w : Word) :
    v.value = w.value ↔ v.canonical = w.canonical ∨ (v.isZero = true ∧ w.isZero = true) := by
  constructor
  · intro same
    have magnitude : v.magnitude = w.magnitude := by rw [← natAbs_value, same, natAbs_value]
    by_cases zero : w.value = 0
    · exact .inr ⟨v.isZero_iff.2 (same.trans zero), w.isZero_iff.2 zero⟩
    · have nonzero : ¬ w.magnitude = 0 := mt w.value_eq_zero_iff.2 zero
      have sign := congrArg Sign.of same
      rw [value, value, Sign.of_apply, Sign.of_apply, magnitude, if_neg nonzero,
        if_neg nonzero] at sign
      exact .inl (by rw [canonical, canonical, sign, magnitude])
  · rintro (bits | ⟨zero, zero'⟩)
    · rw [← value_canonical, bits, value_canonical]
    · rw [v.isZero_iff.1 zero, w.isZero_iff.1 zero']

/-! ## The word of a number -/

theorem ofInt_eq_ok_iff {v : Int} :
    ofInt v = .ok w ↔ v.natAbs ≤ maxMagnitude ∧ ofSignMagnitude (Sign.of v) v.natAbs = w := by
  unfold ofInt
  split
  · rename_i long
    exact iff_of_false nofun fun short => Nat.not_lt.2 short.1 long
  · rename_i short
    rw [Except.ok.injEq]
    exact (and_iff_right (Nat.not_lt.1 short)).symm

/-- The word of a number stands for it. -/
theorem value_of_ofInt {v : Int} (made : ofInt v = .ok w) : w.value = v := by
  obtain ⟨short, rfl⟩ := ofInt_eq_ok_iff.1 made
  rw [value_ofSignMagnitude short, Sign.of_apply_natAbs]

theorem ofInt_natCast (short : n ≤ maxMagnitude) :
    ofInt n = .ok (ofSignMagnitude .plus n) := by
  rw [ofInt_eq_ok_iff, Sign.of_natCast]
  exact ⟨short, rfl⟩

/-- **A word comes back from its number** without bit 31, and with a plus sign if it is zero. -/
theorem ofInt_value (w : Word) :
    ofInt w.value =
      .ok (if w.canonical = zero.negate then zero else w.canonical) := by
  rw [ofInt_eq_ok_iff, natAbs_value, value, Sign.of_apply]
  refine ⟨Nat.le_of_lt_succ w.magnitude_lt, ?_⟩
  by_cases empty : w.magnitude = 0
  · have made : w.canonical = ofSignMagnitude w.sign 0 := by rw [canonical, empty]
    rw [if_pos empty, made, empty]
    cases w.sign <;> rfl
  · have other : ¬ w.canonical = zero.negate := fun minusZero => by
      apply empty
      rw [← magnitude_canonical, minusZero]
      rfl
    rw [if_neg empty, if_neg other, canonical]

/-! ## What is built again from which view -/

/-- **What the views of a word show.** The sign is packed in front of the thirty bits of the
magnitude. A proper word is built again from its sign and its five bytes, and these are any sign
and any five bytes of six bits; a byte that has more counts as zero. A proper word is also built
again from its sign and its magnitude, which are any sign and any thirty bits, and the bytes are
the digits of the magnitude to the base 64. A number is that of a word exactly when it is within
thirty bits, and a word comes back from its number, but for negative zero, which comes back as
zero. So two words stand for one number exactly when they are equal up to bit 31 and up to the
sign of zero. -/
theorem views_inverse :
    ((∀ w : Word, w.sign = Sign.ofBit (w.bits.toNat >>> 30)) ∧
      (∀ w : Word, w.magnitude = w.bits.toNat &&& 0x3FFFFFFF) ∧
      ∀ (s : Sign) (m : Nat),
        (ofSignMagnitude s m).bits.toNat = s.bit <<< 30 ||| (m &&& 0x3FFFFFFF)) ∧
    ((∀ w : Word, w.Proper → ofBytes w.sign w.bytes = w) ∧
      (∀ w : Word, w.bytes.length = 5 ∧ ∀ b ∈ w.bytes, b ≤ 63) ∧
      (∀ (s : Sign) (bytes : List Nat), bytes.length = 5 → (∀ b ∈ bytes, b ≤ 63) →
        (ofBytes s bytes).Proper ∧ (ofBytes s bytes).sign = s ∧
          (ofBytes s bytes).bytes = bytes) ∧
      ∀ (s : Sign) (bytes : List Nat),
        ofBytes s bytes = ofBytes s (bytes.map fun b => if b > 63 then 0 else b)) ∧
    ((∀ w : Word, w.Proper → ofSignMagnitude w.sign w.magnitude = w) ∧
      (∀ w : Word, w.magnitude < 2 ^ 30) ∧
      (∀ (s : Sign) (m : Nat), m < 2 ^ 30 →
        (ofSignMagnitude s m).Proper ∧ (ofSignMagnitude s m).sign = s ∧
          (ofSignMagnitude s m).magnitude = m) ∧
      ∀ (w : Word) (b₁ b₂ b₃ b₄ b₅ : Nat), w.bytes = [b₁, b₂, b₃, b₄, b₅] →
        w.magnitude = b₁ * 64 ^ 4 + b₂ * 64 ^ 3 + b₃ * 64 ^ 2 + b₄ * 64 + b₅) ∧
    ((∀ v : Int, (∃ w, ofInt v = .ok w) ↔ v.natAbs ≤ 2 ^ 30 - 1) ∧
      (∀ (v : Int) (w : Word), ofInt v = .ok w → w.Proper ∧ w.value = v) ∧
      (∀ w : Word, w.Proper → ofInt w.value = .ok (if w = zero.negate then zero else w)) ∧
      ∀ v w : Word, v.value = w.value ↔
        ofBits v.bits.toNat = ofBits w.bits.toNat ∨ (v.isZero = true ∧ w.isZero = true)) := by
  refine ⟨⟨sign_eq_shiftRight, magnitude_eq_and, toNat_bits_ofSignMagnitude_eq_or⟩,
    ⟨?_, ?_, ?_, ?_⟩, ⟨?_, magnitude_lt, ?_, ?_⟩, ⟨?_, ?_, ?_, ?_⟩⟩
  · intro w proper
    rw [ofBytes_bytes, proper.canonical_eq]
  · intro w
    exact ⟨w.length_bytes, fun b member => Nat.le_of_lt_succ (w.bytes_lt b member)⟩
  · intro s bytes five fit
    exact ⟨proper_ofBytes s bytes, sign_ofBytes s bytes,
      bytes_ofBytes s five fun b member => Nat.lt_succ_of_le (fit b member)⟩
  · intro s bytes
    exact congrArg (ofSignMagnitude s) (magnitudeOfBytes_map_clampByte bytes).symm
  · intro w proper
    exact proper.canonical_eq
  · intro s m short
    exact ⟨proper_ofSignMagnitude s m, sign_ofSignMagnitude s m,
      (magnitude_ofSignMagnitude s m).trans (Nat.mod_eq_of_lt short)⟩
  · intro w b₁ b₂ b₃ b₄ b₅ shown
    have fit := w.bytes_lt
    have digits := w.magnitudeOfBytes_bytes
    rw [shown] at fit digits
    simp only [List.forall_mem_cons] at fit
    obtain ⟨fit₁, fit₂, fit₃, fit₄, fit₅, -⟩ := fit
    rw [← digits, magnitudeOfBytes_of_lt fit₁ fit₂ fit₃ fit₄ fit₅]
    omega
  · intro v
    simp only [ofInt_eq_ok_iff, exists_and_left, exists_eq', and_true]
    rfl
  · intro v w made
    refine ⟨?_, value_of_ofInt made⟩
    obtain ⟨-, rfl⟩ := ofInt_eq_ok_iff.1 made
    exact proper_ofSignMagnitude _ _
  · intro w proper
    rw [ofInt_value, proper.canonical_eq]
  · intro v w
    rw [← canonical_eq_ofBits, ← canonical_eq_ofBits]
    exact value_eq_iff v w

/-- Negative zero from its sign and bytes and from its number, bytes and a magnitude at their
limits, the smallest number of a word, and the smallest of 64 bits, which has no word. -/
theorem views_inverse_minus_zero :
    ofBytes zero.negate.sign zero.negate.bytes = zero.negate ∧
      ofInt zero.negate.value = .ok zero ∧
      (ofBytes .minus [63, 0, 2, 0, 63]).bytes = [63, 0, 2, 0, 63] ∧
      (Word.mk 0xFF00203F).magnitude = 63 * 64 ^ 4 + 0 * 64 ^ 3 + 2 * 64 ^ 2 + 0 * 64 + 63 ∧
      (ofSignMagnitude .minus 0x3FFFFFFF).magnitude = 0x3FFFFFFF ∧
      (ofSignMagnitude .minus 0x3FFFFFFF).value = -0x3FFFFFFF ∧
      ¬ ∃ w, ofInt (-0x8000000000000000) = .ok w := by
  obtain ⟨-, ⟨composed, -, decomposed, -⟩, ⟨-, -, split, digits⟩, exists_iff, made, back, -⟩ :=
    views_inverse
  exact ⟨composed _ (by decide), back zero.negate (by decide),
    (decomposed .minus [63, 0, 2, 0, 63] rfl (by decide)).2.2,
    digits ⟨0xFF00203F⟩ 63 0 2 0 63 (by decide),
    (split .minus 0x3FFFFFFF (by decide)).2.2,
    (made (-0x3FFFFFFF) (ofSignMagnitude .minus 0x3FFFFFFF) rfl).2,
    mt (exists_iff (-0x8000000000000000)).1 (by decide)⟩

end Word

end MixMachine
