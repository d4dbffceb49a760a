import MixMachine.Word.Basic

/-!
# A word is its sign and its bytes

A proper word is built anew from its sign and its magnitude, and the magnitude from the
five bytes. Bytes that fit are not clamped, so the magnitude of five of them is the number
that they are the digits of.

* `Word.Proper.ext`, `Word.Proper.ext_byte`: a proper word is its sign and its magnitude, or its
  bytes.
* `Word.magnitudeOfBytes_of_lt`: the number that five bytes are the digits of.
* `Word.magnitudeOfBytes_append`: the number of bytes in front of others.
* `Word.ofBytes_bytes`, `Word.bytes_ofBytes`: a word is built from its bytes, bit 31 apart, and
  five bytes are those of the word that is built from them.
-/

namespace MixMachine.Word

/-- A proper word is its sign and its magnitude. -/
theorem Proper.ext {v w : Word} (hv : v.Proper) (hw : w.Proper) (sign : v.sign = w.sign)
    (magnitude : v.magnitude = w.magnitude) : v = w := by
  rw [← hv.canonical_eq, ← hw.canonical_eq, canonical, canonical, sign, magnitude]

theorem byte_lt (w : Word) (i : Nat) : w.byte i < 64 :=
  Nat.mod_lt _ (by decide)

/-- A byte that fits is not clamped. -/
theorem clampByte_of_lt {b : Nat} (fits : b < 64) : clampByte b = b :=
  if_neg (Nat.not_lt.2 (Nat.le_of_lt_succ fits))

theorem clampByte_lt (b : Nat) : clampByte b < 64 := by
  unfold clampByte byteMax
  split <;> omega

/-- Five bytes that fit are the digits of a magnitude. -/
theorem magnitudeOfBytes_of_lt {b₁ b₂ b₃ b₄ b₅ : Nat} (h₁ : b₁ < 64) (h₂ : b₂ < 64)
    (h₃ : b₃ < 64) (h₄ : b₄ < 64) (h₅ : b₅ < 64) :
    magnitudeOfBytes [b₁, b₂, b₃, b₄, b₅] =
      16777216 * b₁ + 262144 * b₂ + 4096 * b₃ + 64 * b₄ + b₅ := by
  simp only [magnitudeOfBytes, List.foldl_cons, List.foldl_nil, clampByte_of_lt, *]
  omega

/-- The bytes of a word are the digits of its magnitude. -/
theorem magnitudeOfBytes_bytes (w : Word) : magnitudeOfBytes w.bytes = w.magnitude := by
  have short := w.magnitude_lt
  have byte1 : w.byte 1 = w.magnitude / 16777216 % 64 := rfl
  have byte2 : w.byte 2 = w.magnitude / 262144 % 64 := rfl
  have byte3 : w.byte 3 = w.magnitude / 4096 % 64 := rfl
  have byte4 : w.byte 4 = w.magnitude / 64 % 64 := rfl
  have byte5 : w.byte 5 = w.magnitude / 1 % 64 := rfl
  rw [bytes, magnitudeOfBytes_of_lt (w.byte_lt 1) (w.byte_lt 2) (w.byte_lt 3) (w.byte_lt 4)
    (w.byte_lt 5)]
  omega

/-- **A word is built from its sign and its bytes**, bit 31 apart. -/
theorem ofBytes_bytes (w : Word) : ofBytes w.sign w.bytes = w.canonical := by
  rw [ofBytes, magnitudeOfBytes_bytes, canonical]

/-- The bytes of a word determine its magnitude. -/
theorem magnitude_congr_byte {v w : Word} (same : ∀ k, 1 ≤ k → k ≤ 5 → v.byte k = w.byte k) :
    v.magnitude = w.magnitude := by
  have bytes : v.bytes = w.bytes := by
    unfold bytes
    rw [same 1 (by decide) (by decide), same 2 (by decide) (by decide),
      same 3 (by decide) (by decide), same 4 (by decide) (by decide),
      same 5 (by decide) (by decide)]
  rw [← magnitudeOfBytes_bytes, bytes, magnitudeOfBytes_bytes]

/-- A proper word is its sign and its bytes. -/
theorem Proper.ext_byte {v w : Word} (hv : v.Proper) (hw : w.Proper) (sign : v.sign = w.sign)
    (same : ∀ k, 1 ≤ k → k ≤ 5 → v.byte k = w.byte k) : v = w :=
  hv.ext hw sign (magnitude_congr_byte same)

/-! ## Bytes in front of others -/

/-- A number that bytes are read behind has the place value of all of them. -/
theorem foldl_clampByte (front : Nat) (bytes : List Nat) :
    bytes.foldl (fun m b => 64 * m + clampByte b) front =
      placeValue bytes.length * front + magnitudeOfBytes bytes := by
  induction bytes generalizing front with
  | nil => exact (Nat.one_mul front).symm
  | cons b bytes ih =>
      have number : magnitudeOfBytes (b :: bytes) =
          placeValue bytes.length * clampByte b + magnitudeOfBytes bytes := by
        rw [magnitudeOfBytes, List.foldl_cons, ih, Nat.mul_zero, Nat.zero_add]
      rw [List.foldl_cons, ih, number, List.length_cons, placeValue, Nat.mul_add,
        ← Nat.mul_assoc, Nat.mul_comm 64, Nat.add_assoc]

/-- **Bytes in front of others** stand for their number at the place where the others begin. -/
theorem magnitudeOfBytes_append (front back : List Nat) :
    magnitudeOfBytes (front ++ back) =
      placeValue back.length * magnitudeOfBytes front + magnitudeOfBytes back := by
  rw [magnitudeOfBytes, List.foldl_append, foldl_clampByte]
  rfl

/-- Bytes stand for what is left of them when those that do not fit are zeros. -/
theorem magnitudeOfBytes_map_clampByte (bytes : List Nat) :
    magnitudeOfBytes (bytes.map clampByte) = magnitudeOfBytes bytes := by
  unfold magnitudeOfBytes
  simp only [List.foldl_map, clampByte_of_lt (clampByte_lt _)]

/-- Zero bytes stand for nothing. -/
theorem magnitudeOfBytes_zeros (n : Nat) : magnitudeOfBytes (List.replicate n 0) = 0 := by
  induction n with
  | zero => rfl
  | succ n ih => exact ih

/-- A number below `c` in front of which another one below `d` stands. -/
theorem mul_add_lt {a c d r : Nat} (high : a < d) (low : r < c) : c * a + r < c * d := by
  calc c * a + r < c * a + c := Nat.add_lt_add_left low _
    _ = c * (a + 1) := rfl
    _ ≤ c * d := Nat.mul_le_mul_left c high

/-- Bytes stand for a number below the place value of as many bytes. -/
theorem magnitudeOfBytes_lt (bytes : List Nat) :
    magnitudeOfBytes bytes < placeValue bytes.length := by
  induction bytes with
  | nil => decide
  | cons b bytes ih =>
      have byte : magnitudeOfBytes [b] < 64 := by
        show 64 * 0 + clampByte b < 64
        rw [Nat.mul_zero, Nat.zero_add]
        exact clampByte_lt b
      have whole := magnitudeOfBytes_append [b] bytes
      rw [List.singleton_append] at whole
      rw [whole, List.length_cons, placeValue, Nat.mul_comm 64]
      exact mul_add_lt byte ih

/-! ## Words of bytes -/

theorem magnitude_ofBytes (s : Sign) {bytes : List Nat} (five : bytes.length = 5) :
    (ofBytes s bytes).magnitude = magnitudeOfBytes bytes := by
  have short := magnitudeOfBytes_lt bytes
  rw [five] at short
  exact (magnitude_ofSignMagnitude _ _).trans (Nat.mod_eq_of_lt short)

theorem sign_ofBytes (s : Sign) (bytes : List Nat) : (ofBytes s bytes).sign = s :=
  sign_ofSignMagnitude _ _

theorem proper_ofBytes (s : Sign) (bytes : List Nat) : (ofBytes s bytes).Proper :=
  proper_ofSignMagnitude _ _

/-- A word is made of its sign and its bytes exactly when it is proper. -/
theorem proper_iff_eq_ofBytes (w : Word) : w.Proper ↔ w = ofBytes w.sign w.bytes := by
  constructor
  · intro proper
    rw [ofBytes_bytes, proper.canonical_eq]
  · intro same
    rw [same]
    exact proper_ofBytes _ _

/-- Five bytes that fit are the bytes of their word. -/
theorem bytes_ofBytes (s : Sign) {bytes : List Nat} (five : bytes.length = 5)
    (fit : ∀ b ∈ bytes, b < 64) : (ofBytes s bytes).bytes = bytes := by
  have magnitude := magnitude_ofBytes s five
  generalize ofBytes s bytes = w at magnitude
  have byte1 : w.byte 1 = w.magnitude / 16777216 % 64 := rfl
  have byte2 : w.byte 2 = w.magnitude / 262144 % 64 := rfl
  have byte3 : w.byte 3 = w.magnitude / 4096 % 64 := rfl
  have byte4 : w.byte 4 = w.magnitude / 64 % 64 := rfl
  have byte5 : w.byte 5 = w.magnitude / 1 % 64 := rfl
  match bytes, five, fit with
  | [b₁, b₂, b₃, b₄, b₅], _, fit =>
      simp only [List.forall_mem_cons] at fit
      obtain ⟨fit₁, fit₂, fit₃, fit₄, fit₅, -⟩ := fit
      rw [magnitudeOfBytes_of_lt fit₁ fit₂ fit₃ fit₄ fit₅] at magnitude
      simp only [Word.bytes, List.cons.injEq, and_true]
      omega

theorem length_bytes (w : Word) : w.bytes.length = 5 := rfl

theorem bytes_lt (w : Word) : ∀ b ∈ w.bytes, b < 64 := by
  unfold bytes
  simp only [List.forall_mem_cons, w.byte_lt, List.not_mem_nil, false_implies, implies_true,
    and_self]

end MixMachine.Word
