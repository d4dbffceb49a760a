import Mathlib.Data.List.Forall2
import MixMachine.Proofs.Checks
import MixMachine.Proofs.WordText
import MixMachine.Proofs.WordViews

/-!
# The two notations of words

A word is written as a number or as a sign and five bytes, and a text is read in the one or the
other notation by the count of its words of text. Both notations are told here apart from the
reader: a number is a numeral with at most one sign, and so is a byte, whose sign may only be a
plus. The reader accepts exactly these texts. The sign of a number is that of its text, so that
both zeros can be written, and no text is taken for a number that its value is too large for.

* `Decimal.SignedNumeral`: a numeral with at most one sign in front.
* `Decimal.signed?_of_signedNumeral`, `Decimal.unsigned?_eq_some_iff`: how numbers are read.
* `Word.parseNumber_eq_ok_iff`, `Word.parseBytes_eq_ok_iff`: the two notations.
* `Word.parse_eq_ofInt`: the number that an integer is written as.
* `Word.reads_two_notations`: what is read, by the count of the words of the text.
-/

namespace MixMachine

/-! ## Numerals with a sign -/

namespace Decimal

variable {cs : List Char} {n : Nat} {s : Sign} {v : Int}

/-- A text of ASCII digits, at least one, and the number that they are the digits of. -/
structure Numeral (cs : List Char) (n : Nat) : Prop where
  ne_nil : cs ≠ []
  digits : ∀ c ∈ cs, '0' ≤ c ∧ c ≤ '9'
  number : Nat.ofDigitChars 10 cs 0 = n

theorem natural?_eq_some_iff : natural? cs = some n ↔ Numeral cs n := by
  have digit : ∀ c : Char, c.isDigit = true ↔ '0' ≤ c ∧ c ≤ '9' := by
    intro c
    simp only [Char.isDigit, Bool.and_eq_true, decide_eq_true_eq, ge_iff_le]
    rfl
  unfold natural?
  rw [Option.ite_none_right_eq_some, List.all_eq_true]
  simp only [digit, Option.some.injEq]
  exact ⟨fun h => ⟨h.1.1, h.1.2, h.2⟩, fun h => ⟨⟨h.ne_nil, h.digits⟩, h.number⟩⟩

/-- A numeral with at most one sign in front of it. Without one it counts as positive. -/
inductive SignedNumeral : List Char → Sign → Nat → Prop
  | unsigned {cs : List Char} {n : Nat} : Numeral cs n → SignedNumeral cs .plus n
  | plus {cs : List Char} {n : Nat} : Numeral cs n → SignedNumeral ('+' :: cs) .plus n
  | minus {cs : List Char} {n : Nat} : Numeral cs n → SignedNumeral ('-' :: cs) .minus n

theorem Numeral.ne_cons (h : Numeral cs n) {c : Char} (other : c.isDigit = false)
    (rest : List Char) : cs ≠ c :: rest :=
  ne_cons_of_natural? (natural?_eq_some_iff.2 h) other rest

/-- A signed numeral starts with a minus sign exactly when its sign is minus. -/
theorem SignedNumeral.head?_eq_minus_iff (h : SignedNumeral cs s n) :
    cs.head? = some '-' ↔ s = .minus := by
  cases h with
  | unsigned numeral =>
      have noSign : cs.head? ≠ some '-' := fun head => by
        obtain ⟨rest, whole⟩ := List.head?_eq_some_iff.1 head
        exact numeral.ne_cons rfl rest whole
      simp only [noSign, reduceCtorEq]
  | plus numeral => simp only [List.head?_cons, Option.some.injEq, Char.reduceEq, reduceCtorEq]
  | minus numeral => exact iff_of_true rfl rfl

/-- A signed numeral has no white space. -/
theorem SignedNumeral.solid (h : SignedNumeral cs s n) : Text.Solid cs := by
  have numeral : ∀ {cs}, Numeral cs n → Text.Solid cs := fun numeral =>
    solid_of_natural? (natural?_eq_some_iff.2 numeral)
  cases h with
  | unsigned digits => exact numeral digits
  | plus digits | minus digits =>
      exact ⟨List.cons_ne_nil _ _, List.forall_mem_cons.2 ⟨by decide, (numeral digits).free⟩⟩

/-- A signed numeral is read as its number, when that has 64 bits. -/
theorem signed?_of_signedNumeral (h : SignedNumeral cs s n) :
    signed? cs = if InRange64 (s.apply n) then some (s.apply n) else none := by
  have read : ∀ v : Int, Option.filter (fun v => decide (InRange64 v)) (some v) =
      if InRange64 v then some v else none := by
    intro v
    rw [Option.filter_some]
    simp only [decide_eq_true_eq]
  unfold signed?
  cases h with
  | unsigned numeral =>
      split
      · exact absurd rfl (numeral.ne_cons rfl _)
      · exact absurd rfl (numeral.ne_cons rfl _)
      · rw [natural?_eq_some_iff.2 numeral]
        exact read n
  | plus numeral | minus numeral =>
      show Option.filter _ (Option.map _ (natural? _ >>= _)) = _
      rw [natural?_eq_some_iff.2 numeral]
      exact read _

/-- What is read as a signed number is a signed numeral. -/
theorem exists_of_signed? (h : signed? cs = some v) :
    ∃ s n, SignedNumeral cs s n ∧ s.apply n = v := by
  unfold signed? at h
  obtain ⟨read, -⟩ := Option.filter_eq_some_iff.1 h
  split at read
  all_goals
    obtain ⟨_, number, rfl⟩ := Option.map_eq_some_iff.1 read
    obtain ⟨n, digits, same⟩ := Option.bind_eq_some_iff.1 number
    cases same
  · exact ⟨.plus, n, .plus (natural?_eq_some_iff.1 digits), rfl⟩
  · exact ⟨.minus, n, .minus (natural?_eq_some_iff.1 digits), rfl⟩
  · exact ⟨.plus, n, .unsigned (natural?_eq_some_iff.1 digits), rfl⟩

/-- What is read as an unsigned number is a signed numeral without a minus sign. -/
theorem unsigned?_eq_some_iff {limit : Nat} :
    unsigned? limit cs = some n ↔ SignedNumeral cs .plus n ∧ n ≤ limit := by
  unfold unsigned?
  rw [Option.filter_eq_some_iff, decide_eq_true_iff]
  refine and_congr_left fun _ => ?_
  split
  · rw [natural?_eq_some_iff]
    constructor
    · exact .plus
    · intro signed
      cases signed with
      | unsigned numeral => exact absurd rfl (numeral.ne_cons rfl _)
      | plus numeral => exact numeral
  · rename_i noSign
    rw [natural?_eq_some_iff]
    constructor
    · exact .unsigned
    · intro signed
      cases signed with
      | unsigned numeral => exact numeral
      | plus numeral => exact absurd rfl (noSign _)

/-- The text of an integer is a signed numeral of it. -/
theorem signedNumeral_integer (v : Int) :
    SignedNumeral (integer v).toList (Sign.of v) v.natAbs := by
  have numeral : Numeral (digits v.natAbs) v.natAbs := natural?_eq_some_iff.1 (natural?_digits _)
  rw [toList_integer]
  unfold Sign.of
  split
  · exact .minus numeral
  · exact .unsigned numeral

end Decimal

/-- A list of checks passes with the answers of its checks. -/
theorem mapM_eq_ok_iff {ε α β : Type} {f : α → Except ε β} {xs : List α} {ys : List β} :
    xs.mapM f = .ok ys ↔ List.Forall₂ (fun x y => f x = .ok y) xs ys := by
  constructor
  · intro passed
    induction xs generalizing ys with
    | nil =>
        cases passed
        exact .nil
    | cons x xs ih =>
        rw [List.mapM_cons] at passed
        obtain ⟨y, first, rest⟩ := bind_eq_ok passed
        obtain ⟨zs, others, same⟩ := bind_eq_ok rest
        cases same
        exact .cons first (ih others)
  · intro passed
    induction passed with
    | nil => rfl
    | cons first _ ih =>
        rw [List.mapM_cons, first, ih]
        rfl

theorem Sign.ofChar?_eq_some_iff {c : Char} {s : Sign} : ofChar? c = some s ↔ c = s.char := by
  constructor
  · intro read
    unfold ofChar? at read
    split at read
    · cases read
      assumption
    · split at read
      · cases read
        assumption
      · cases read
  · rintro rfl
    exact ofChar?_char s

namespace Word

open Decimal

variable {cs : List Char} {w : Word} {s : Sign} {n b : Nat} {v : Int}

/-! ## The notation as a number -/

/-- Only a zero has to be told its sign. -/
theorem ofSignMagnitude_of_apply (s : Sign) (n : Nat) :
    (if s.apply n = 0 ∧ s = .minus then (ofSignMagnitude (Sign.of (s.apply n)) n).negate
      else ofSignMagnitude (Sign.of (s.apply n)) n) = ofSignMagnitude s n := by
  have size : s.apply n = 0 ↔ n = 0 := by rw [← Int.natAbs_eq_zero, Sign.natAbs_apply]
  rw [Sign.of_apply]
  by_cases zero : n = 0
  · rw [if_pos zero, negate_ofSignMagnitude]
    cases s with
    | plus => exact if_neg fun minus => Sign.noConfusion minus.2
    | minus => exact if_pos ⟨size.2 zero, rfl⟩
  · rw [if_neg zero, if_neg fun both => zero (size.1 both.1)]

/-- **A signed numeral is read as the word with its sign and its number**, when thirty bits hold
that, and is too large when they do not. -/
theorem parseNumber_of_signedNumeral (h : SignedNumeral cs s n) (range : InRange64 (s.apply n)) :
    parseNumber cs =
      if n ≤ maxMagnitude then .ok (ofSignMagnitude s n)
      else .error (.magnitudeOverflow (s.apply n)) := by
  unfold parseNumber
  rw [signed?_of_signedNumeral h, if_pos range]
  dsimp only
  rw [ofInt, Sign.natAbs_apply]
  by_cases short : n ≤ maxMagnitude
  · simp only [if_pos short, if_neg (Nat.not_lt.2 short), h.head?_eq_minus_iff]
    exact congrArg Except.ok (ofSignMagnitude_of_apply s n)
  · rw [if_neg short, if_pos (Nat.not_le.1 short)]
    rfl

theorem inRange64_of_le (short : n ≤ maxMagnitude) (s : Sign) : InRange64 (s.apply n) := by
  have limit : maxMagnitude = 0x3FFFFFFF := rfl
  unfold InRange64 Sign.apply
  cases s <;> dsimp only <;> omega

/-- **What is read as a number.** -/
theorem parseNumber_eq_ok_iff :
    parseNumber cs = .ok w ↔
      ∃ s n, SignedNumeral cs s n ∧ n ≤ maxMagnitude ∧ w = ofSignMagnitude s n := by
  constructor
  · intro read
    cases number : signed? cs with
    | none =>
        unfold parseNumber at read
        rw [number] at read
        cases read
    | some v =>
        obtain ⟨s, n, signed, rfl⟩ := exists_of_signed? number
        have range : InRange64 (s.apply n) := by
          by_contra outside
          rw [signed?_of_signedNumeral signed, if_neg outside] at number
          cases number
        rw [parseNumber_of_signedNumeral signed range] at read
        split at read
        · cases read
          exact ⟨s, n, signed, by assumption, rfl⟩
        · cases read
  · rintro ⟨s, n, signed, short, rfl⟩
    rw [parseNumber_of_signedNumeral signed (inRange64_of_le short s), if_pos short]

/-! ## The notation as a sign and bytes -/

/-- A byte is written as a numeral, with a plus sign or none. -/
theorem parseByte_eq_ok_iff : parseByte cs = .ok b ↔ SignedNumeral cs .plus b ∧ b ≤ 63 := by
  unfold parseByte
  constructor
  · intro read
    split at read
    · cases read
    · rename_i c number
      split at read
      · cases read
      · rename_i small
        cases read
        exact ⟨(unsigned?_eq_some_iff.1 number).1, Nat.not_lt.1 small⟩
  · rintro ⟨signed, small⟩
    rw [unsigned?_eq_some_iff.2 ⟨signed, by omega⟩]
    exact if_neg (Nat.not_lt.2 small)

/-- The text is written as a sign and five bytes. -/
structure WrittenBytes (cs : List Char) (s : Sign) (bytes : List Nat) : Prop where
  sign : cs.head? = some s.char
  five : (Text.words cs.tail).length = 5
  numerals : List.Forall₂ (fun field b => SignedNumeral field .plus b ∧ b ≤ 63)
    (Text.words cs.tail) bytes

/-- **What is read as a sign and bytes.** -/
theorem parseBytes_eq_ok_iff :
    parseBytes cs = .ok w ↔ ∃ s bytes, WrittenBytes cs s bytes ∧ w = ofBytes s bytes := by
  have fields : ∀ {rest : List Char} {bytes : List Nat},
      (Text.words rest).mapM parseByte = .ok bytes ↔
        List.Forall₂ (fun field b => SignedNumeral field .plus b ∧ b ≤ 63)
          (Text.words rest) bytes := by
    intro rest bytes
    rw [mapM_eq_ok_iff]
    simp only [parseByte_eq_ok_iff]
  constructor
  · intro read
    unfold parseBytes at read
    split at read
    · cases read
    · split at read
      · cases read
      · rename_i s sign
        dsimp only at read
        split at read
        · rename_i five
          obtain ⟨bytes, numerals, same⟩ := bind_eq_ok read
          cases same
          refine ⟨s, bytes, ⟨?_, five, fields.1 numerals⟩, rfl⟩
          rw [Sign.ofChar?_eq_some_iff.1 sign]
          rfl
        · cases read
  · rintro ⟨s, bytes, ⟨sign, five, numerals⟩, rfl⟩
    obtain ⟨rest, rfl⟩ := List.head?_eq_some_iff.1 sign
    rw [List.tail_cons] at five numerals
    unfold parseBytes
    dsimp only
    rw [Sign.ofChar?_char]
    dsimp only
    rw [if_pos five, fields.2 numerals]
    rfl

/-! ## Both notations -/

/-- **The text of an integer is read as the word of the integer**, or refused for the same
reason as the integer. -/
theorem parse_eq_ofInt (range : InRange64 v) : parse (integer v).toList = ofInt v := by
  have signed := signedNumeral_integer v
  have number := Sign.of_apply_natAbs v
  have single : ¬ (Text.words (integer v).toList).length > 1 := by
    rw [signed.solid.words]
    exact Nat.lt_irrefl 1
  unfold parse
  dsimp only
  rw [signed.solid.trim, if_neg single,
    parseNumber_of_signedNumeral signed (by rw [number]; exact range), number, ofInt]
  by_cases short : v.natAbs ≤ maxMagnitude
  · rw [if_pos short, if_neg (Nat.not_lt.2 short)]
  · rw [if_neg short, if_pos (Nat.not_le.1 short)]

/-- **Words are read in exactly two notations**, and the count of the words of the trimmed text
tells which. A text of one word or none is read when it is a signed numeral of at most thirty
bits, as the word of its number, whose sign is minus exactly when the text starts with a minus
sign. A longer text is read when it is written as a sign and five bytes of six bits, as the word
that is composed of them. So a proper word is read back from its written form, and an integer of
64 bits from its own, with the answer that converting it gives. -/
theorem reads_two_notations (cs : List Char) :
    ((Text.words (Text.trim cs)).length ≤ 1 →
      (∀ w, parse cs = .ok w ↔
        ∃ s n, SignedNumeral (Text.trim cs) s n ∧ n ≤ maxMagnitude ∧
          w = ofSignMagnitude s n ∧ w.value = s.apply n) ∧
      ∀ w, parse cs = .ok w → (w.sign = .minus ↔ (Text.trim cs).head? = some '-')) ∧
    (2 ≤ (Text.words (Text.trim cs)).length →
      ∀ w, parse cs = .ok w ↔
        ∃ s bytes, WrittenBytes (Text.trim cs) s bytes ∧ w = ofBytes s bytes) ∧
    (∀ w : Word, w.Proper → parse w.text.toList = .ok w) ∧
    ∀ v, InRange64 v → parse (integer v).toList = ofInt v := by
  refine ⟨?_, ?_, ?_, fun v => parse_eq_ofInt⟩
  · intro few
    have number : parse cs = parseNumber (Text.trim cs) := by
      unfold parse
      exact if_neg (Nat.not_lt.2 few)
    constructor
    · intro w
      rw [number, parseNumber_eq_ok_iff]
      constructor
      · rintro ⟨s, n, signed, short, rfl⟩
        exact ⟨s, n, signed, short, rfl, value_ofSignMagnitude short s⟩
      · rintro ⟨s, n, signed, short, same, -⟩
        exact ⟨s, n, signed, short, same⟩
    · intro w read
      rw [number] at read
      obtain ⟨s, n, signed, -, rfl⟩ := parseNumber_eq_ok_iff.1 read
      rw [sign_ofSignMagnitude, signed.head?_eq_minus_iff]
  · intro many w
    have longer : (Text.words (Text.trim cs)).length > 1 := many
    unfold parse
    dsimp only
    rw [if_pos longer, parseBytes_eq_ok_iff]
  · intro w proper
    rw [parse_text_canonical, proper.canonical_eq]

/-- A negative zero between no-break spaces, bytes with superfluous signs and zeros, a word by
its written form, and an integer of 64 bits that is no word. -/
theorem reads_two_notations_minus_zero :
    parse "\u00a0-00\u00a0".toList = .ok zero.negate ∧
    parse "-1 +2 003\t4 63".toList = .ok (ofBytes .minus [1, 2, 3, 4, 63]) ∧
    parse (Word.mk 0x7FFFFFFF).text.toList = .ok ⟨0x7FFFFFFF⟩ ∧
    parse (integer (-0x8000000000000000)).toList =
      .error (.magnitudeOverflow (-0x8000000000000000)) := by
  obtain ⟨few, -⟩ := reads_two_notations "\u00a0-00\u00a0".toList
  obtain ⟨-, many, texts, integers⟩ := reads_two_notations "-1 +2 003\t4 63".toList
  have zeros : Numeral ['0', '0'] 0 := natural?_eq_some_iff.1 (by decide)
  have byte : ∀ {cs b}, natural? cs = some b → b ≤ 63 → SignedNumeral cs .plus b ∧ b ≤ 63 :=
    fun read small => ⟨.unsigned (natural?_eq_some_iff.1 read), small⟩
  have two : SignedNumeral ['+', '2'] .plus 2 := .plus (natural?_eq_some_iff.1 (by decide))
  have fields : Text.words (Text.trim "-1 +2 003\t4 63".toList).tail =
      [['1'], ['+', '2'], ['0', '0', '3'], ['4'], ['6', '3']] := by decide
  have written : WrittenBytes (Text.trim "-1 +2 003\t4 63".toList) .minus [1, 2, 3, 4, 63] := by
    refine ⟨by decide, by decide, ?_⟩
    rw [fields]
    exact .cons (byte (by decide) (by decide)) (.cons ⟨two, by decide⟩
      (.cons (byte (by decide) (by decide)) (.cons (byte (by decide) (by decide))
        (.cons (byte (by decide) (by decide)) .nil))))
  refine ⟨?_, ?_, texts _ (by decide), integers _ (by decide)⟩
  · refine ((few (by decide)).1 _).2 ⟨.minus, 0, ?_, by decide, rfl, rfl⟩
    exact .minus zeros
  · exact (many (by decide) _).2 ⟨_, _, written, rfl⟩

end Word

end MixMachine
