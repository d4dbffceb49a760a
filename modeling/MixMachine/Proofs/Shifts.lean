import Mathlib.Algebra.Group.Nat.Defs
import MixMachine.Proofs.ByteShifts
import MixMachine.Proofs.FailureConditions
import MixMachine.Proofs.Fields

/-!
# Shifts as arithmetic

A shift moves bytes, and the bytes are the digits of a number: the magnitude of A, or the number
of sixty bits that A and X hold together. So a shift to the left multiplies this number by a
power of 64 and drops what is too large, one to the right divides it, and a circular shift adds
what has left at one end again at the other. Circular shifts are rotations of ten bytes, which
compose and have inverses. No shift looks at a sign.

* `Word.magnitudeOfBytes_shiftBytes`: the number of bytes that were shifted.
* `Registers.magnitude_shift`, `Registers.doubleMagnitude_shift`: the registers behind a shift.
* `Registers.shift_src_of_slc`, `Registers.shift_slc_of_src`, `Registers.shift_slc_add`: the laws
  of circular shifts.
* `Machine.shifts_are_arithmetic`: the same for the instructions, on reached machines.
-/

namespace MixMachine

/-! ## Lists of bytes -/

namespace Word

/-- The first bytes stand for the number without the places behind them. -/
theorem magnitudeOfBytes_take (bytes : List Nat) (i : Nat) :
    magnitudeOfBytes (bytes.take i) =
      magnitudeOfBytes bytes / placeValue (bytes.length - i) := by
  have whole := magnitudeOfBytes_append (bytes.take i) (bytes.drop i)
  have rest := magnitudeOfBytes_lt (bytes.drop i)
  rw [List.length_drop] at whole rest
  rw [List.take_append_drop] at whole
  rw [whole, Nat.mul_add_div (placeValue_pos _), Nat.div_eq_of_lt rest, Nat.add_zero]

/-- The last bytes stand for what is left of the number below their places. -/
theorem magnitudeOfBytes_drop (bytes : List Nat) (i : Nat) :
    magnitudeOfBytes (bytes.drop i) =
      magnitudeOfBytes bytes % placeValue (bytes.length - i) := by
  have whole := magnitudeOfBytes_append (bytes.take i) (bytes.drop i)
  have rest := magnitudeOfBytes_lt (bytes.drop i)
  rw [List.length_drop] at whole rest
  rw [List.take_append_drop] at whole
  rw [whole, Nat.mul_add_mod, Nat.mod_eq_of_lt rest]

/-- What shifting makes of a number of so many places in base 64. What leaves at one end is lost,
or is added at the other. -/
def shifted (direction : Direction) (fill : Fill) (places count number : Nat) : Nat :=
  match direction, fill with
  | .left, .zeros => number * 64 ^ count % 64 ^ places
  | .left, .wrapped => number * 64 ^ count % 64 ^ places + number / 64 ^ (places - count)
  | .right, .zeros => number / 64 ^ count
  | .right, .wrapped => number / 64 ^ count + number % 64 ^ count * 64 ^ (places - count)

/-- **The number of bytes that were shifted.** -/
theorem magnitudeOfBytes_shiftBytes (direction : Direction) (fill : Fill) (count : Nat)
    {bytes : List Nat} (nonempty : 0 < bytes.length) :
    magnitudeOfBytes (shiftBytes direction fill count bytes) =
      shifted direction fill bytes.length (count % bytes.length) (magnitudeOfBytes bytes) := by
  have short := Nat.mod_lt count nonempty
  generalize moved : count % bytes.length = c at short ⊢
  -- to the left the number below the last places goes up, and loses nothing on the way
  have up : placeValue c * (magnitudeOfBytes bytes % placeValue (bytes.length - c)) =
      magnitudeOfBytes bytes * 64 ^ c % 64 ^ bytes.length := by
    have places : placeValue bytes.length = placeValue c * placeValue (bytes.length - c) := by
      rw [← placeValue_add, Nat.add_sub_cancel' (Nat.le_of_lt short)]
    rw [← placeValue_eq_pow, ← placeValue_eq_pow, places, Nat.mul_comm (magnitudeOfBytes bytes),
      Nat.mul_mod_mul_left]
  have behind : bytes.length - (bytes.length - c) = c := Nat.sub_sub_self (Nat.le_of_lt short)
  have front : (bytes.take c).length = c := List.length_take_of_le (Nat.le_of_lt short)
  have back : (bytes.take (bytes.length - c)).length = bytes.length - c :=
    List.length_take_of_le (Nat.sub_le _ _)
  unfold shiftBytes shifted
  dsimp only
  rw [moved]
  cases direction with
  | left =>
      cases fill with
      | zeros =>
          dsimp only
          rw [magnitudeOfBytes_append, magnitudeOfBytes_zeros, List.length_replicate, front,
            magnitudeOfBytes_drop, up, Nat.add_zero]
      | wrapped =>
          dsimp only
          rw [magnitudeOfBytes_append, front, magnitudeOfBytes_drop, up, magnitudeOfBytes_take,
            placeValue_eq_pow]
  | right =>
      cases fill with
      | zeros =>
          dsimp only
          rw [magnitudeOfBytes_append, magnitudeOfBytes_zeros, Nat.mul_zero, Nat.zero_add,
            magnitudeOfBytes_take, behind, placeValue_eq_pow]
      | wrapped =>
          dsimp only
          rw [magnitudeOfBytes_append, back, magnitudeOfBytes_drop, magnitudeOfBytes_take, behind,
            placeValue_eq_pow, placeValue_eq_pow, Nat.mul_comm, Nat.add_comm]

end Word

/-! ## The shifted registers -/

namespace Registers

open Word

variable {rs : Registers} {kind : Shift}

/-- The bytes of A and those of X behind them. -/
def joined (rs : Registers) : List Nat :=
  rs.a.bytes ++ rs.x.bytes

/-- The register file with ten other bytes in A and X. The signs stay. -/
def withJoined (rs : Registers) (bytes : List Nat) : Registers :=
  { rs with a := ofBytes rs.a.sign (bytes.take 5), x := ofBytes rs.x.sign (bytes.drop 5) }

/-- A shift of A alone. -/
theorem shift_single (single : kind.usesX = false) (rs : Registers) (count : Nat) :
    rs.shift kind count =
      { rs with a := ofBytes rs.a.sign (shiftBytes kind.direction kind.fill count rs.a.bytes) } := by
  unfold shift
  dsimp only
  rw [single]
  exact congrArg (fun a => { rs with a }) (narrow_of_full (r := .a) rfl (proper_ofBytes _ _))

/-- A shift of A and X. -/
theorem shift_double (double : kind.usesX = true) (rs : Registers) (count : Nat) :
    rs.shift kind count =
      rs.withJoined (shiftBytes kind.direction kind.fill count rs.joined) := by
  have a := narrow_of_full (r := .a) rfl
    (proper_ofBytes rs.a.sign ((shiftBytes kind.direction kind.fill count rs.joined).take 5))
  have x := narrow_of_full (r := .x) rfl
    (proper_ofBytes rs.x.sign ((shiftBytes kind.direction kind.fill count rs.joined).drop 5))
  unfold shift withJoined
  dsimp only
  rw [double, if_pos rfl]
  unfold set
  dsimp only
  rw [joined] at a x
  rw [a, x]
  rfl

theorem length_joined (rs : Registers) : rs.joined.length = 10 := rfl

theorem magnitudeOfBytes_joined (rs : Registers) :
    magnitudeOfBytes rs.joined = doubleMagnitude rs.a rs.x := by
  rw [joined, magnitudeOfBytes_append, magnitudeOfBytes_bytes, magnitudeOfBytes_bytes]
  rfl

/-- Ten bytes are a number of sixty bits in A and X. -/
theorem doubleMagnitude_withJoined (rs : Registers) {bytes : List Nat}
    (ten : bytes.length = 10) :
    doubleMagnitude (rs.withJoined bytes).a (rs.withJoined bytes).x = magnitudeOfBytes bytes := by
  have high : (bytes.take 5).length = 5 := List.length_take_of_le (by omega)
  have low : (bytes.drop 5).length = 5 := by rw [List.length_drop, ten]
  have whole := magnitudeOfBytes_append (bytes.take 5) (bytes.drop 5)
  rw [List.take_append_drop, low] at whole
  rw [withJoined, doubleMagnitude, magnitude_ofBytes _ high, magnitude_ofBytes _ low, whole]
  rfl

/-- Ten bytes that fit are those of A and X. -/
theorem joined_withJoined (rs : Registers) {bytes : List Nat} (ten : bytes.length = 10)
    (fit : ∀ b ∈ bytes, b < 64) : (rs.withJoined bytes).joined = bytes := by
  have high : (bytes.take 5).length = 5 := List.length_take_of_le (by omega)
  have low : (bytes.drop 5).length = 5 := by rw [List.length_drop, ten]
  rw [joined, withJoined, bytes_ofBytes _ high fun b member => fit b (List.mem_of_mem_take member),
    bytes_ofBytes _ low fun b member => fit b (List.mem_of_mem_drop member),
    List.take_append_drop]

/-- Only the last bytes that are put in A and X count. -/
theorem withJoined_withJoined (rs : Registers) (bytes bytes' : List Nat) :
    (rs.withJoined bytes).withJoined bytes' = rs.withJoined bytes' := by
  simp only [withJoined, sign_ofBytes]

/-- Proper words are built from their own bytes. -/
theorem withJoined_joined (a : rs.a.Proper) (x : rs.x.Proper) :
    rs.withJoined rs.joined = rs := by
  have high : rs.joined.take 5 = rs.a.bytes := rfl
  have low : rs.joined.drop 5 = rs.x.bytes := rfl
  rw [withJoined, high, low, ofBytes_bytes, ofBytes_bytes, a.canonical_eq, x.canonical_eq]

/-- The bytes that a rotation leaves in A and X. -/
theorem joined_rotate (rs : Registers) (count : Nat) :
    (rs.withJoined (rs.joined.rotate count)).joined = rs.joined.rotate count := by
  refine rs.joined_withJoined (List.length_rotate _ _) fun b member => ?_
  rcases List.mem_append.1 (List.mem_rotate.1 member) with inA | inX
  · exact rs.a.bytes_lt b inA
  · exact rs.x.bytes_lt b inX

end Registers

/-! ## Shifts of registers as arithmetic -/

/-- What a shift by `n` places makes of the number that it shifts: of the magnitude of A, or of
the number that A and X hold together. -/
def Shift.moved (kind : Shift) (n number : Nat) : Nat :=
  match kind with
  | .sla => number * 64 ^ (n % 5) % 2 ^ 30
  | .sra => number / 64 ^ (n % 5)
  | .slax => number * 64 ^ (n % 10) % 2 ^ 60
  | .srax => number / 64 ^ (n % 10)
  | .slc => number * 64 ^ (n % 10) % 2 ^ 60 + number / 64 ^ (10 - n % 10)
  | .src => number / 64 ^ (n % 10) + number % 64 ^ (n % 10) * 64 ^ (10 - n % 10)

/-- The number of bytes that a shift moves. -/
def Shift.places (kind : Shift) : Nat :=
  if kind.usesX then 10 else 5

theorem Shift.places_pos (kind : Shift) : 0 < kind.places := by
  cases kind <;> decide

/-- A shift moves a number of as many places as it has bytes. -/
theorem Shift.moved_eq (kind : Shift) (n number : Nat) :
    kind.moved n number =
      Word.shifted kind.direction kind.fill kind.places (n % kind.places) number := by
  have one : 2 ^ 30 = 64 ^ 5 := by decide
  have two : 2 ^ 60 = 64 ^ 10 := by decide
  unfold moved
  rw [one, two]
  cases kind <;> rfl

namespace Registers

open Word

variable {kind : Shift}

/-- **A shift of A** as arithmetic. -/
theorem magnitude_shift (single : kind.usesX = false) (rs : Registers) (n : Nat) :
    (rs.shift kind n).a.magnitude = kind.moved n rs.a.magnitude := by
  have places : rs.a.bytes.length = kind.places := by
    rw [length_bytes, Shift.places, single]
    rfl
  have number := magnitudeOfBytes_shiftBytes kind.direction kind.fill n
    (places ▸ kind.places_pos)
  rw [shift_single single, magnitude_ofBytes _ (length_shiftBytes ..), number,
    magnitudeOfBytes_bytes, places, kind.moved_eq]

/-- **A shift of A and X** as arithmetic. -/
theorem doubleMagnitude_shift (double : kind.usesX = true) (rs : Registers) (n : Nat) :
    doubleMagnitude (rs.shift kind n).a (rs.shift kind n).x =
      kind.moved n (doubleMagnitude rs.a rs.x) := by
  have places : rs.joined.length = kind.places := by
    rw [length_joined, Shift.places, double]
    rfl
  have number := magnitudeOfBytes_shiftBytes kind.direction kind.fill n
    (places ▸ kind.places_pos)
  rw [shift_double double, rs.doubleMagnitude_withJoined (length_shiftBytes ..), number,
    magnitudeOfBytes_joined, places, kind.moved_eq]

/-- A shift leaves the signs of A and X alone, and X when it is one of A. -/
theorem signs_shift (rs : Registers) (kind : Shift) (n : Nat) :
    (rs.shift kind n).a.sign = rs.a.sign ∧ (rs.shift kind n).x.sign = rs.x.sign ∧
      (kind.usesX = false → (rs.shift kind n).x = rs.x) := by
  cases usesX : kind.usesX with
  | false =>
      rw [shift_single usesX]
      exact ⟨sign_ofBytes _ _, rfl, fun _ => rfl⟩
  | true =>
      rw [shift_double usesX]
      exact ⟨sign_ofBytes _ _, sign_ofBytes _ _, fun impossible => by cases impossible⟩

/-! ### Circular shifts -/

theorem shift_slc (rs : Registers) (n : Nat) :
    rs.shift .slc n = rs.withJoined (rs.joined.rotate n) := by
  rw [shift_double rfl]
  exact congrArg rs.withJoined (shiftBytes_left_wrapped n rs.joined)

theorem shift_src (rs : Registers) (n : Nat) :
    rs.shift .src n = rs.withJoined (rs.joined.rotate (10 - n % 10)) := by
  rw [shift_double rfl]
  exact congrArg rs.withJoined (shiftBytes_right_wrapped n rs.joined)

/-- **Circular shifts to the left add up.** -/
theorem shift_slc_add (rs : Registers) (n₁ n₂ : Nat) :
    (rs.shift .slc n₁).shift .slc n₂ = rs.shift .slc (n₁ + n₂) := by
  rw [shift_slc, shift_slc, shift_slc, joined_rotate, List.rotate_rotate, withJoined_withJoined]

/-- **A circular shift to the right is one to the left** by what is missing to a whole turn. -/
theorem shift_src_eq_slc (rs : Registers) (n : Nat) :
    rs.shift .src n = rs.shift .slc (10 - n % 10) := by
  rw [shift_slc, shift_src]

/-- A whole turn changes nothing. -/
theorem shift_slc_turn {rs : Registers} (a : rs.a.Proper) (x : rs.x.Proper) (n : Nat) :
    rs.shift .slc (n + (10 - n % 10)) = rs := by
  have nonempty : 0 < rs.joined.length := Nat.succ_pos 9
  have turn := rotate_turn nonempty n
  rw [length_joined] at turn
  rw [shift_slc, turn, withJoined_joined a x]

/-- **A circular shift to the right takes one to the left back.** -/
theorem shift_src_of_slc {rs : Registers} (a : rs.a.Proper) (x : rs.x.Proper) (n : Nat) :
    (rs.shift .slc n).shift .src n = rs := by
  rw [shift_src_eq_slc, shift_slc_add, shift_slc_turn a x]

/-- **A circular shift to the left takes one to the right back.** -/
theorem shift_slc_of_src {rs : Registers} (a : rs.a.Proper) (x : rs.x.Proper) (n : Nat) :
    (rs.shift .src n).shift .slc n = rs := by
  rw [shift_src_eq_slc, shift_slc_add, Nat.add_comm, shift_slc_turn a x]

/-- A shift does not see the program counter. -/
theorem shift_withPc (rs : Registers) (pc : Nat) (kind : Shift) (n : Nat) :
    ({ rs with pc } : Registers).shift kind n = { rs.shift kind n with pc } := by
  cases usesX : kind.usesX with
  | false =>
      rw [shift_single usesX, shift_single usesX]
  | true =>
      rw [shift_double usesX, shift_double usesX]
      rfl

end Registers

/-! ## Instructions -/

namespace Machine

variable {δ : Type} [Device δ] {m m' : Machine δ} {a : Attempt} {i : Instruction} {kind : Shift}

/-- The machine executes a shift of this kind by `n` places and becomes the last argument. -/
def Shifts (m : Machine δ) (kind : Shift) (n : Nat) (m' : Machine δ) : Prop :=
  ∃ (a : Attempt) (s : RunState), a.FetchesAt m (.shift kind) n ∧ a.exec m = .ok s m'

/-- A shift is completed exactly by a machine that runs at a cell, and by a count of places that
is not negative. -/
theorem Attempt.completes_shift_iff (decoded : Instruction.decode (a.fetch m) = .ok i)
    (shifts : i.operation = .shift kind) :
    (∃ s m', a.exec m = .ok s m') ↔
      m.state = .running ∧ m.registers.pc ≤ 3999 ∧ 0 ≤ (m.effectiveAddress i).value := by
  rw [exists_ok_iff decoded, shifts]
  refine and_congr_right fun _ => and_congr_right fun _ => ?_
  constructor
  · rintro ⟨flow, m', completes⟩
    cases completes with
    | shift nonneg => exact nonneg
  · intro nonneg
    exact ⟨_, _, .shift nonneg⟩

/-- A shift that is executed shifts the registers and goes on behind it. -/
theorem Shifts.registers_eq {n : Nat} (h : m.Shifts kind n m') :
    m'.registers = { m.registers.shift kind n with pc := m.registers.pc + 1 } := by
  obtain ⟨a, s, ⟨i, decoded, shifts, count⟩, run⟩ := h
  obtain ⟨flow, done, completes, -, rfl⟩ := Attempt.completes_fetched run decoded
  rw [shifts] at completes
  cases completes with
  | shift _ =>
      rw [count, Int.toNat_natCast]
      rfl

/-- A machine that runs at a cell executes a word that holds a shift, and runs on. -/
theorem Shifts.of_word {w : Word} {n : Nat} (running : m.state = .running)
    (inside : m.registers.pc ≤ 3999) (decoded : Instruction.decode w = .ok i)
    (shifts : i.operation = .shift kind) (count : (m.effectiveAddress i).value = n) :
    ∃ m', m.Shifts kind n m' ∧ m'.state = .running := by
  obtain ⟨s, m', run⟩ := (Attempt.completes_shift_iff (a := .word w) decoded shifts).2
    ⟨running, inside, by omega⟩
  refine ⟨m', ⟨.word w, s, ⟨i, decoded, shifts, count⟩, run⟩, ?_⟩
  obtain ⟨flow, done, completes, -, rfl⟩ := Attempt.completes_fetched run decoded
  rw [shifts] at completes
  cases completes with
  | shift _ => exact running

/-- **Shifts are arithmetic on A and X, and never touch a sign.** Two of the six shifts work on
the magnitude of A and leave X alone, and the others on the number of sixty bits that A and X
hold; what they make of it is `Shift.moved`. A circular shift to the right behind one to the left
by as many places leaves the registers as they were, bit for bit, and so it is the other way
round; it does what a shift to the left does by the places that are missing to ten; and circular
shifts to the left add up. A shift is completed by every machine that runs at a cell unless its
count is negative. -/
theorem shifts_are_arithmetic {calls : List Call} {m : Machine Buffer} (reached : Reached calls m) :
    (∀ (a : Attempt) (i : Instruction) (kind : Shift),
      Instruction.decode (a.fetch m) = .ok i → i.operation = .shift kind →
      ((∃ s m', a.exec m = .ok s m') ↔
        m.state = .running ∧ m.registers.pc ≤ 3999 ∧ 0 ≤ (m.effectiveAddress i).value)) ∧
    (∀ kind n m', m.Shifts kind n m' →
      m'.registers.a.sign = m.registers.a.sign ∧ m'.registers.x.sign = m.registers.x.sign ∧
      (kind = .sla ∨ kind = .sra →
        m'.registers.a.magnitude = kind.moved n m.registers.a.magnitude ∧
          m'.registers.x = m.registers.x) ∧
      (kind = .slax ∨ kind = .srax ∨ kind = .slc ∨ kind = .src →
        Word.doubleMagnitude m'.registers.a m'.registers.x =
          kind.moved n (Word.doubleMagnitude m.registers.a m.registers.x))) ∧
    (∀ n m₁ m₂, m.Shifts .slc n m₁ → m₁.Shifts .src n m₂ →
      m₂.registers = { m.registers with pc := m.registers.pc + 2 }) ∧
    (∀ n m₁ m₂, m.Shifts .src n m₁ → m₁.Shifts .slc n m₂ →
      m₂.registers = { m.registers with pc := m.registers.pc + 2 }) ∧
    (∀ n m₁ m₂, m.Shifts .src n m₁ → m.Shifts .slc (10 - n % 10) m₂ →
      m₂.registers = m₁.registers) ∧
    ∀ n₁ n₂ m₁ m₂ m₃, m.Shifts .slc n₁ m₁ → m₁.Shifts .slc n₂ m₂ → m.Shifts .slc (n₁ + n₂) m₃ →
      m₂.registers = { m₃.registers with pc := m.registers.pc + 2 } := by
  have a := (reached.fit .a).proper
  have x := (reached.fit .x).proper
  refine ⟨fun _ _ _ => Attempt.completes_shift_iff, ?_, ?_, ?_, ?_, ?_⟩
  · intro kind n m' shift
    rw [shift.registers_eq]
    obtain ⟨signA, signX, kept⟩ := m.registers.signs_shift kind n
    refine ⟨signA, signX, ?_, ?_⟩
    · intro single
      have usesX : kind.usesX = false := by
        rcases single with rfl | rfl <;> rfl
      exact ⟨Registers.magnitude_shift usesX _ n, kept usesX⟩
    · intro double
      have usesX : kind.usesX = true := by
        rcases double with rfl | rfl | rfl | rfl <;> rfl
      exact Registers.doubleMagnitude_shift usesX _ n
  · intro n m₁ m₂ first second
    rw [second.registers_eq, first.registers_eq, Registers.shift_withPc,
      Registers.shift_src_of_slc a x]
  · intro n m₁ m₂ first second
    rw [second.registers_eq, first.registers_eq, Registers.shift_withPc,
      Registers.shift_slc_of_src a x]
  · intro n m₁ m₂ right left
    rw [left.registers_eq, right.registers_eq, Registers.shift_src_eq_slc]
  · intro n₁ n₂ m₁ m₂ m₃ first second both
    rw [second.registers_eq, first.registers_eq, both.registers_eq, Registers.shift_withPc,
      Registers.shift_slc_add]

/-- A machine with the bytes 1 to 5 in A, and 6 to 10 with a minus sign in X. -/
def shifting : Machine Buffer :=
  (Call.setRegister .x (Word.ofBytes .minus [6, 7, 8, 9, 10])).apply
    ((Call.setRegister .a (Word.ofBytes .plus [1, 2, 3, 4, 5])).apply .standard)

/-- A circular shift by 13 places to the left moves as many bytes as one by 3 places, and one to
the right takes it back. -/
theorem shifts_are_arithmetic_circular :
    ∃ m₁ m₂, shifting.Shifts .slc 13 m₁ ∧ m₁.Shifts .src 13 m₂ ∧
      Word.doubleMagnitude m₁.registers.a m₁.registers.x =
        Word.doubleMagnitude (Word.ofBytes .plus [4, 5, 6, 7, 8])
          (Word.ofBytes .plus [9, 10, 1, 2, 3]) ∧
      m₂.registers.a = shifting.registers.a ∧ m₂.registers.x = shifting.registers.x := by
  have left : Instruction.decode (Instruction.assemble 13 0 4 Opcode.shift) =
      .ok ⟨Instruction.addressOf 13, 0, .shift .slc⟩ := rfl
  have right : Instruction.decode (Instruction.assemble 13 0 5 Opcode.shift) =
      .ok ⟨Instruction.addressOf 13, 0, .shift .src⟩ := rfl
  obtain ⟨-, numbers, restored, -⟩ := shifts_are_arithmetic
    ((Reached.standard.call (.setRegister .a (Word.ofBytes .plus [1, 2, 3, 4, 5]))).call
      (.setRegister .x (Word.ofBytes .minus [6, 7, 8, 9, 10])))
  obtain ⟨m₁, first, running⟩ :=
    Shifts.of_word (m := shifting) rfl (by decide) left rfl (n := 13) rfl
  have counter : m₁.registers.pc = 1 := by
    rw [first.registers_eq]
    rfl
  have address : m₁.effectiveAddress ⟨Instruction.addressOf 13, 0, .shift .src⟩ =
      Instruction.addressOf 13 := rfl
  obtain ⟨m₂, second, -⟩ :=
    Shifts.of_word running (by omega) right rfl (n := 13) (by rw [address]; rfl)
  obtain ⟨-, -, -, number⟩ := numbers _ _ _ first
  have back := restored _ _ _ first second
  refine ⟨m₁, m₂, first, second, (number (by decide)).trans (by decide), ?_, ?_⟩
  · rw [back]
    rfl
  · rw [back]
    rfl

end Machine

end MixMachine
