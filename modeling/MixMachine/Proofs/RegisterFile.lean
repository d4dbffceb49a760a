import MixMachine.Proofs.Rules

/-!
# What an instruction writes to the register file

Every change of the register file is a series of writes through `Registers.set`,
together with changes of the toggle and the indicator. `Registers.Writes` says this
of two register files without naming the values: the program counter is the same,
registers that are not named are the same, and a register that differs holds a word
of its own width.

* `Register.Fits`: a word that a register can hold.
* `Operation.targets`: the registers that an operation may write, and
  `Operation.jumps`, whether it is a jump.
* `Machine.Completes.writes`: an instruction writes no register but its targets.
* `Machine.Completes.get_j_of_jump`, `Machine.Completes.get_j_of_next`: J behind a jump that is
  taken, and behind every other instruction that has a code.
-/

namespace MixMachine

/-! ## Words of a register's width -/

/-- A word that a register can hold: proper, within its width, and in J without a
minus sign. -/
structure Register.Fits (r : Register) (w : Word) : Prop where
  proper : w.Proper
  short : w.magnitude < r.width.capacity
  unsigned : r = .j → w.sign = .plus

/-- The capacity of every register is that of some number of low bits of a word. -/
theorem Register.capacity_pos_le (r : Register) :
    0 < r.width.capacity ∧ r.width.capacity ≤ 0x40000000 := by
  cases r.width <;> decide

/-- The three high bytes of a half register are zero. -/
theorem Register.Fits.byte_eq_zero {r : Register} {w : Word} (h : r.Fits w)
    (half : r.width = .half) {i : Nat} (hi : i ≤ 3) : w.byte i = 0 := by
  have short : w.magnitude < 0x1000 := by
    have := h.short
    rwa [half] at this
  have weight : 0x1000 ≤ Word.placeValue (5 - i) := by
    rcases (by omega : i = 0 ∨ i = 1 ∨ i = 2 ∨ i = 3) with rfl | rfl | rfl | rfl <;> decide
  rw [Word.byte, Nat.div_eq_of_lt (by omega)]

/-! ## The registers that an operation names -/

/-- The registers that an operation on A writes. -/
def Arithmetic.targets : Arithmetic → List Register
  | add | sub => [.a]
  | mul | div => [.a, .x]

/-- The registers that a shift writes. -/
def Shift.targets (kind : Shift) : List Register :=
  if kind.usesX then [.a, .x] else [.a]

/-- The register that a jump on the toggle or the indicator writes when it is
taken. -/
def Condition.targets : Condition → List Register
  | jsj => []
  | _ => [.j]

/-- The registers that an operation may write. -/
def Operation.targets : Operation → List Register
  | arithmetic kind _ => kind.targets
  | shift kind => kind.targets
  | move _ => [.i1]
  | load r _ | loadNegative r _ | transfer r _ => [r]
  | device op _ => if op.jumpsWhen.isSome then [.j] else []
  | jump condition => condition.targets
  | jumpRegister .. => [.j]
  | nop | halt | store .. | storeZero _ | compare .. => []

/-- Whether an operation is a jump of any kind. -/
def Operation.jumps : Operation → Bool
  | device op _ => op.jumpsWhen.isSome
  | jump _ | jumpRegister .. => true
  | _ => false

/-- Apart from the jumps no operation that has a code writes J: the families that name
a register have no place for J in their rows. -/
theorem Operation.j_notMem_targets {op : Operation} (coded : op.code? ≠ none)
    (stays : op.jumps ≠ true) : .j ∉ op.targets := by
  -- a register that has a place in its row is another one than J
  have named : ∀ {r : Register} {α : Type} {f : Nat → α},
      r.offset?.map f ≠ none → .j ∉ [r] := by
    rintro r α f coded member
    cases List.mem_singleton.1 member
    exact coded rfl
  cases op with
  | arithmetic kind f =>
      show .j ∉ kind.targets
      cases kind <;> decide
  | shift kind => cases kind <;> decide
  | move count => exact (by decide : Register.j ∉ [.i1])
  | load r f => exact named coded
  | loadNegative r f => exact named coded
  | transfer r kind => exact named coded
  | device op unit =>
      have never : ¬ op.jumpsWhen.isSome = true := stays
      rw [targets, if_neg never]
      exact List.not_mem_nil
  | jump condition => exact absurd rfl stays
  | jumpRegister r test => exact absurd rfl stays
  | _ => exact List.not_mem_nil

namespace Registers

/-- What `set` keeps of a value fits the register. -/
theorem narrow_fits (r : Register) (v : Word) : r.Fits (narrow r v) where
  proper := Word.proper_ofSignMagnitude _ _
  short := by
    obtain ⟨pos, le⟩ := r.capacity_pos_le
    have low := Nat.mod_lt v.magnitude pos
    rw [narrow, Word.magnitude_ofSignMagnitude, Nat.mod_eq_of_lt (by omega)]
    exact low
  unsigned hj := by
    rw [narrow, Word.sign_ofSignMagnitude, if_pos hj]

/-- A word that fits a register is kept as it is. -/
theorem narrow_of_fits {r : Register} {v : Word} (fits : r.Fits v) : narrow r v = v := by
  have sign : (if r = .j then .plus else v.sign) = v.sign := by
    split
    · rename_i isJ
      exact (fits.unsigned isJ).symm
    · rfl
  rw [narrow, sign, Nat.mod_eq_of_lt fits.short]
  exact fits.proper.canonical_eq

/-- A register of a whole word keeps every proper word. -/
theorem narrow_of_full {r : Register} {v : Word} (full : r.width = .full) (proper : v.Proper) :
    narrow r v = v := by
  refine narrow_of_fits ⟨proper, ?_, ?_⟩
  · rw [full]
    exact v.magnitude_lt
  · intro isJ
    rw [isJ] at full
    cases full

/-! ## Reading around a write -/

variable {rs rs' rs'' : Registers} {touched : List Register}

@[simp] theorem pc_set (rs : Registers) (r : Register) (v : Word) : (rs.set r v).pc = rs.pc := by
  cases r <;> rfl

@[simp] theorem overflow_set (rs : Registers) (r : Register) (v : Word) :
    (rs.set r v).overflow = rs.overflow := by
  cases r <;> rfl

@[simp] theorem comparison_set (rs : Registers) (r : Register) (v : Word) :
    (rs.set r v).comparison = rs.comparison := by
  cases r <;> rfl

/-- No register is affected by the toggle, the indicator and the program counter. -/
@[simp] theorem get_mk_flags (rs : Registers) (pc : Nat) (overflow : Bool)
    (comparison : Option Ordering) (r : Register) :
    Registers.get ⟨rs.a, rs.x, rs.i, rs.j, pc, overflow, comparison⟩ r = rs.get r := by
  cases r <;> rfl

/-- `rs'` is `rs` after some writes to the registers in `touched`; the toggle and the
indicator may have any value. -/
structure Writes (touched : List Register) (rs rs' : Registers) : Prop where
  pc : rs'.pc = rs.pc
  kept : ∀ r, r ∉ touched → rs'.get r = rs.get r
  fits : ∀ r, rs'.get r = rs.get r ∨ r.Fits (rs'.get r)

theorem Writes.refl (touched : List Register) (rs : Registers) : Writes touched rs rs where
  pc := rfl
  kept _ _ := rfl
  fits _ := Or.inl rfl

/-- One more write to a register that is named. -/
theorem Writes.set (h : Writes touched rs rs') {r : Register} (named : r ∈ touched) (v : Word) :
    Writes touched rs (rs'.set r v) where
  pc := by rw [pc_set, h.pc]
  kept s other := by
    have apart : s ≠ r := fun same => other (same ▸ named)
    rw [get_set_of_ne rs' apart, h.kept s other]
  fits s := by
    by_cases same : s = r
    · subst same
      rw [get_set_self]
      exact Or.inr (narrow_fits s v)
    · rw [get_set_of_ne rs' same]
      exact h.fits s

/-- Whatever the toggle and the indicator become. -/
theorem Writes.flags (h : Writes touched rs rs') (overflow : Bool)
    (comparison : Option Ordering) :
    Writes touched rs { rs' with overflow, comparison } where
  pc := h.pc
  kept r other := by rw [get_mk_flags, h.kept r other]
  fits r := by
    rw [get_mk_flags]
    exact h.fits r

theorem Writes.latchOverflow (h : Writes touched rs rs') (overflowed : Bool) :
    Writes touched rs (rs'.latchOverflow overflowed) :=
  h.flags _ _

/-! ## The changes of the register file -/

theorem arithmetic_writes (rs : Registers) (kind : Arithmetic) (v : Word) :
    Writes kind.targets rs (rs.arithmetic kind v) := by
  have start := Writes.refl kind.targets rs
  have named : Register.x ∈ [Register.a, .x] := List.mem_cons_of_mem _ (List.mem_singleton.2 rfl)
  cases kind with
  | add => exact (start.set (List.mem_singleton.2 rfl) _).latchOverflow _
  | sub => exact (start.set (List.mem_singleton.2 rfl) _).latchOverflow _
  | mul => exact (start.set (List.mem_cons_self ..) _).set named _
  | div =>
      unfold arithmetic
      dsimp only
      split
      · exact (start.set (List.mem_cons_self ..) _).set named _
      · exact start.latchOverflow true

theorem shift_writes (rs : Registers) (kind : Shift) (count : Nat) :
    Writes kind.targets rs (rs.shift kind count) := by
  have start := Writes.refl kind.targets rs
  unfold shift
  dsimp only
  split
  · rename_i usesX
    have names : kind.targets = [.a, .x] := if_pos usesX
    rw [names] at start ⊢
    exact (start.set (List.mem_cons_self ..) _).set
      (List.mem_cons_of_mem _ (List.mem_singleton.2 rfl)) _
  · rename_i onlyA
    have names : kind.targets = [.a] := if_neg onlyA
    rw [names] at start ⊢
    exact start.set (List.mem_singleton.2 rfl) _

theorem transfer_writes (rs : Registers) (r : Register) (kind : Transfer) (ea : Word) :
    Writes [r] rs (rs.transfer r kind ea) := by
  have start := Writes.refl [r] rs
  have named : r ∈ [r] := List.mem_singleton.2 rfl
  cases kind with
  | inc => exact (start.set named _).latchOverflow _
  | dec => exact (start.set named _).latchOverflow _
  | ent => exact (start.set named _).latchOverflow _
  | enn => exact (start.set named _).latchOverflow _

theorem afterTest_writes (rs : Registers) (condition : Condition) :
    Writes [] rs (rs.afterTest condition) := by
  have start := Writes.refl [] rs
  cases condition with
  | jov => exact start.flags false rs.comparison
  | jnov => exact start.flags false rs.comparison
  | _ => exact start

/-- A test leaves every register alone. -/
theorem get_afterTest (rs : Registers) (condition : Condition) (r : Register) :
    (rs.afterTest condition).get r = rs.get r :=
  (rs.afterTest_writes condition).kept r List.not_mem_nil

theorem link_writes (rs : Registers) : Writes [.j] rs rs.link :=
  (Writes.refl [.j] rs).set (List.mem_singleton.2 rfl) _

/-- Behind an instruction in memory J holds the address of the next one. -/
theorem get_j_link (rs : Registers) (inside : rs.pc < memorySize) :
    rs.link.get .j = Word.ofSignMagnitude .plus (rs.pc + 1) := by
  have size : memorySize = 4000 := rfl
  have short : (rs.pc + 1) % 0x40000000 % Register.j.width.capacity = rs.pc + 1 := by
    show (rs.pc + 1) % 0x40000000 % 0x1000 = rs.pc + 1
    omega
  rw [link, get_set_self, narrow, if_pos rfl, Word.magnitude_ofSignMagnitude, short]

theorem afterJump_writes (rs : Registers) (condition : Condition) :
    Writes condition.targets rs (rs.afterJump condition) := by
  cases condition with
  | jsj => exact Writes.refl [] rs
  | jov => exact ((Writes.refl [.j] rs).flags false _).set (List.mem_singleton.2 rfl) _
  | jnov => exact ((Writes.refl [.j] rs).flags false _).set (List.mem_singleton.2 rfl) _
  | _ => exact rs.link_writes

/-! ## Register files of words that fit -/

/-- Every register holds a word of its own width. -/
def Fit (rs : Registers) : Prop :=
  ∀ r : Register, r.Fits (rs.get r)

/-- At rest every register holds a plain zero. -/
theorem fit_initial : Registers.initial.Fit := by
  intro r
  have zero : Registers.initial.get r = .zero := by
    cases r with
    | i k => exact Vector.getElem_replicate ..
    | _ => rfl
  rw [zero]
  exact ⟨by decide, r.capacity_pos_le.1, fun _ => rfl⟩

/-- Writes of any values keep every register within its width. -/
theorem Fit.writes (h : rs.Fit) (w : Writes touched rs rs') : rs'.Fit := by
  intro r
  rcases w.fits r with same | fits
  · rw [same]
    exact h r
  · exact fits

theorem Fit.set (h : rs.Fit) (r : Register) (v : Word) : (rs.set r v).Fit :=
  h.writes ((Writes.refl [r] rs).set (List.mem_singleton.2 rfl) v)

/-- The program counter is no register. -/
theorem Fit.withPc (h : rs.Fit) (pc : Nat) : ({ rs with pc } : Registers).Fit := by
  intro r
  rw [get_mk_flags]
  exact h r

end Registers

/-! ## Instructions -/

namespace Machine

variable {δ : Type} [Device δ] {m m' : Machine δ} {ea : Word} {op : Operation} {flow : Flow}

/-- **An instruction writes no register but its targets**, and what it writes there
fits. -/
theorem Completes.writes (h : Completes m ea op flow m') :
    Registers.Writes op.targets m.registers m'.registers := by
  cases h with
  | arithmetic _ => exact Registers.arithmetic_writes _ _ _
  | shift _ => exact Registers.shift_writes _ _ _
  | transfer => exact Registers.transfer_writes _ _ _ _
  | move _ _ _ => exact (Registers.Writes.refl _ _).set (List.mem_singleton.2 rfl) _
  | load _ => exact (Registers.Writes.refl _ _).set (List.mem_singleton.2 rfl) _
  | loadNegative _ => exact (Registers.Writes.refl _ _).set (List.mem_singleton.2 rfl) _
  | compare _ => exact (Registers.Writes.refl _ _).flags _ _
  | @deviceJump op unit _ _ _ when _ =>
      have names : (Operation.device op unit).targets = [.j] :=
        if_pos (by rw [when]; rfl)
      rw [names]
      exact m.registers.link_writes
  | @jumpStay condition _ =>
      have tested := m.registers.afterTest_writes condition
      exact ⟨tested.pc, fun r _ => tested.kept r List.not_mem_nil, tested.fits⟩
  | jump _ _ => exact Registers.afterJump_writes _ _
  | registerJump _ _ => exact m.registers.link_writes
  | _ => exact Registers.Writes.refl _ _

/-- A jump that is taken leaves the address behind it in J, unless it is the one that saves
J. -/
theorem Completes.get_j_of_jump {a : Nat} (h : Completes m ea op (.jump a) m')
    (links : op ≠ .jump .jsj) (inside : m.registers.pc < memorySize) :
    m'.registers.get .j = Word.ofSignMagnitude .plus (m.registers.pc + 1) := by
  have link := m.registers.get_j_link inside
  cases h with
  | deviceJump _ _ _ => exact link
  | registerJump _ _ => exact link
  | @jump condition _ _ _ =>
      cases condition with
      | jsj => exact absurd rfl links
      | _ => exact link

/-- The jump that saves J leaves it alone. -/
theorem Completes.get_j_of_jsj {flow : Flow} (h : Completes m ea (.jump .jsj) flow m') :
    m'.registers.get .j = m.registers.get .j :=
  h.writes.kept .j List.not_mem_nil

/-- What goes to the next cell leaves J alone. -/
theorem Completes.get_j_of_next (h : Completes m ea op .next m') (coded : op.code? ≠ none) :
    m'.registers.get .j = m.registers.get .j := by
  by_cases jumps : op.jumps = true
  · cases h with
    | jumpStay _ => exact Registers.get_afterTest _ _ _
    | deviceStay _ _ => rfl
    | registerStay _ => rfl
    | control _ _ => rfl
    | input _ _ _ => rfl
    | output _ _ _ => rfl
    | _ => cases jumps
  · exact h.writes.kept .j (Operation.j_notMem_targets coded jumps)

/-- **An instruction that has a code writes J only to link**, whatever its flow. -/
theorem Completes.get_j (h : Completes m ea op flow m') (coded : op.code? ≠ none)
    (inside : m.registers.pc < memorySize) :
    m'.registers.get .j = m.registers.get .j ∨
      m'.registers.get .j = Word.ofSignMagnitude .plus (m.registers.pc + 1) := by
  cases flow with
  | next => exact Or.inl (h.get_j_of_next coded)
  | jump a =>
      by_cases saves : op = .jump .jsj
      · subst saves
        exact Or.inl h.get_j_of_jsj
      · exact Or.inr (h.get_j_of_jump saves inside)

/-- A jump goes to a cell. -/
theorem Completes.target_lt {a : Nat} (h : Completes m ea op (.jump a) m') : a < memorySize := by
  cases h with
  | deviceJump _ _ target => exact (Memory.index_eq_ok_iff.1 target).2
  | jump _ target => exact (Memory.index_eq_ok_iff.1 target).2
  | registerJump _ target => exact (Memory.index_eq_ok_iff.1 target).2

end Machine

end MixMachine
