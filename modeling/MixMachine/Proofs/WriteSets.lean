import Mathlib.Data.Set.Basic
import MixMachine.Proofs.Budgets
import MixMachine.Proofs.FailureConditions
import MixMachine.Proofs.Fields
import MixMachine.Proofs.Flags
import MixMachine.Proofs.HeldBlocks
import MixMachine.Proofs.ImageLoading

/-!
# What an instruction may change

The state of a machine is taken apart as far as instructions can change it: registers and
cells into the positions of their words and bit 31, and devices into what they are and the
block they hold. `Machine.writeSet` says for every operation which of these parts it may
change; everything else is what it was, whatever the operands are.

Together with the program counter, the counts and the last instruction, which every
instruction changes, the parts are the whole machine.

* `Machine.eq_of_sameIn`: a machine is its parts.
* `Machine.Completes.unwritten`: an instruction changes nothing outside its write set.
* `Machine.changes_only_write_set`: the same of every step and every word.
-/

namespace MixMachine

/-! ## The parts of a word -/

namespace Word

/-- A part of a word: a position, the sign at 0 and the bytes at 1 to 5, or bit 31. -/
inductive Part where
  | bit31
  | position (k : Fin 6)

/-- What a word has in a part. -/
def part (w : Word) : Part → Nat
  | .bit31 => w.bits.toNat / 0x80000000
  | .position k => if k.val = 0 then w.sign.bit else w.byte k.val

variable {v w : Word}

/-- A word is its parts. -/
theorem ext_part (same : ∀ p, v.part p = w.part p) : v = w := by
  have bit31 : v.bits.toNat / 0x80000000 = w.bits.toNat / 0x80000000 := same .bit31
  have sign : v.sign.bit = w.sign.bit := same (.position ⟨0, by decide⟩)
  have magnitude : v.magnitude = w.magnitude := by
    refine magnitude_congr_byte fun k low high => ?_
    have here := same (.position ⟨k, Nat.lt_succ_of_le high⟩)
    rwa [part, part, if_neg (Nat.ne_of_gt low), if_neg (Nat.ne_of_gt low)] at here
  apply ext_toNat
  rw [toNat_bits_eq v, toNat_bits_eq w, bit31, sign, magnitude]

/-- Bit 31 of a proper word is clear. -/
theorem Proper.part_bit31 (h : w.Proper) : w.part .bit31 = 0 :=
  Nat.div_eq_of_lt h

end Word

/-- A field that is written changes no position outside it. -/
theorem Field.part_insert {f : Field} (valid : f.Valid) (w v : Word) {k : Fin 6}
    (outside : k.val < f.left ∨ f.right < k.val) :
    (f.insert w v).part (.position k) = w.part (.position k) := by
  unfold Word.part
  dsimp only
  split
  · rename_i first
    have noSign : f.includesSign = false := by
      obtain ⟨order, -⟩ := valid
      exact beq_eq_false_iff_ne.2 (by omega)
    rw [sign_insert, noSign]
    rfl
  · rename_i later
    exact byte_insert valid w v (Nat.pos_of_ne_zero later) (Nat.le_of_lt_succ k.isLt) outside

namespace Machine

/-! ## The parts of a machine -/

/-- A part of a machine with buffers that instructions can change, the program counter, the
counts and the last instruction apart. The device on a unit is what it is called, if there is
one at all, and the block that it holds. -/
inductive Part where
  | register (r : Register) (p : Word.Part)
  | overflow
  | comparison
  | state
  | cell (a : Nat) (p : Word.Part)
  | device (unit : Nat)
  | block (unit : Nat)

/-- Two machines have the same in a part. -/
def SameIn (m m' : Machine Buffer) : Part → Prop
  | .register r p => (m'.registers.get r).part p = (m.registers.get r).part p
  | .overflow => m'.registers.overflow = m.registers.overflow
  | .comparison => m'.registers.comparison = m.registers.comparison
  | .state => m'.state = m.state
  | .cell a p => (m'.memory.cell a).part p = (m.memory.cell a).part p
  | .device unit => (m'.devices.get? unit).map (·.name) = (m.devices.get? unit).map (·.name)
  | .block unit => (m'.devices.get? unit).map (·.block) = (m.devices.get? unit).map (·.block)

theorem sameIn_refl (m : Machine Buffer) (p : Part) : m.SameIn m p := by
  cases p <;> rfl

variable {m m' m'' : Machine Buffer}

theorem SameIn.trans {p : Part} (first : m.SameIn m' p) (second : m'.SameIn m'' p) :
    m.SameIn m'' p := by
  cases p <;> exact Eq.trans second first

/-- Registries with the same devices on their units are the same. -/
theorem ext_get? {ds ds' : Devices Buffer}
    (name : ∀ unit, (ds'.get? unit).map (·.name) = (ds.get? unit).map (·.name))
    (block : ∀ unit, (ds'.get? unit).map (·.block) = (ds.get? unit).map (·.block)) :
    ds' = ds := by
  have same : ∀ unit, ds'.get? unit = ds.get? unit := by
    intro unit
    have names := name unit
    have blocks := block unit
    cases here : ds.get? unit <;> cases there : ds'.get? unit <;>
      rw [here, there] at names blocks
    · cases names
    · cases names
    · rename_i b b'
      obtain ⟨n, ws⟩ := b
      obtain ⟨n', ws'⟩ := b'
      cases names
      cases blocks
      rfl
  obtain ⟨slots⟩ := ds
  obtain ⟨slots'⟩ := ds'
  congr 1
  ext1 unit inside
  have slot := same unit
  unfold Devices.get? at slot
  rwa [Vector.getElem?_eq_getElem inside, Vector.getElem?_eq_getElem inside, Option.join_some,
    Option.join_some] at slot

/-- Register files with the same words are the same, up to the program counter. -/
theorem ext_registers {rs rs' : Registers} (words : ∀ r, rs'.get r = rs.get r)
    (overflow : rs'.overflow = rs.overflow) (comparison : rs'.comparison = rs.comparison) :
    rs' = { rs with pc := rs'.pc } := by
  have indices : rs'.i = rs.i := by
    ext1 k inside
    exact words (.i ⟨k, inside⟩)
  have a := words .a
  have x := words .x
  have j := words .j
  cases rs
  cases rs'
  cases a
  cases x
  cases j
  cases indices
  cases overflow
  cases comparison
  rfl

/-- **A machine is its parts**, the program counter, the counts and the last instruction. -/
theorem eq_of_sameIn (same : ∀ p, m.SameIn m' p) :
    m' = { m with
      registers := { m.registers with pc := m'.registers.pc }
      steps := m'.steps
      clock := m'.clock
      last := m'.last } := by
  have registers : m'.registers = { m.registers with pc := m'.registers.pc } :=
    ext_registers (fun r => Word.ext_part fun p => same (.register r p)) (same .overflow)
      (same .comparison)
  have memory : m'.memory = m.memory :=
    Memory.ext_cell fun a _ => Word.ext_part fun p => same (.cell a p)
  have devices : m'.devices = m.devices :=
    ext_get? (fun unit => same (.device unit)) (fun unit => same (.block unit))
  have state : m'.state = m.state := same .state
  rw [← registers, ← memory, ← devices, ← state]

/-! ## Write sets -/

/-- The whole word of a register. -/
def wholeRegister (r : Register) : Set Part :=
  {p | ∃ q, p = .register r q}

/-- The magnitude of a register: the positions of its bytes. -/
def magnitudeOf (r : Register) : Set Part :=
  {p | ∃ k : Fin 6, k.val ≠ 0 ∧ p = .register r (.position k)}

/-- The cells of a block, which may start at any address. -/
def cells (first : Int) (count : Nat) : Set Part :=
  {p | ∃ (a : Nat) (q : Word.Part), first ≤ a ∧ a < first + count ∧ p = .cell a q}

/-- The positions of a field of a cell, and the bit 31 of the cell. -/
def fieldOf (a : Nat) (f : Field) : Set Part :=
  {p | p = .cell a .bit31 ∨
    ∃ k : Fin 6, f.left ≤ k.val ∧ k.val ≤ f.right ∧ p = .cell a (.position k)}

/-- The register that a jump writes, when it is taken. -/
def linkOf (m : Machine Buffer) (op : Operation) : Set Part :=
  {p | m.takesJump op ∧ p ∈ wholeRegister .j}

/-- The parts of the machine `m` that an operation at the effective address `ea` may change. -/
def writeSet (m : Machine Buffer) (ea : Word) : Operation → Set Part
  | .nop => ∅
  | .arithmetic .add _ => wholeRegister .a ∪ {.overflow}
  | .arithmetic .sub _ => wholeRegister .a ∪ {.overflow}
  | .arithmetic .mul _ => wholeRegister .a ∪ wholeRegister .x
  | .arithmetic .div _ => wholeRegister .a ∪ wholeRegister .x ∪ {.overflow}
  | .halt => {.state}
  | .shift .sla => magnitudeOf .a
  | .shift .sra => magnitudeOf .a
  | .shift .slax => magnitudeOf .a ∪ magnitudeOf .x
  | .shift .srax => magnitudeOf .a ∪ magnitudeOf .x
  | .shift .slc => magnitudeOf .a ∪ magnitudeOf .x
  | .shift .src => magnitudeOf .a ∪ magnitudeOf .x
  | .move count => cells (m.registers.get .i1).value count ∪ wholeRegister .i1
  | .load r _ => wholeRegister r
  | .loadNegative r _ => wholeRegister r
  | .store _ f => fieldOf ea.value.toNat f
  | .storeZero f => fieldOf ea.value.toNat f
  | .device .input unit =>
    {p | ∃ b, m.devices.get? unit = some b ∧ p ∈ cells ea.value b.block.length}
  | .device .output unit => {.block unit}
  | .device .ioc _ => ∅
  | .device .jbus unit => m.linkOf (.device .jbus unit)
  | .device .jred unit => m.linkOf (.device .jred unit)
  | .jump .jsj => ∅
  | .jump .jov => m.linkOf (.jump .jov) ∪ {.overflow}
  | .jump .jnov => m.linkOf (.jump .jnov) ∪ {.overflow}
  | .jump condition => m.linkOf (.jump condition)
  | .jumpRegister r test => m.linkOf (.jumpRegister r test)
  | .transfer r _ => wholeRegister r ∪ {.overflow}
  | .compare .. => {.comparison}

/-- Nothing outside a set of parts is changed. -/
def Unwritten (S : Set Part) (m m' : Machine Buffer) : Prop :=
  ∀ p, p ∉ S → m.SameIn m' p

variable {S : Set Part} {rs : Registers} {mem : Memory} {touched : List Register}

theorem unwritten_refl (S : Set Part) (m : Machine Buffer) : Unwritten S m m :=
  fun p _ => m.sameIn_refl p

theorem Unwritten.trans (first : Unwritten S m m') (second : Unwritten S m' m'') :
    Unwritten S m m'' :=
  fun p outside => (first p outside).trans (second p outside)

/-! ### Changes of one part of the machine -/

theorem unwritten_of_registers
    (words : ∀ r p, .register r p ∉ S → (rs.get r).part p = (m.registers.get r).part p)
    (overflow : .overflow ∉ S → rs.overflow = m.registers.overflow)
    (comparison : .comparison ∉ S → rs.comparison = m.registers.comparison) :
    Unwritten S m { m with registers := rs } := by
  intro p outside
  cases p with
  | register r p => exact words r p outside
  | overflow => exact overflow outside
  | comparison => exact comparison outside
  | _ => rfl

/-- Writes to registers that may be changed. -/
theorem unwritten_of_writes (w : Registers.Writes touched m.registers rs)
    (named : ∀ r ∈ touched, wholeRegister r ⊆ S)
    (overflow : .overflow ∉ S → rs.overflow = m.registers.overflow)
    (comparison : .comparison ∉ S → rs.comparison = m.registers.comparison) :
    Unwritten S m { m with registers := rs } := by
  refine unwritten_of_registers ?_ overflow comparison
  intro r p outside
  by_cases touches : r ∈ touched
  · exact absurd (named r touches ⟨p, rfl⟩) outside
  · rw [w.kept r touches]

theorem unwritten_of_memory
    (words : ∀ a p, .cell a p ∉ S → (mem.cell a).part p = (m.memory.cell a).part p) :
    Unwritten S m { m with memory := mem } := by
  intro p outside
  cases p with
  | cell a p => exact words a p outside
  | _ => rfl

/-- Cells that are kept outside a block that may be changed. -/
theorem unwritten_of_cells {first count : Nat} (named : cells first count ⊆ S)
    (kept : ∀ a, a < first ∨ first + count ≤ a → mem.cell a = m.memory.cell a) :
    Unwritten S m { m with memory := mem } := by
  apply unwritten_of_memory
  intro a p outside
  rw [kept a]
  by_contra within
  exact outside (named ⟨a, p, by omega, by omega, rfl⟩)

/-- A field that is written in a cell. -/
theorem unwritten_of_put {f : Field} (valid : f.Valid) {a : Nat} (inside : a < memorySize)
    (v : Word) :
    Unwritten (fieldOf a f) m
      { m with memory := m.memory.put a (f.insert (m.memory.cell a) v) } := by
  apply unwritten_of_memory
  intro b p outside
  by_cases same : a = b
  · subst same
    rw [Memory.cell_put_self _ inside]
    cases p with
    | bit31 => exact absurd (.inl rfl) outside
    | position k =>
        apply Field.part_insert valid
        by_contra within
        exact outside (.inr ⟨k, by omega, by omega, rfl⟩)
  · rw [Memory.cell_put_of_ne _ same]

/-- A buffer that holds another block. -/
theorem unwritten_of_block {unit : Nat} {b : Buffer} (held : m.devices.get? unit = some b)
    (ws : List Word) :
    Unwritten {.block unit} m
      { m with devices := m.devices.attach unit { b with block := ws } } := by
  have other : ∀ v, v ≠ unit → (m.devices.attach unit { b with block := ws }).get? v =
      m.devices.get? v := fun v apart => Devices.get?_attach_of_ne _ (Ne.symm apart) _
  intro p outside
  cases p with
  | device v =>
      show ((m.devices.attach unit { b with block := ws }).get? v).map (·.name) = _
      by_cases same : v = unit
      · subst same
        rw [Devices.get?_attach_self _ (Devices.lt_of_get? held), held]
        rfl
      · rw [other v same]
  | block v =>
      have apart : v ≠ unit := fun same => outside (congrArg Part.block same)
      exact congrArg _ (other v apart)
  | _ => rfl

/-! ### The operations -/

/-- A value with the sign of the register keeps the signs of all. -/
theorem sign_set {rs : Registers} {r : Register} {v : Word} (signed : r ≠ .j)
    (sign : v.sign = (rs.get r).sign) (s : Register) :
    ((rs.set r v).get s).sign = (rs.get s).sign := by
  by_cases same : s = r
  · subst same
    rw [Registers.get_set_self, Registers.narrow, Word.sign_ofSignMagnitude, if_neg signed, sign]
  · rw [Registers.get_set_of_ne rs same]

/-- A shift keeps the signs. -/
theorem sign_shift (rs : Registers) (kind : Shift) (count : Nat) (r : Register) :
    ((rs.shift kind count).get r).sign = (rs.get r).sign := by
  have a : ∀ bytes, (Word.ofBytes rs.a.sign bytes).sign = (rs.get .a).sign := fun bytes =>
    Word.sign_ofSignMagnitude _ _
  have x : ∀ bytes v, (Word.ofBytes rs.x.sign bytes).sign = ((rs.set .a v).get .x).sign :=
    fun bytes v => Word.sign_ofSignMagnitude _ _
  unfold Registers.shift
  dsimp only
  split
  · rw [sign_set (by decide) (x _ _), sign_set (by decide) (a _)]
  · rw [sign_set (by decide) (a _)]

/-- A shift keeps the signs of the registers and every register that is not shifted. -/
theorem unwritten_of_shift (fit : m.registers.Fit) (kind : Shift) (count : Nat)
    (named : ∀ r ∈ kind.targets, magnitudeOf r ⊆ S) :
    Unwritten S m { m with registers := m.registers.shift kind count } := by
  have writes := m.registers.shift_writes kind count
  refine unwritten_of_registers ?_ (fun _ => Registers.overflow_shift kind count)
    (fun _ => Registers.comparison_shift kind count)
  intro r p outside
  by_cases touches : r ∈ kind.targets
  · cases p with
    | bit31 =>
        rw [((fit.writes writes) r).proper.part_bit31, (fit r).proper.part_bit31]
    | position k =>
        by_cases first : k.val = 0
        · unfold Word.part
          dsimp only
          rw [if_pos first, if_pos first, sign_shift]
        · exact absurd (named r touches ⟨k, first, rfl⟩) outside
  · rw [writes.kept r touches]

variable {ea : Word} {op : Operation} {flow : Flow}

/-- A write to one register that may be changed. -/
theorem unwritten_of_set (r : Register) (v : Word) :
    Unwritten (wholeRegister r) m { m with registers := m.registers.set r v } := by
  refine unwritten_of_writes ((Registers.Writes.refl [r] _).set (List.mem_singleton.2 rfl) v) ?_
    (fun _ => Registers.overflow_set ..) (fun _ => Registers.comparison_set ..)
  intro s named
  cases List.mem_singleton.1 named
  exact Set.Subset.rfl

/-- The link of a jump that is taken. -/
theorem unwritten_of_link (taken : m.takesJump op) :
    Unwritten (m.linkOf op) m { m with registers := m.registers.link } := by
  intro p outside
  exact unwritten_of_set .j _ p fun whole => outside ⟨taken, whole⟩

theorem unwritten_of_arithmetic (kind : Arithmetic) (f : Field) (v : Word) :
    Unwritten (m.writeSet ea (.arithmetic kind f)) m
      { m with registers := m.registers.arithmetic kind v } := by
  refine unwritten_of_writes (m.registers.arithmetic_writes kind v) ?_ ?_
    (fun _ => Registers.comparison_arithmetic kind v)
  · intro r named p whole
    cases kind with
    | add => exact .inl (List.mem_singleton.1 named ▸ whole)
    | sub => exact .inl (List.mem_singleton.1 named ▸ whole)
    | mul =>
        rcases List.mem_pair.1 named with rfl | rfl
        · exact .inl whole
        · exact .inr whole
    | div =>
        rcases List.mem_pair.1 named with rfl | rfl
        · exact .inl (.inl whole)
        · exact .inl (.inr whole)
  · intro outside
    cases kind with
    | mul => exact (Registers.overflow_set ..).trans (Registers.overflow_set ..)
    | _ => exact absurd (.inr rfl) outside

theorem unwritten_of_transfer (r : Register) (kind : Transfer) (v : Word) :
    Unwritten (wholeRegister r ∪ {.overflow}) m
      { m with registers := m.registers.transfer r kind v } := by
  refine unwritten_of_writes (m.registers.transfer_writes r kind v) ?_
    (fun outside => absurd (.inr rfl) outside) (fun _ => Registers.comparison_transfer r kind v)
  intro s named
  cases List.mem_singleton.1 named
  exact Set.subset_union_left

/-- A shift may change the magnitudes of the registers that it shifts. -/
theorem magnitudeOf_subset {kind : Shift} {r : Register} (named : r ∈ kind.targets) :
    magnitudeOf r ⊆ m.writeSet ea (.shift kind) := by
  cases kind with
  | sla => cases List.mem_singleton.1 named; exact Set.Subset.rfl
  | sra => cases List.mem_singleton.1 named; exact Set.Subset.rfl
  | _ =>
      rcases List.mem_pair.1 named with rfl | rfl
      · exact Set.subset_union_left
      · exact Set.subset_union_right

/-- A test changes nothing but the toggle, and that only in the two jumps that test it. -/
theorem unwritten_of_test (condition : Condition) :
    Unwritten (m.writeSet ea (.jump condition)) m
      { m with registers := m.registers.afterTest condition } := by
  refine unwritten_of_writes (m.registers.afterTest_writes condition)
    (fun r named => absurd named List.not_mem_nil) ?_
    (fun _ => Registers.comparison_afterTest condition)
  intro outside
  cases condition with
  | jov => exact absurd (.inr rfl) outside
  | jnov => exact absurd (.inr rfl) outside
  | _ => rfl

theorem unwritten_of_jump {condition : Condition} (taken : m.takesJump (.jump condition)) :
    Unwritten (m.writeSet ea (.jump condition)) m
      { m with registers := m.registers.afterJump condition } := by
  refine unwritten_of_writes (m.registers.afterJump_writes condition) ?_ ?_
    (fun _ => Registers.comparison_afterJump condition)
  · intro r named p whole
    cases condition with
    | jsj => cases named
    | jov => exact .inl ⟨taken, List.mem_singleton.1 named ▸ whole⟩
    | jnov => exact .inl ⟨taken, List.mem_singleton.1 named ▸ whole⟩
    | _ => exact ⟨taken, List.mem_singleton.1 named ▸ whole⟩
  · intro outside
    cases condition with
    | jov => exact absurd (.inr rfl) outside
    | jnov => exact absurd (.inr rfl) outside
    | _ => exact Registers.overflow_afterJump _

/-- **An instruction changes nothing outside its write set.** -/
theorem Completes.unwritten (h : Completes m ea op flow m') (fit : m.registers.Fit)
    (valid : ∀ f ∈ op.field?, f.Valid) : Unwritten (m.writeSet ea op) m m' := by
  cases h with
  | nop => exact unwritten_refl _ m
  | arithmetic _ => exact unwritten_of_arithmetic _ _ _
  | halt =>
      intro p outside
      cases p with
      | state => exact absurd rfl outside
      | _ => rfl
  | shift _ => exact unwritten_of_shift fit _ _ fun r named => magnitudeOf_subset named
  | moveSame _ => exact unwritten_refl _ m
  | @move count source target s t _ range range' =>
      obtain ⟨number, -⟩ := Memory.block_eq_ok_iff.1 range'
      have length := Memory.block_length_le range
      have copied : Unwritten (m.writeSet ea (.move count)) m
          { m with memory := m.memory.copy source target (s - source) } := by
        have named : cells target (s - source) ⊆ m.writeSet ea (.move count) := by
          rintro p ⟨a, q, low, high, rfl⟩
          exact .inl ⟨a, q, by omega, by omega, rfl⟩
        exact unwritten_of_cells named fun a outside => Memory.cell_copy_of_outside _ outside
      refine copied.trans fun p outside => ?_
      exact unwritten_of_set .i1 _ p fun whole => outside (.inr whole)
  | load _ => exact unwritten_of_set _ _
  | loadNegative _ => exact unwritten_of_set _ _
  | store address =>
      obtain ⟨number, inside⟩ := Memory.index_eq_ok_iff.1 address
      rw [writeSet, number, Int.toNat_natCast]
      exact unwritten_of_put (valid _ rfl) inside _
  | storeZero address =>
      obtain ⟨number, inside⟩ := Memory.index_eq_ok_iff.1 address
      rw [writeSet, number, Int.toNat_natCast]
      exact unwritten_of_put (valid _ rfl) inside _
  | deviceStay _ _ => exact unwritten_refl _ m
  | @deviceJump op unit a d found when _ =>
      have taken : m.takesJump (.device op unit) := ⟨d, Devices.find_eq_ok_iff.1 found, when⟩
      cases op with
      | jbus => exact unwritten_of_link taken
      | jred => exact unwritten_of_link taken
      | _ => cases when
  | control found hook =>
      rw [Buffer.of_control hook, Devices.attach_get? _ (Devices.find_eq_ok_iff.1 found)]
      exact unwritten_refl _ m
  | @input unit first stop d d' block found range _ hook =>
      have held := Devices.find_eq_ok_iff.1 found
      obtain ⟨number, -⟩ := Memory.block_eq_ok_iff.1 range
      obtain ⟨same, copied⟩ := Buffer.of_input hook
      rw [same, Devices.attach_get? _ held, copied]
      have named : cells first d.block.length ⊆ m.writeSet ea (.device .input unit) := by
        intro p within
        refine ⟨d, held, ?_⟩
        rwa [number]
      exact unwritten_of_cells named fun a outside => Memory.cell_putWords_of_outside _ outside
  | output found range _ hook =>
      obtain ⟨-, same⟩ := Buffer.of_output hook
      rw [same]
      exact unwritten_of_block (Devices.find_eq_ok_iff.1 found) _
  | jumpStay _ => exact unwritten_of_test _
  | jump holds _ => exact unwritten_of_jump holds
  | registerStay _ => exact unwritten_refl _ m
  | registerJump holds _ => exact unwritten_of_link holds
  | transfer => exact unwritten_of_transfer _ _ _
  | compare _ =>
      exact unwritten_of_registers (fun r p _ => by rw [Registers.compare, Registers.get_mk_flags])
        (fun _ => rfl) (fun outside => absurd rfl outside)

/-- A store leaves bit 31 of its cell clear. -/
theorem Completes.proper_cell_of_store (h : Completes m ea op flow m') {f : Field}
    (stores : op = .storeZero f ∨ ∃ r, op = .store r f) :
    (m'.memory.cell ea.value.toNat).Proper := by
  have written : ∀ {a : Nat} (v : Word), Memory.index ea.value = .ok a →
      ((m.memory.put a (f.insert (m.memory.cell a) v)).cell ea.value.toNat).Proper := by
    intro a v address
    obtain ⟨number, inside⟩ := Memory.index_eq_ok_iff.1 address
    rw [number, Int.toNat_natCast, Memory.cell_put_self _ inside]
    exact Word.proper_ofSignMagnitude _ _
  rcases stores with rfl | ⟨r, rfl⟩
  · cases h with
    | storeZero address => exact written _ address
  · cases h with
    | store address => exact written _ address

/-- A division that answers does not turn the toggle on, and one that does not answer does
nothing else. -/
theorem Completes.overflow_or_registers_of_div {f : Field}
    (h : Completes m ea (.arithmetic .div f) flow m') :
    m.SameIn m' .overflow ∨ ∀ r p, m.SameIn m' (.register r p) := by
  cases h with
  | @arithmetic _ _ a _ =>
      show (Registers.arithmetic _ .div _).overflow = _ ∨
        ∀ r p, ((Registers.arithmetic _ .div _).get r).part p = _
      unfold Registers.arithmetic
      dsimp only
      split
      · exact .inl ((Registers.overflow_set ..).trans (Registers.overflow_set ..))
      · exact .inr fun r p => by rw [Registers.latchOverflow, Registers.get_mk_flags]

/-- The parts of the machine behind an instruction are those that the instruction leaves. -/
theorem Performs.sameIn_of_completes {i : Instruction} {flow : Flow} {p : Part}
    (same : m.SameIn m' p) : m.SameIn (retire i m.registers.pc flow m') p := by
  cases p with
  | register r p => exact (congrArg (Word.part · p) (Registers.get_mk_flags ..)).trans same
  | _ => exact same

/-- **A step or a word that is executed changes its write set only**, besides the program
counter, the counts and the last instruction: the count of steps by one, and the clock by the
duration of the operation. A division changes A and X or the toggle, not both, and a store
clears bit 31 of its cell. The parts that write sets are made of are the whole machine. -/
theorem changes_only_write_set {calls : List Call} (reached : Reached calls m) {a : Attempt}
    {s : RunState} (run : a.exec m = .ok s m') :
    (∃ i, Instruction.decode (a.fetch m) = .ok i ∧
      m'.steps = m.steps + 1 ∧
      m'.clock = m.clock + i.operation.duration ∧
      1 ≤ i.operation.duration ∧ i.operation.duration ≤ 127 ∧
      m'.last = some i ∧
      (∀ p, p ∉ m.writeSet (m.effectiveAddress i) i.operation → m.SameIn m' p) ∧
      (∀ f, i.operation = .arithmetic .div f →
        m.SameIn m' .overflow ∨ ∀ r p, m.SameIn m' (.register r p)) ∧
      ∀ f, (i.operation = .storeZero f ∨ ∃ r, i.operation = .store r f) →
        (m'.memory.cell (m.effectiveAddress i).value.toNat).Proper) ∧
    ∀ m₁ m₂ : Machine Buffer, (∀ p, m₁.SameIn m₂ p) →
      m₂ = { m₁ with
        registers := { m₁.registers with pc := m₂.registers.pc }
        steps := m₂.steps
        clock := m₂.clock
        last := m₂.last } := by
  obtain ⟨-, -, i, decoded, performs⟩ := Attempt.performs_of_ok run
  refine ⟨⟨i, decoded, ?_⟩, fun m₁ m₂ same => eq_of_sameIn same⟩
  cases performs with
  | intro _ completes =>
      have kept := completes.unwritten reached.fit (Instruction.valid_of_decode decoded)
      refine ⟨congrArg (· + 1) completes.steps,
        congrArg (· + i.operation.duration) completes.clock, i.operation.one_le_duration,
        Instruction.duration_le_of_decode decoded, rfl,
        fun p outside => Performs.sameIn_of_completes (kept p outside), ?_,
        fun f stores => completes.proper_cell_of_store stores⟩
      intro f divides
      rw [divides] at completes
      rcases completes.overflow_or_registers_of_div with toggle | registers
      · exact .inl toggle
      · exact .inr fun r p => Performs.sameIn_of_completes (registers r p)

/-- The word `STA 7(4:4)`, executed by the standard machine: only one byte of one cell may be
another one. -/
theorem changes_only_write_set_store :
    ∃ s m', (Attempt.word (Instruction.assemble 7 0 36 24)).exec standard = .ok s m' ∧
      m'.steps = 1 ∧ m'.clock = 2 ∧ (m'.memory.cell 7).Proper ∧
      ∀ p, p ∉ fieldOf 7 ⟨4, 4⟩ → standard.SameIn m' p := by
  have decoded : Instruction.decode (Instruction.assemble 7 0 36 24) =
      .ok ⟨⟨7⟩, 0, .store .a ⟨4, 4⟩⟩ := by rfl
  have completes : Completes standard (standard.effectiveAddress ⟨⟨7⟩, 0, .store .a ⟨4, 4⟩⟩)
      (.store .a ⟨4, 4⟩) .next _ := .store (Memory.index_of_lt (by decide : 7 < memorySize))
  have performs := Performs.intro (i := ⟨⟨7⟩, 0, .store .a ⟨4, 4⟩⟩) (by decide) completes
  have run := executeWord_eq_ok_iff.2 ⟨rfl, rfl, _, decoded, performs⟩
  obtain ⟨⟨i, decoded', steps, clock, -, -, -, kept, -, proper⟩, -⟩ :=
    changes_only_write_set .standard (a := .word _) run
  cases decoded'.symm.trans decoded
  exact ⟨_, _, run, steps, clock, proper ⟨4, 4⟩ (.inr ⟨.a, rfl⟩), kept⟩

end Machine

end MixMachine
