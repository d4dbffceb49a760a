import MixMachine.Proofs.FailureConditions
import MixMachine.Proofs.Histories

/-!
# What a move leaves in memory

A move copies its words one after the other, from the lowest address up, and reads each of
them when its turn has come. A target below the source is written behind the reading, so it
gets the words of the source. A target above the source is written ahead of it: from the place
on where the two overlap the words are read that were copied before, so the target repeats the
words from the source up to itself, and its period is the distance of the two.

* `Memory.cell_copy_below`, `Memory.cell_copy_above`: the two directions, for every overlap.
* `Machine.move_closed_form`: what a move leaves of memory, the registers and itself.
-/

namespace MixMachine

namespace Memory

variable {source target distance count i : Nat}

/-- Below the source every word arrives as it was. -/
theorem cell_copy_below (m : Memory) (below : target < source) (within : i < count)
    (inside : target + count ≤ memorySize) :
    (m.copy source target count).cell (target + i) = m.cell (source + i) := by
  induction count generalizing m source target i with
  | zero => exact absurd within (Nat.not_lt_zero i)
  | succ count ih =>
      rw [copy]
      cases i with
      | zero =>
          rw [cell_copy_of_outside _ (by omega)]
          exact cell_put_self m (by omega) _
      | succ i =>
          -- the first word went to a cell that no later word is read from
          have later := ih (m.put target (m.cell source)) (Nat.add_lt_add_right below 1)
            (Nat.lt_of_succ_lt_succ within) (by omega)
          rw [Nat.add_right_comm target 1 i, Nat.add_right_comm source 1 i] at later
          exact later.trans (cell_put_of_ne m (by omega) _)

/-- Above the source the words repeat with the distance as their period. -/
theorem cell_copy_above (m : Memory) (source : Nat) (above : 0 < distance) (within : i < count)
    (inside : source + distance + count ≤ memorySize) :
    (m.copy source (source + distance) count).cell (source + distance + i) =
      m.cell (source + i % distance) := by
  induction count generalizing m source i with
  | zero => exact absurd within (Nat.not_lt_zero i)
  | succ count ih =>
      rw [copy]
      cases i with
      | zero =>
          rw [cell_copy_of_outside _ (by omega), Nat.zero_mod]
          exact cell_put_self m (by omega) _
      | succ i =>
          have later := ih (m.put (source + distance) (m.cell source)) (source + 1)
            (Nat.lt_of_succ_lt_succ within) (by omega)
          rw [Nat.add_right_comm source 1 distance, Nat.add_right_comm _ 1 i] at later
          rw [← Nat.add_assoc, later, ← Nat.mod_add_mod]
          have short : i % distance + 1 ≤ distance := Nat.mod_lt i above
          rcases Nat.lt_or_eq_of_le short with next | wraps
          · rw [Nat.mod_eq_of_lt next, cell_put_of_ne m (by omega), Nat.add_right_comm source 1]
            rfl
          · -- the cell that is read next holds the first word, which has come to it
            have here : source + 1 + i % distance = source + distance := by omega
            have first : (i % distance + 1) % distance = 0 := by
              rw [wraps, Nat.mod_self]
            rw [here, first, cell_put_self m (by omega)]
            rfl

end Memory

namespace Machine

variable {calls : List Call} {m : Machine Buffer} {a : Attempt} {i : Instruction} {count : Nat}

/-- I1 has room for every address up to the size of memory. -/
theorem fits_i1 {n : Nat} (short : n ≤ memorySize) :
    Register.i1.Fits (Word.ofSignMagnitude .plus n) where
  proper := Word.proper_ofSignMagnitude _ _
  short := by
    have size : memorySize = 4000 := rfl
    show _ < 4096
    rw [Word.magnitude_ofSignMagnitude]
    omega
  unsigned := nofun

theorem value_get_i1_set (rs : Registers) {n : Nat} (short : n ≤ memorySize) :
    ((rs.set .i1 (Word.ofSignMagnitude .plus n)).get .i1).value = n := by
  have size : memorySize = 4000 := rfl
  rw [Registers.get_set_self, Registers.narrow_of_fits (fits_i1 short), Word.value_plus (by omega)]

/-- **A move in closed form**, on a reached machine that runs at a cell. A block that is
already in its place stays there, with every register. Any other move between blocks in memory
completes, leaves the address behind the target in I1 and keeps all cells outside the target;
in the target there are the words of the source, or, when it is above the source, those from
the source up to the target over and over. -/
theorem move_closed_form (reached : Reached calls m) (running : m.state = .running)
    (inside : m.registers.pc ≤ 3999) (decoded : Instruction.decode (a.fetch m) = .ok i)
    (moves : i.operation = .move count) :
    (m.exactAddress i = (m.registers.get .i1).value →
      ∃ m', a.exec m = .ok .running m' ∧ m'.memory = m.memory ∧
        m'.registers = { m.registers with pc := m.registers.pc + 1 }) ∧
    ∀ s d : Nat, m.exactAddress i = s → (m.registers.get .i1).value = d → s ≠ d →
      s ≤ 3999 → d ≤ 3999 → s + count ≤ 4000 → d + count ≤ 4000 →
      ∃ m', a.exec m = .ok .running m' ∧
        (m'.registers.get .i1).value = (d + count : Nat) ∧
        (s < d → ∀ k < count,
          m'.memory.cell (d + k) = m.memory.cell (s + k % (d - s))) ∧
        (d < s → ∀ k < count, m'.memory.cell (d + k) = m.memory.cell (s + k)) ∧
        ∀ c, c < d ∨ d + count ≤ c → m'.memory.cell c = m.memory.cell c := by
  have address := value_effectiveAddress reached.fit decoded
  have fetches : m.registers.pc < memorySize := Nat.lt_succ_of_le inside
  constructor
  · intro same
    have completes : Completes m (m.effectiveAddress i) i.operation .next m := by
      rw [moves]
      exact .moveSame (address.trans same)
    exact ⟨_, completes.exec running fetches decoded running, rfl, rfl⟩
  · intro s d source target apart sourceCell targetCell sourceEnd targetEnd
    have moved : Completes m (m.effectiveAddress i) i.operation .next
        { m with
          memory := m.memory.copy s d count
          registers := m.registers.set .i1 (Word.ofSignMagnitude .plus (d + count)) } := by
      rw [moves]
      refine .move_inside ?_ (address.trans source) target (Nat.lt_succ_of_le sourceCell)
        (Nat.lt_succ_of_le targetCell) sourceEnd targetEnd
      rw [address, source, target]
      exact fun same => apart (Int.ofNat_inj.1 same)
    refine ⟨_, moved.exec running fetches decoded running, ?_, ?_, ?_, ?_⟩
    · exact (congrArg Word.value (Registers.get_mk_flags ..)).trans
        (value_get_i1_set m.registers targetEnd)
    · intro above k within
      have whole : s + (d - s) = d := Nat.add_sub_cancel' (Nat.le_of_lt above)
      have copied := m.memory.cell_copy_above s (Nat.sub_pos_of_lt above) within
        (by rw [whole]; exact targetEnd)
      rwa [whole] at copied
    · intro below k within
      exact m.memory.cell_copy_below below within targetEnd
    · intro c outside
      exact m.memory.cell_copy_of_outside outside

/-- A machine with two words from 10 on and the address behind them in I1. -/
def repeating : Machine Buffer :=
  (Call.setRegister .i1 ⟨12⟩).apply
    ((Call.loadWord 11 ⟨7⟩).apply ((Call.loadWord 10 ⟨6⟩).apply .standard))

/-- A move of five words from 10 on writes the two words two times and a half. -/
theorem move_closed_form_repeating :
    ∃ m', (Attempt.word (Instruction.assemble 10 0 5 Opcode.move)).exec repeating =
        .ok .running m' ∧
      (m'.registers.get .i1).value = 17 ∧
      m'.memory.cell 12 = ⟨6⟩ ∧ m'.memory.cell 15 = ⟨7⟩ ∧ m'.memory.cell 16 = ⟨6⟩ ∧
      m'.memory.cell 11 = ⟨7⟩ := by
  have reached := ((Reached.standard.call (.loadWord 10 ⟨6⟩)).call (.loadWord 11 ⟨7⟩)).call
    (.setRegister .i1 ⟨12⟩)
  have decoded : Instruction.decode (Instruction.assemble 10 0 5 Opcode.move) =
      .ok ⟨Instruction.addressOf 10, 0, .move 5⟩ := rfl
  have first : repeating.memory.cell 10 = ⟨6⟩ := by decide +kernel
  have second : repeating.memory.cell 11 = ⟨7⟩ := by decide +kernel
  obtain ⟨-, apart⟩ := move_closed_form reached rfl (by decide +kernel) (a := .word _) decoded rfl
  obtain ⟨m', run, behind, above, -, kept⟩ := apart 10 12 rfl (by decide +kernel) (by decide)
    (by decide) (by decide) (by decide) (by decide)
  refine ⟨m', run, behind, ?_, ?_, ?_, ?_⟩
  · exact (above (by decide) 0 (by decide)).trans first
  · exact (above (by decide) 3 (by decide)).trans second
  · exact (above (by decide) 4 (by decide)).trans first
  · exact (kept 11 (by decide)).trans second

end Machine

end MixMachine
