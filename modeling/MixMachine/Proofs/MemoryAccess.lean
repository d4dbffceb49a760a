import MixMachine.Memory
import MixMachine.Proofs.Checks

/-!
# Which accesses to memory succeed

Every access is checked, and this module says exactly when each check passes.

* `Memory.index_eq_ok_iff`: an address passes exactly when it names a cell.
* `Memory.block_eq_ok_iff`: a block passes exactly when all of it lies in memory, or
  when its end wraps round.
* `Memory.block_forward`, `Memory.block_reversed`: the two cases told apart by the
  range that the check gives, which runs forward or is reversed.
* `Memory.read_eq`, `write_eq`, `slice_eq` and `replace_eq`: an access behind a
  passed check succeeds, so a check that is repeated there never fails.

`Memory.copy` is the copy of a block as a function on memory, and `Memory.place`
the placing of the words of an image.
-/

namespace MixMachine.Memory

/-! ## Addresses and blocks -/

/-- A number below the sign bit is left alone. -/
theorem wrap64_of_lt {v : Int} (hl : 0 ≤ v) (hu : v < 0x8000000000000000) : wrap64 v = v := by
  unfold wrap64 Int.bmod
  dsimp only
  split
  · omega
  · omega

/-- A number of 64 bits with the sign bit becomes a negative one. -/
theorem wrap64_of_le {v : Int} (hl : 0x8000000000000000 ≤ v) (hu : v < 0x10000000000000000) :
    wrap64 v = v - 0x10000000000000000 := by
  unfold wrap64 Int.bmod
  dsimp only
  split
  · omega
  · omega

/-- A number that has just no room in 64 bits starts from zero again. -/
theorem wrap64_of_past {v : Int} (hl : 0x10000000000000000 ≤ v) (hu : v < 0x18000000000000000) :
    wrap64 v = v - 0x10000000000000000 := by
  unfold wrap64 Int.bmod
  dsimp only
  split
  · omega
  · omega

theorem signed64_of_lt {n : Nat} (h : n < 0x8000000000000000) : signed64 n = n :=
  wrap64_of_lt (Int.natCast_nonneg n) (by omega)

theorem signed64_of_le {n : Nat} (hl : 0x8000000000000000 ≤ n) (hu : n < 0x10000000000000000) :
    signed64 n = n - 0x10000000000000000 :=
  wrap64_of_le (by omega) (by omega)

/-- An address passes exactly when it names a cell. -/
theorem index_eq_ok_iff {v : Int} {a : Nat} :
    index v = .ok a ↔ v = a ∧ a < memorySize := by
  rw [index, check_eq_ok_iff]
  omega

/-- An address that names no cell is an error which shows the address. -/
theorem index_eq_error_iff {v : Int} {e : MemoryError} :
    index v = .error e ↔ ¬ (0 ≤ v ∧ v < memorySize) ∧ e = .addressOutOfRange v :=
  check_eq_error_iff

theorem index_of_lt {a : Nat} (h : a < memorySize) : index (a : Int) = .ok a :=
  index_eq_ok_iff.2 ⟨rfl, h⟩

/-- The last cell of a block that starts in memory seems to be in memory exactly when it is,
or when the end of the block wraps round. -/
theorem lastAddress_inside_iff {first n : Nat} (hf : first < memorySize) (hn : 0 < n) :
    (0 ≤ lastAddress first n ∧ lastAddress first n < memorySize) ↔
      first + n ≤ memorySize ∨ BlockWraps first n := by
  have size : memorySize = 4000 := rfl
  unfold lastAddress BlockWraps
  split
  · by_cases low : first + n - 1 < 0x8000000000000000
    · rw [wrap64_of_lt (by omega) (by omega)]
      omega
    · by_cases high : first + n - 1 < 0x10000000000000000
      · rw [wrap64_of_le (by omega) (by omega)]
        omega
      · rw [wrap64_of_past (by omega) (by omega)]
        omega
  · omega

/-- **A block passes exactly when it starts in memory and ends in memory**, or when its end
wraps round. -/
theorem block_eq_ok_iff {v : Int} {n first stop : Nat} :
    block v n = .ok (first, stop) ↔
      v = first ∧ first < memorySize ∧
        (first + n ≤ memorySize ∧ stop = first + n ∨
          BlockWraps v n ∧ first + n = stop + 0x10000000000000000) := by
  have size : memorySize = 4000 := rfl
  unfold block
  cases hv : index v with
  | error e =>
      obtain ⟨outside, -⟩ := index_eq_error_iff.1 hv
      constructor
      · intro h
        cases h
      · intro h
        omega
  | ok a =>
      obtain ⟨rfl, ha⟩ := index_eq_ok_iff.1 hv
      rcases Nat.eq_zero_or_pos n with rfl | hn
      · unfold BlockWraps
        simp only [Nat.lt_irrefl, ↓reduceIte, bind, Except.bind, pure, Except.pure,
          Except.ok.injEq, Prod.mk.injEq]
        omega
      · have last := lastAddress_inside_iff ha hn
        simp only [gt_iff_lt, hn, ↓reduceIte, bind, Except.bind, pure, Except.pure]
        cases hl : index (lastAddress a n) with
        | error e =>
            obtain ⟨outside, -⟩ := index_eq_error_iff.1 hl
            rw [last] at outside
            constructor
            · intro h
              cases h
            · rintro ⟨same, -, rest⟩
              cases Int.ofNat_inj.1 same
              exact absurd (rest.imp And.left And.left) outside
        | ok b =>
            obtain ⟨hb, hlt⟩ := index_eq_ok_iff.1 hl
            have inside := last.1 ⟨by omega, by omega⟩
            simp only [Except.ok.injEq, Prod.mk.injEq]
            unfold BlockWraps at inside ⊢
            omega

/-- A range that runs forward is a block in memory. -/
theorem block_forward {v : Int} {n first stop : Nat} (h : block v n = .ok (first, stop))
    (forward : first ≤ stop) :
    v = first ∧ first < memorySize ∧ first + n ≤ memorySize ∧ stop = first + n := by
  obtain ⟨start, small, ⟨inside, stops⟩ | ⟨wraps, stops⟩⟩ := block_eq_ok_iff.1 h
  · exact ⟨start, small, inside, stops⟩
  · unfold BlockWraps at wraps
    omega

/-- A range that is reversed is a block whose end wraps round, into memory. -/
theorem block_reversed {v : Int} {n first stop : Nat} (h : block v n = .ok (first, stop))
    (reversed : stop < first) :
    BlockWraps v n ∧ v + n = stop + 0x10000000000000000 ∧ stop < memorySize := by
  obtain ⟨start, small, ⟨inside, stops⟩ | ⟨wraps, stops⟩⟩ := block_eq_ok_iff.1 h
  · omega
  · exact ⟨wraps, by omega, by omega⟩

/-- A length that is far from 64 bits gives a range that runs forward. -/
theorem block_of_short {v : Int} {n first stop : Nat} (h : block v n = .ok (first, stop))
    (short : n + memorySize ≤ 0x10000000000000000) :
    v = first ∧ first < memorySize ∧ first + n ≤ memorySize ∧ stop = first + n := by
  refine block_forward h (Nat.not_lt.1 fun reversed => ?_)
  obtain ⟨⟨-, inside, -, long⟩, -⟩ := block_reversed h reversed
  omega

/-- A range that a check gives stays in memory. -/
theorem block_stop_le {v : Int} {n first stop : Nat} (h : block v n = .ok (first, stop)) :
    stop ≤ memorySize := by
  obtain ⟨-, small, ⟨inside, rfl⟩ | ⟨⟨-, -, narrow, -⟩, stops⟩⟩ := block_eq_ok_iff.1 h
  · exact inside
  · omega

theorem block_inside {v : Int} {n first stop : Nat} (h : block v n = .ok (first, stop)) :
    first + (stop - first) ≤ memorySize := by
  obtain ⟨-, small, -⟩ := block_eq_ok_iff.1 h
  have inside := block_stop_le h
  omega

/-- A range has no more cells than were asked for. -/
theorem block_length_le {v : Int} {n first stop : Nat} (h : block v n = .ok (first, stop)) :
    stop - first ≤ n := by
  rcases Nat.lt_or_ge stop first with reversed | forward
  · omega
  · obtain ⟨-, -, -, rfl⟩ := block_forward h forward
    omega

/-- Two ranges of one length run forward together, or both are reversed. -/
theorem block_lengths_eq {v w : Int} {n first stop first' stop' : Nat}
    (h : block v n = .ok (first, stop)) (h' : block w n = .ok (first', stop')) :
    stop - first = stop' - first' := by
  have size : memorySize = 4000 := rfl
  obtain ⟨-, small, ⟨inside, rfl⟩ | ⟨⟨-, -, narrow, -⟩, stops⟩⟩ := block_eq_ok_iff.1 h
  · have forward := block_of_short h' (by omega)
    omega
  · rcases Nat.lt_or_ge stop' first' with reversed' | forward'
    · omega
    · have forward := block_forward h' forward'
      omega

/-- A block that lies in memory passes. -/
theorem block_of_le {first n : Nat} (hf : first < memorySize) (hs : first + n ≤ memorySize) :
    block (first : Int) n = .ok (first, first + n) :=
  block_eq_ok_iff.2 ⟨rfl, hf, .inl ⟨hs, rfl⟩⟩

/-! ## Accesses behind a check -/

theorem write_eq (m : Memory) {a : Nat} (h : a < memorySize) (w : Word) :
    m.write a w = .ok (m.put a w) := by
  rw [write, if_pos h]

theorem slice_eq (m : Memory) {first stop : Nat} (hf : first ≤ stop) (hs : stop ≤ memorySize) :
    m.slice first stop = .ok (m.words first (stop - first)) := by
  rw [slice, if_pos ⟨hf, hs⟩]

theorem replace_eq (m : Memory) {first stop : Nat} (hf : first ≤ stop) (hs : stop ≤ memorySize)
    (ws : List Word) : m.replace first stop ws = .ok (m.putWords first ws) := by
  rw [replace, if_pos ⟨hf, hs⟩]

/-- No access goes from a cell to one in front of it. -/
theorem slice_reversed (m : Memory) {first stop : Nat} (h : stop < first) :
    m.slice first stop = .error (.addressOutOfRange (signed64 stop)) := by
  rw [slice, if_neg (by omega)]

theorem replace_reversed (m : Memory) {first stop : Nat} (h : stop < first) (ws : List Word) :
    m.replace first stop ws = .error (.addressOutOfRange (signed64 stop)) := by
  rw [replace, if_neg (by omega)]

/-- Reading fails exactly outside memory. -/
theorem read_eq_error_iff (m : Memory) {a : Nat} {e : MemoryError} :
    m.read a = .error e ↔ memorySize ≤ a ∧ e = .addressOutOfRange (signed64 a) := by
  unfold read
  split
  · rename_i inside
    constructor
    · intro h
      cases h
    · intro h
      omega
  · rename_i outside
    rw [Except.error.injEq]
    constructor
    · intro h
      exact ⟨by omega, h.symm⟩
    · intro h
      exact h.2.symm

/-- Writing fails exactly outside memory. -/
theorem write_eq_error_iff (m : Memory) {a : Nat} {w : Word} {e : MemoryError} :
    m.write a w = .error e ↔ memorySize ≤ a ∧ e = .addressOutOfRange (signed64 a) := by
  rw [write, check_eq_error_iff, Nat.not_lt]

/-- A slice is taken exactly of a run in memory. -/
theorem slice_eq_ok_iff (m : Memory) {first stop : Nat} {ws : List Word} :
    m.slice first stop = .ok ws ↔
      (first ≤ stop ∧ stop ≤ memorySize) ∧ ws = m.words first (stop - first) :=
  check_eq_ok_iff

/-- Every cell is zero when nothing was written, and so is what stands for a cell outside
memory. -/
theorem cell_zeros (a : Nat) : zeros.cell a = .zero := by
  unfold cell zeros
  rw [Vector.getElem?_replicate]
  split
  · rfl
  · rfl

/-! ## Many writes as one function -/

/-- The memory after `count` words from `source` on were copied to `target` on,
one after the other from the lowest address. Where the ranges overlap, a word
copied before is copied again. -/
def copy (m : Memory) (source target : Nat) : Nat → Memory
  | 0 => m
  | count + 1 => (m.put target (m.cell source)).copy (source + 1) (target + 1) count

/-- A copy writes to no cell but its target. -/
theorem cell_copy_of_outside (m : Memory) {source target count a : Nat}
    (outside : a < target ∨ target + count ≤ a) :
    (m.copy source target count).cell a = m.cell a := by
  induction count generalizing m source target with
  | zero => rfl
  | succ count ih => rw [copy, ih _ (by omega), cell_put_of_ne _ (by omega)]

/-- The memory after words were placed at their addresses, in order. -/
def place (m : Memory) : List (Nat × Word) → Memory
  | [] => m
  | (a, w) :: cells => (m.put a w).place cells

end MixMachine.Memory
