import MixMachine.Proofs.Actions

/-!
# Runs of cells

Memory is read and written by single cells and by whole runs. A run is checked once, before its
first cell, and from there on it is what the single accesses would be, one after the other. The
checks differ in what they accept: words may be placed, and a slice be taken, at the very end
of memory, and a dump may start anywhere, because it leaves out what is no cell.

* `Memory.words_succ`, `Memory.cell_putWords_of_outside`, `Memory.words_putWords`: the words of
  a run, and what putting words there leaves.
* `Memory.mapM_read`, `Memory.writeEach_addressed`: single reads and writes, one after the
  other.
* `Memory.loadWords_eq_error_iff`: when the placing of words fails, and how.
* `Memory.runs_are_single_accesses`: all accesses to runs against those to cells.
-/

namespace MixMachine.Memory

variable {m m' : Memory} {first start count a : Nat} {ws : List Word}

/-! ## The words of a run -/

/-- A run of cells in memory has as many words as cells. -/
theorem length_words (m : Memory) {first n : Nat} (inside : first + n ≤ memorySize) :
    (m.words first n).length = n := by
  rw [words, List.length_take, List.length_drop, Vector.length_toList]
  omega

theorem words_succ (m : Memory) {first : Nat} (inside : first < memorySize) (n : Nat) :
    m.words first (n + 1) = m.cell first :: m.words (first + 1) n := by
  have inside' : first < m.cells.toList.length := by
    rwa [Vector.length_toList]
  rw [words, List.drop_eq_getElem_cons inside', List.take_succ_cons, words, cell,
    Vector.getElem?_eq_getElem inside, Option.getD_some, Vector.getElem_toList]

/-- Words are put into no other cells than theirs. -/
theorem cell_putWords_of_outside (m : Memory) {first a : Nat} {ws : List Word}
    (outside : a < first ∨ first + ws.length ≤ a) : (m.putWords first ws).cell a = m.cell a := by
  induction ws generalizing m first with
  | nil => rfl
  | cons w ws ih =>
      rw [List.length_cons] at outside
      rw [putWords, ih (m.put first w) (by omega), cell_put_of_ne m (by omega)]

/-- Words that were put into memory are read back. -/
theorem words_putWords (m : Memory) {first : Nat} {ws : List Word}
    (inside : first + ws.length ≤ memorySize) :
    (m.putWords first ws).words first ws.length = ws := by
  induction ws generalizing m first with
  | nil => rfl
  | cons w ws ih =>
      rw [List.length_cons] at inside ⊢
      -- the rest goes behind the first word and does not overwrite it
      rw [words_succ _ (by omega), putWords, cell_putWords_of_outside _ (by omega),
        cell_put_self m (by omega), ih (m.put first w) (by omega)]

/-! ## Single accesses, one after the other -/

/-- Words with the addresses from `start` on. -/
def addressed (start : Nat) (ws : List Word) : List (Nat × Word) :=
  (List.range' start ws.length).zip ws

theorem addressed_cons (start : Nat) (w : Word) (ws : List Word) :
    addressed start (w :: ws) = (start, w) :: addressed (start + 1) ws := rfl

/-- Writes each word at its address, one after the other, up to the first write that fails. -/
def writeEach (m : Memory) (cells : List (Nat × Word)) : Except MemoryError Memory :=
  cells.foldlM (fun mem c => mem.write c.1 c.2) m

/-- The words of a run written one after the other. -/
theorem writeEach_addressed (m : Memory) (inside : start + ws.length ≤ memorySize) :
    m.writeEach (addressed start ws) = .ok (m.putWords start ws) := by
  induction ws generalizing m start with
  | nil => rfl
  | cons w ws ih =>
      rw [List.length_cons] at inside
      rw [addressed_cons, writeEach, List.foldlM_cons, m.write_eq (by omega)]
      exact ih (m.put start w) (by omega)

/-- The cells of a run read one after the other. -/
theorem mapM_read (m : Memory) (inside : first + count ≤ memorySize) :
    (List.range' first count).mapM m.read = .ok (m.words first count) := by
  induction count generalizing first with
  | zero => rfl
  | succ count ih =>
      rw [List.range'_succ, List.mapM_cons, m.read_eq (by omega), ih (by omega),
        words_succ m (by omega)]
      rfl

/-- A cell outside what was written is read as before. -/
theorem read_congr (same : m'.cell a = m.cell a) : m'.read a = m.read a := by
  by_cases inside : a < memorySize
  · rw [read_eq m' inside, read_eq m inside, same]
  · rw [read, dif_neg inside, read, dif_neg inside]

/-! ## Dumps -/

/-- The addresses of a dump. -/
theorem map_fst_dump (m : Memory) (start count : Nat) :
    (m.dump start count).map (·.1) =
      List.range' start (min (start + count) memorySize - start) := by
  rw [dump, List.map_map]
  exact List.map_id _

/-- A dump shows at each address what is read there. -/
theorem read_of_mem_dump {c : Nat × Word} (shown : c ∈ m.dump start count) :
    m.read c.1 = .ok c.2 := by
  obtain ⟨a, listed, rfl⟩ := List.mem_map.1 shown
  obtain ⟨i, within, rfl⟩ := List.mem_range'.1 listed
  exact read_eq m (by omega)

/-- Behind the end of memory a dump shows nothing. -/
theorem dump_of_le (m : Memory) (behind : memorySize ≤ start) : m.dump start count = [] := by
  have none : min (start + count) memorySize - start = 0 := by omega
  rw [dump, none]
  rfl

/-- A dump within memory shows the words of its run. -/
theorem dump_eq_addressed (m : Memory) (inside : start + count ≤ memorySize) :
    m.dump start count = addressed start (m.words start count) := by
  have whole : min (start + count) memorySize - start = count := by omega
  rw [dump, whole]
  clear whole
  induction count generalizing start with
  | zero => rfl
  | succ count ih =>
      rw [List.range'_succ, List.map_cons, ih (by omega), words_succ m (by omega), addressed_cons]

/-! ## Slices -/

theorem exists_slice_iff {stop : Nat} :
    (∃ ws, m.slice first stop = .ok ws) ↔ first ≤ stop ∧ stop ≤ memorySize := by
  constructor
  · rintro ⟨ws, taken⟩
    exact (m.slice_eq_ok_iff.1 taken).1
  · intro inside
    exact ⟨_, m.slice_eq_ok_iff.2 ⟨inside, rfl⟩⟩

/-- A slice holds what its cells are read as. -/
theorem mapM_read_of_slice {stop : Nat} (taken : m.slice first stop = .ok ws) :
    (List.range' first (stop - first)).mapM m.read = .ok ws := by
  obtain ⟨⟨ordered, inside⟩, rfl⟩ := m.slice_eq_ok_iff.1 taken
  exact mapM_read m (by omega)

/-! ## The placing of words -/

/-- **Words are placed exactly when their run ends in memory.** -/
theorem loadWords_eq_ok_iff :
    m.loadWords start ws = .ok m' ↔
      start + ws.length ≤ memorySize ∧ m' = m.putWords start ws := by
  unfold loadWords
  split
  · rename_i outside
    have more := List.length_pos_iff.2 outside.2
    constructor
    · intro h
      cases h
    · intro h
      omega
  · exact check_eq_ok_iff

theorem exists_loadWords_iff :
    (∃ m', m.loadWords start ws = .ok m') ↔ start + ws.length ≤ memorySize := by
  constructor
  · rintro ⟨m', placed⟩
    exact (loadWords_eq_ok_iff.1 placed).1
  · intro inside
    exact ⟨_, loadWords_eq_ok_iff.2 ⟨inside, rfl⟩⟩

/-- **Any other run is refused**, for its start when that is no cell and there are words, and
else for its size. -/
theorem loadWords_eq_error_iff {e : MemoryError} :
    m.loadWords start ws = .error e ↔
      memorySize < start + ws.length ∧
        e = if memorySize ≤ start ∧ ws ≠ [] then
            .addressOutOfRange (min start 0x7FFFFFFFFFFFFFFF)
          else .programTooLarge ws.length (memorySize - start) := by
  unfold loadWords
  split
  · rename_i outside
    have more := List.length_pos_iff.2 outside.2
    rw [Except.error.injEq]
    exact ⟨fun h => ⟨by omega, h.symm⟩, fun h => h.2.symm⟩
  · rw [check_eq_error_iff, Nat.not_le]

/-- **Accesses to runs of cells agree with those to single cells.** Words are placed exactly
when their run ends in memory. The memory is then the one that single writes leave, no other
cell has changed, and a dump of the run shows the words at their addresses. Any other run is
refused as a whole: a machine that tries to place it stays as it was, whatever words would have
had a cell. The error names the start, as far as a signed number of 64 bits goes, when no word
has a cell, and else the size and the room. A dump shows the cells from its start on, in order
and each once, as they are read, and ends with memory. A slice is taken exactly when it is a
run in memory, and holds what the cells are read as. -/
theorem runs_are_single_accesses {δ : Type} (m : Memory) :
    (∀ start ws, ((∃ m', m.loadWords start ws = .ok m') ↔ start + ws.length ≤ 4000) ∧
      (∀ m', m.loadWords start ws = .ok m' →
        m.writeEach (addressed start ws) = .ok m' ∧
        (∀ a, a < start ∨ start + ws.length ≤ a → m'.read a = m.read a) ∧
        m'.dump start ws.length = addressed start ws) ∧
      ∀ e, m.loadWords start ws = .error e →
        (e = if 4000 ≤ start ∧ ws ≠ [] then .addressOutOfRange (min start 0x7FFFFFFFFFFFFFFF)
          else .programTooLarge ws.length (4000 - start)) ∧
        ∀ machine : Machine δ, machine.memory = m →
          Exec.changeMemory (fun mem => mem.loadWords start ws) machine =
            .error (.memory e) machine) ∧
    (∀ start count,
      (m.dump start count).map (·.1) =
        List.range' start (min (start + count) 4000 - start) ∧
      ((m.dump start count).map (·.1)).Pairwise (· < ·) ∧
      (∀ c ∈ m.dump start count, m.read c.1 = .ok c.2) ∧
      (4000 ≤ start → m.dump start count = [])) ∧
    ∀ first stop, ((∃ ws, m.slice first stop = .ok ws) ↔ first ≤ stop ∧ stop ≤ 4000) ∧
      ∀ ws, m.slice first stop = .ok ws →
        (List.range' first (stop - first)).mapM m.read = .ok ws := by
  refine ⟨?_, ?_, fun first stop => ⟨exists_slice_iff, fun ws taken => mapM_read_of_slice taken⟩⟩
  · intro start ws
    refine ⟨exists_loadWords_iff, ?_, ?_⟩
    · intro m' placed
      obtain ⟨inside, rfl⟩ := loadWords_eq_ok_iff.1 placed
      refine ⟨writeEach_addressed m inside, ?_, ?_⟩
      · intro a outside
        exact read_congr (cell_putWords_of_outside m outside)
      · rw [dump_eq_addressed _ inside, words_putWords m inside]
    · intro e refused
      refine ⟨(loadWords_eq_error_iff.1 refused).2, ?_⟩
      rintro machine rfl
      exact Exec.changeMemory_error refused
  · intro start count
    have addresses := map_fst_dump m start count
    refine ⟨addresses, ?_, fun c shown => read_of_mem_dump shown, dump_of_le m⟩
    rw [addresses]
    exact List.pairwise_lt_range'

/-- Two words fill the last two cells; no words are refused behind the end of memory, though
not at the end, and the standard machine stays as it is. -/
theorem runs_are_single_accesses_end :
    (∃ m, zeros.loadWords 3998 [⟨6⟩, ⟨7⟩] = .ok m ∧
      m.dump 3998 2 = [(3998, ⟨6⟩), (3999, ⟨7⟩)] ∧ m.read 3997 = zeros.read 3997) ∧
    (∃ m, zeros.loadWords 4000 [] = .ok m) ∧
    Exec.changeMemory (fun mem => mem.loadWords 4001 []) Machine.standard =
      .error (.memory (.programTooLarge 0 0)) Machine.standard := by
  obtain ⟨placing, -, -⟩ := runs_are_single_accesses (δ := Buffer) zeros
  obtain ⟨twoFit, two, -⟩ := placing 3998 [⟨6⟩, ⟨7⟩]
  obtain ⟨noneFit, -, -⟩ := placing 4000 []
  obtain ⟨-, -, refusal⟩ := placing 4001 []
  obtain ⟨m, placed⟩ := twoFit.2 (by decide)
  obtain ⟨-, kept, shown⟩ := two m placed
  have refused : zeros.loadWords 4001 [] = .error (.programTooLarge 0 0) :=
    loadWords_eq_error_iff.2 ⟨by decide, rfl⟩
  obtain ⟨-, unchanged⟩ := refusal _ refused
  exact ⟨⟨m, placed, shown, kept 3997 (by decide)⟩, noneFit.2 (by decide), unchanged _ rfl⟩

end MixMachine.Memory
