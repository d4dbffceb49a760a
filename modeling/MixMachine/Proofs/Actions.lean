import MixMachine.Machine.Run
import MixMachine.Proofs.MemoryAccess
import MixMachine.Proofs.WordViews

/-!
# What the parts of an instruction do

An instruction is put together from a few actions of the machine. Each of them
has here what it answers and what it leaves when its checks pass, and that it
leaves the machine as it was when a check fails. A part whose late accesses are
checked once more completes all the same, because the first check covers them:
`copyCells_ok` and `moveBlock_ok` are the two that need an argument.
-/

namespace MixMachine

namespace Exec

variable {δ α β : Type} {m m' : Machine δ}

/-- What the first action answers and leaves goes to the second. -/
theorem bind_ok {x : Exec δ α} {f : α → Exec δ β} {a : α} (h : x m = .ok a m') :
    (x >>= f) m = f a m' := by
  show EStateM.bind x f m = f a m'
  unfold EStateM.bind
  rw [h]

/-- A failure of the first action is a failure of both. -/
theorem bind_error {x : Exec δ α} {f : α → Exec δ β} {e : Fault} (h : x m = .error e m') :
    (x >>= f) m = .error e m' := by
  show EStateM.bind x f m = .error e m'
  unfold EStateM.bind
  rw [h]

theorem get_bind {f : Machine δ → Exec δ β} : ((get : Exec δ (Machine δ)) >>= f) m = f m m := rfl

theorem ofMemory_ok_bind {a : α} {f : α → Exec δ β} :
    (ofMemory (.ok a) >>= f) m = f a m := rfl

theorem ofMemory_error_bind {e : MemoryError} {f : α → Exec δ β} :
    (ofMemory (.error e) >>= f) m = .error (.memory e) m := rfl

theorem ofDecode_ok_bind {a : α} {f : α → Exec δ β} :
    (ofDecode (.ok a) >>= f) m = f a m := rfl

theorem ofDecode_error_bind {e : DecodeError} {f : α → Exec δ β} :
    (ofDecode (.error e) >>= f) m = .error (.decode e) m := rfl

theorem inspectMemory_ok {f : Memory → Except MemoryError α} {a : α} (h : f m.memory = .ok a) :
    inspectMemory f m = .ok a m := by
  show ofMemory (f m.memory) m = .ok a m
  rw [h]
  rfl

theorem inspectMemory_error {f : Memory → Except MemoryError α} {e : MemoryError}
    (h : f m.memory = .error e) : inspectMemory f m = .error (.memory e) m := by
  show ofMemory (f m.memory) m = .error (.memory e) m
  rw [h]
  rfl

theorem changeMemory_ok {f : Memory → Except MemoryError Memory} {memory : Memory}
    (h : f m.memory = .ok memory) : changeMemory f m = .ok () { m with memory } := by
  show (ofMemory (f m.memory) >>= fun memory => modify fun m => { m with memory }) m = _
  rw [h]
  rfl

theorem changeMemory_error {f : Memory → Except MemoryError Memory} {e : MemoryError}
    (h : f m.memory = .error e) : changeMemory f m = .error (.memory e) m := by
  show (ofMemory (f m.memory) >>= fun memory => modify fun m => { m with memory }) m = _
  rw [h]
  rfl

theorem onDevice_ok {unit : Nat} {d d' : δ} {hook : EStateM DeviceError δ α} {a : α}
    (h : hook d = .ok a d') :
    onDevice unit d hook m = .ok a { m with devices := m.devices.attach unit d' } := by
  unfold onDevice
  rw [h]

theorem onDevice_error {unit : Nat} {d d' : δ} {hook : EStateM DeviceError δ α}
    {e : DeviceError} (h : hook d = .error e d') :
    onDevice unit d hook m =
      .error (.device e) { m with devices := m.devices.attach unit d' } := by
  unfold onDevice
  rw [h]

/-! ## The answer of an action and the machine it leaves -/

/-- What an action answers. -/
def answer (x : Exec δ α) (m : Machine δ) : Except Fault α :=
  match x m with
  | .ok a _ => .ok a
  | .error e _ => .error e

/-- The machine that an action leaves, whether it fails or not. -/
def after (x : Exec δ α) (m : Machine δ) : Machine δ :=
  match x m with
  | .ok _ m' => m'
  | .error _ m' => m'

theorem answer_ok {x : Exec δ α} {a : α} (h : x m = .ok a m') : x.answer m = .ok a := by
  rw [answer, h]

theorem answer_error {x : Exec δ α} {e : Fault} (h : x m = .error e m') :
    x.answer m = .error e := by
  rw [answer, h]

theorem after_ok {x : Exec δ α} {a : α} (h : x m = .ok a m') : x.after m = m' := by
  rw [after, h]

theorem after_error {x : Exec δ α} {e : Fault} (h : x m = .error e m') : x.after m = m' := by
  rw [after, h]

/-- An action is its answer and the machine that it leaves. -/
theorem answer_eq_ok_iff {x : Exec δ α} {a : α} :
    x.answer m = .ok a ↔ x m = .ok a (x.after m) := by
  unfold answer after
  cases x m <;> simp only [Except.ok.injEq, EStateM.Result.ok.injEq, and_true, reduceCtorEq]

theorem answer_eq_error_iff {x : Exec δ α} {e : Fault} :
    x.answer m = .error e ↔ x m = .error e (x.after m) := by
  unfold answer after
  cases x m <;> simp only [Except.error.injEq, EStateM.Result.error.injEq, and_true, reduceCtorEq]

end Exec

/-- The register file behind the test of a jump: the two jumps on overflow turn
the toggle off. -/
def Registers.afterTest (rs : Registers) : Condition → Registers
  | .jov | .jnov => { rs with overflow := false }
  | _ => rs

/-- The register file behind a jump that was taken. -/
def Registers.afterJump (rs : Registers) (condition : Condition) : Registers :=
  if condition = .jsj then rs else (rs.afterTest condition).link

namespace Machine

variable {δ : Type} {m : Machine δ} {ea : Word} {a : Nat}

/-! ## Operands and jumps -/

theorem address_ok (h : Memory.index ea.value = .ok a) : address ea m = .ok a m := by
  unfold address
  rw [h]
  rfl

theorem address_error {e : MemoryError} (h : Memory.index ea.value = .error e) :
    address ea m = .error (.memory e) m := by
  unfold address
  rw [h]
  rfl

theorem operand_ok (h : Memory.index ea.value = .ok a) :
    operand ea m = .ok (m.memory.cell a) m := by
  unfold operand
  rw [Exec.bind_ok (address_ok h)]
  exact Exec.inspectMemory_ok (m.memory.read_eq (Memory.index_eq_ok_iff.1 h).2)

theorem operand_error {e : MemoryError} (h : Memory.index ea.value = .error e) :
    operand ea m = .error (.memory e) m := by
  unfold operand
  exact Exec.bind_error (address_error h)

theorem store_ok (h : Memory.index ea.value = .ok a) (f : Field) (v : Word) :
    store ea f v m =
      .ok () { m with memory := m.memory.put a (f.insert (m.memory.cell a) v) } := by
  have inside : a < memorySize := (Memory.index_eq_ok_iff.1 h).2
  unfold store
  rw [Exec.bind_ok (address_ok h), Exec.bind_ok (Exec.inspectMemory_ok (m.memory.read_eq inside))]
  exact Exec.changeMemory_ok (m.memory.write_eq inside _)

theorem store_error {e : MemoryError} (h : Memory.index ea.value = .error e) (f : Field)
    (v : Word) : store ea f v m = .error (.memory e) m := by
  unfold store
  exact Exec.bind_error (address_error h)

theorem jumpTo_ok (h : Memory.index ea.value = .ok a) :
    jumpTo ea m = .ok (.jump a) { m with registers := m.registers.link } := by
  unfold jumpTo
  rw [Exec.bind_ok (address_ok h)]
  rfl

theorem jumpTo_error {e : MemoryError} (h : Memory.index ea.value = .error e) :
    jumpTo ea m = .error (.memory e) m := by
  unfold jumpTo
  exact Exec.bind_error (address_error h)

/-! ## Jumps on the toggle and the indicator -/

/-- A jump that is not taken. -/
theorem jump_stay {condition : Condition}
    (holds : condition.holds m.registers.overflow m.registers.comparison = false) :
    jump condition ea m =
      .ok .next { m with registers := m.registers.afterTest condition } := by
  unfold jump
  rw [Exec.get_bind]
  dsimp only
  rw [holds, if_neg Bool.false_ne_true]
  cases condition <;> rfl

/-- A jump that is taken. Its target was checked before the toggle is touched. -/
theorem jump_taken {condition : Condition}
    (holds : condition.holds m.registers.overflow m.registers.comparison = true)
    (target : Memory.index ea.value = .ok a) :
    jump condition ea m =
      .ok (.jump a) { m with registers := m.registers.afterJump condition } := by
  unfold jump
  rw [Exec.get_bind]
  dsimp only
  rw [holds, if_pos rfl, Exec.bind_ok (address_ok target)]
  cases condition <;> rfl

theorem jump_error {condition : Condition} {e : MemoryError}
    (holds : condition.holds m.registers.overflow m.registers.comparison = true)
    (target : Memory.index ea.value = .error e) :
    jump condition ea m = .error (.memory e) m := by
  unfold jump
  rw [Exec.get_bind]
  dsimp only
  rw [holds, if_pos rfl]
  exact Exec.bind_error (address_error target)

/-! ## Moving a block -/

/-- Between two ranges in memory every single read and write passes. -/
theorem copyCells_ok {source target count : Nat} (hs : source + count ≤ memorySize)
    (ht : target + count ≤ memorySize) :
    copyCells source target count m =
      .ok () { m with memory := m.memory.copy source target count } := by
  induction count generalizing source target m with
  | zero => rfl
  | succ count ih =>
      have read := m.memory.read_eq (a := source) (by omega)
      have write := m.memory.write_eq (a := target) (by omega) (m.memory.cell source)
      show (Exec.inspectMemory _ >>= fun _ => _) m = _
      rw [Exec.bind_ok (Exec.inspectMemory_ok read), Exec.bind_ok (Exec.changeMemory_ok write)]
      exact ih (by omega) (by omega)

/-- A block that is already where it should go is left alone. -/
theorem moveBlock_same {count : Nat} (h : ea.value = (m.registers.get .i1).value) :
    moveBlock ea count m = .ok () m := by
  unfold moveBlock
  rw [Exec.get_bind]
  dsimp only
  rw [if_pos h]
  rfl

/-- The number behind the target block is at most the size of memory, so it is a
word. -/
theorem ofInt_behind {v : Int} {count target stop : Nat}
    (h : Memory.block v count = .ok (target, stop)) :
    Word.ofInt (v + Memory.signed64 count) = .ok (Word.ofSignMagnitude .plus stop) := by
  have size : memorySize = 4000 := rfl
  have limit : Word.maxMagnitude = 0x3FFFFFFF := rfl
  have behind : v + Memory.signed64 count = stop := by
    obtain ⟨start, small, ⟨inside, stops⟩ | ⟨⟨-, -, narrow, long⟩, stops⟩⟩ :=
      Memory.block_eq_ok_iff.1 h
    · rw [Memory.signed64_of_lt (by omega)]
      omega
    · rw [Memory.signed64_of_le (by omega) narrow]
      omega
  have inside := Memory.block_stop_le h
  rw [behind]
  exact Word.ofInt_natCast (n := stop) (by omega)

/-- Behind the checks of both blocks a move completes. -/
theorem moveBlock_ok {count source target s t : Nat}
    (apart : ea.value ≠ (m.registers.get .i1).value)
    (hs : Memory.block ea.value count = .ok (source, s))
    (ht : Memory.block (m.registers.get .i1).value count = .ok (target, t)) :
    moveBlock ea count m =
      .ok ()
        { m with
          memory := m.memory.copy source target (s - source)
          registers := m.registers.set .i1 (Word.ofSignMagnitude .plus t) } := by
  have lengths := Memory.block_lengths_eq hs ht
  have sourceInside := Memory.block_inside hs
  have targetInside := Memory.block_inside ht
  rw [← lengths] at targetInside
  unfold moveBlock
  rw [Exec.get_bind]
  dsimp only
  rw [if_neg apart, hs, Exec.ofMemory_ok_bind]
  dsimp only
  rw [ht, Exec.ofMemory_ok_bind]
  dsimp only
  rw [← lengths, Nat.min_self, Exec.bind_ok (copyCells_ok sourceInside targetInside),
    ofInt_behind ht]
  rfl

theorem moveBlock_source_error {count : Nat} {e : MemoryError}
    (apart : ea.value ≠ (m.registers.get .i1).value)
    (hs : Memory.block ea.value count = .error e) :
    moveBlock ea count m = .error (.memory e) m := by
  unfold moveBlock
  rw [Exec.get_bind]
  dsimp only
  rw [if_neg apart, hs]
  exact Exec.ofMemory_error_bind

theorem moveBlock_target_error {count source s : Nat} {e : MemoryError}
    (apart : ea.value ≠ (m.registers.get .i1).value)
    (hs : Memory.block ea.value count = .ok (source, s))
    (ht : Memory.block (m.registers.get .i1).value count = .error e) :
    moveBlock ea count m = .error (.memory e) m := by
  unfold moveBlock
  rw [Exec.get_bind]
  dsimp only
  rw [if_neg apart, hs, Exec.ofMemory_ok_bind]
  dsimp only
  rw [ht]
  exact Exec.ofMemory_error_bind

/-! ## The check of the run state -/

theorem checkRunning_ok (h : m.state = .running) : checkRunning m = .ok () m := by
  unfold checkRunning
  rw [Exec.get_bind, if_neg (not_not_intro h)]
  rfl

theorem checkRunning_error (h : m.state ≠ .running) :
    checkRunning m = .error (.notRunning m.state) m := by
  unfold checkRunning
  rw [Exec.get_bind, if_pos h]
  rfl

/-! ## Loaders -/

theorem setPc_ok {pc : Nat} (h : pc < memorySize) :
    setPc pc m = .ok () { m with registers := { m.registers with pc } } := by
  unfold setPc
  rw [Memory.index_of_lt h]
  rfl

theorem setPc_error {pc : Nat} (h : memorySize ≤ pc) :
    setPc pc m = .error (.memory (.addressOutOfRange pc)) m := by
  have outside : Memory.index (pc : Int) = .error (.addressOutOfRange pc) :=
    Memory.index_eq_error_iff.2 ⟨by omega, rfl⟩
  unfold setPc
  rw [outside]
  rfl

theorem loadWord_ok (h : a < memorySize) (w : Word) :
    loadWord a w m = .ok () { m with memory := m.memory.put a w } :=
  Exec.changeMemory_ok (m.memory.write_eq h w)

theorem loadWord_error (h : memorySize ≤ a) (w : Word) :
    loadWord a w m = .error (.memory (.addressOutOfRange (Memory.signed64 a))) m :=
  Exec.changeMemory_error ((Memory.write_eq_error_iff m.memory).2 ⟨h, rfl⟩)

/-- Words whose addresses are all in memory are placed without a failure. -/
theorem placeCells_ok {cells : List (Nat × Word)} (h : ∀ c ∈ cells, c.1 < memorySize) :
    placeCells cells m = .ok () { m with memory := m.memory.place cells } := by
  induction cells generalizing m with
  | nil => rfl
  | cons c cells ih =>
      obtain ⟨a, w⟩ := c
      obtain ⟨first, rest⟩ := List.forall_mem_cons.1 h
      show (loadWord a w >>= fun _ => placeCells cells) m = _
      rw [Exec.bind_ok (loadWord_ok first w)]
      exact ih rest

/-- An image in memory is loaded. -/
theorem loadImage_ok {image : Image} (h : image.InMemory) :
    loadImage image m =
      .ok ()
        { m with
          memory := m.memory.place image.cells
          registers := { m.registers with pc := image.start }
          state := .running } := by
  have checked := image.firstOutside?_eq_none_iff.2 h
  unfold loadImage
  rw [checked]
  dsimp only
  rw [Exec.bind_ok (placeCells_ok h.2)]
  rfl

/-- An image that is not in memory is refused before its first word is placed. -/
theorem loadImage_error {image : Image} (h : image.firstOutside? = some a) :
    loadImage image m = .error (.memory (.addressOutOfRange a)) m := by
  unfold loadImage
  rw [h]
  rfl

end Machine

end MixMachine
