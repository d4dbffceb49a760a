import MixMachine.Proofs.Atomicity
import MixMachine.Proofs.Buffers
import MixMachine.Proofs.Histories

/-!
# The block that a buffer holds

A buffer on a unit holds the block that was sent to it last. Nothing else that happens to
the machine changes it: the other hooks of a buffer leave it as it is, a transfer that is
refused as well, and the devices on other units, whatever they are, are other devices.

A registry may mix buffers with devices of other kinds. `Device.Embeds put` says that the
devices of one type are among those of another, by `put`; a buffer in a mixed registry
is then `put b`.

* `Device.embeds_id`, `Device.embeds_inl`: devices of one type, and those of a sum.
* `Machine.Performs.buffer_of_output`, `Machine.Performs.buffer_kept`,
  `Machine.Fails.device_kept`: the buffer on a unit behind an instruction, and behind a
  failure.
* `Machine.Performs.block_of_input`: what a buffer gives to memory.
* `Machine.buffers_keep_blocks`: the block of a buffer behind every series of attempts.
-/

namespace MixMachine

/-! ## Devices among others -/

namespace Device

variable {δ ε α : Type} {put : δ → ε}

/-- What a hook answers, with its device put among others. -/
def onto (put : δ → ε) : EStateM.Result DeviceError δ α → EStateM.Result DeviceError ε α
  | .ok a d => .ok a (put d)
  | .error e d => .error e (put d)

theorem onto_eq_ok_iff {r : EStateM.Result DeviceError δ α} {a : α} {d' : ε} :
    onto put r = .ok a d' ↔ ∃ d, r = .ok a d ∧ d' = put d := by
  constructor
  · intro answered
    cases r with
    | ok a d =>
        cases answered
        exact ⟨d, rfl, rfl⟩
    | error e d => cases answered
  · rintro ⟨d, rfl, rfl⟩
    rfl

theorem onto_eq_error_iff {r : EStateM.Result DeviceError δ α} {e : DeviceError} {d' : ε} :
    onto put r = .error e d' ↔ ∃ d, r = .error e d ∧ d' = put d := by
  constructor
  · intro failed
    cases r with
    | ok a d => cases failed
    | error e d =>
        cases failed
        exact ⟨d, rfl, rfl⟩
  · rintro ⟨d, rfl, rfl⟩
    rfl

/-- The devices of one type are among those of another: put there, a device answers every
hook as it does by itself, and becomes the same device. -/
structure Embeds [Device δ] [Device ε] (put : δ → ε) : Prop where
  blockSize (d : δ) : Device.blockSize (put d) = Device.blockSize d
  isBusy (d : δ) : Device.isBusy (put d) = Device.isBusy d
  control (k : Int) (d : δ) : Device.control k (put d) = onto put (Device.control k d)
  input (n : Nat) (d : δ) : Device.input n (put d) = onto put (Device.input n d)
  output (ws : List Word) (d : δ) : Device.output ws (put d) = onto put (Device.output ws d)

/-- A device of either of two types. -/
instance [Device δ] [Device ε] : Device (δ ⊕ ε) where
  blockSize := Sum.elim Device.blockSize Device.blockSize
  isBusy := Sum.elim Device.isBusy Device.isBusy
  control k := Sum.elim (fun d => onto .inl (Device.control k d))
    (fun d => onto .inr (Device.control k d))
  input n := Sum.elim (fun d => onto .inl (Device.input n d))
    (fun d => onto .inr (Device.input n d))
  output ws := Sum.elim (fun d => onto .inl (Device.output ws d))
    (fun d => onto .inr (Device.output ws d))

theorem onto_id (r : EStateM.Result DeviceError δ α) : onto id r = r := by
  cases r <;> rfl

/-- The devices of a type are among themselves. -/
theorem embeds_id [Device δ] : Embeds (id : δ → δ) where
  blockSize _ := rfl
  isBusy _ := rfl
  control k d := (onto_id (Device.control k d)).symm
  input n d := (onto_id (Device.input n d)).symm
  output ws d := (onto_id (Device.output ws d)).symm

theorem embeds_inl [Device δ] [Device ε] : Embeds (Sum.inl : δ → δ ⊕ ε) :=
  ⟨fun _ => rfl, fun _ => rfl, fun _ _ => rfl, fun _ _ => rfl, fun _ _ => rfl⟩

/-- A device that keeps still when a hook fails does so among others. -/
theorem Embeds.keepsOnFailure [Device δ] [Device ε] (embeds : Embeds put) {d : δ}
    (keeps : KeepsOnFailure d) : KeepsOnFailure (put d) where
  control failed := by
    rw [embeds.control] at failed
    obtain ⟨d₁, answer, rfl⟩ := onto_eq_error_iff.1 failed
    rw [keeps.control answer]
  input failed := by
    rw [embeds.input] at failed
    obtain ⟨d₁, answer, rfl⟩ := onto_eq_error_iff.1 failed
    rw [keeps.input answer]
  output failed := by
    rw [embeds.output] at failed
    obtain ⟨d₁, answer, rfl⟩ := onto_eq_error_iff.1 failed
    rw [keeps.output answer]

end Device

/-! ## A buffer among other devices -/

namespace Device.Embeds

variable {δ : Type} [Device δ] {put : Buffer → δ} {b : Buffer} {d' : δ}

theorem of_control (embeds : Embeds put) {k : Int}
    (h : Device.control k (put b) = .ok () d') : d' = put b := by
  rw [embeds.control] at h
  obtain ⟨b', answer, rfl⟩ := onto_eq_ok_iff.1 h
  rw [Buffer.of_control answer]

theorem of_input (embeds : Embeds put) {n : Nat} {block : Vector Word n}
    (h : Device.input n (put b) = .ok block d') : d' = put b ∧ block.toList = b.block := by
  rw [embeds.input] at h
  obtain ⟨b', answer, rfl⟩ := onto_eq_ok_iff.1 h
  obtain ⟨same, copied⟩ := Buffer.of_input answer
  exact ⟨congrArg put same, copied⟩

/-- A buffer among other devices is not changed by giving its block either. -/
theorem keptByInput (embeds : Embeds put) (b : Buffer) : KeptByInput (put b) :=
  fun hook => (embeds.of_input hook).1

theorem of_output (embeds : Embeds put) {ws : List Word}
    (h : Device.output ws (put b) = .ok () d') :
    ws.length = b.block.length ∧ d' = put { b with block := ws } := by
  rw [embeds.output] at h
  obtain ⟨b', answer, rfl⟩ := onto_eq_ok_iff.1 h
  obtain ⟨size, taken⟩ := Buffer.of_output answer
  exact ⟨size, congrArg put taken⟩

end Device.Embeds

/-! ## Blocks of memory -/

namespace Memory

variable {m : Memory}

/-- The block stands in memory from an address on. -/
structure HasBlock (m : Memory) (address : Int) (block : List Word) : Prop where
  start : 0 ≤ address
  stop : address + block.length ≤ memorySize
  words : m.words address.toNat block.length = block

theorem hasBlock_words {address : Int} {first n : Nat} (number : address = first)
    (inside : first + n ≤ memorySize) : m.HasBlock address (m.words first n) := by
  have length := m.length_words inside
  subst number
  refine ⟨Int.natCast_nonneg first, ?_, ?_⟩
  · rw [length]
    omega
  · rw [length, Int.toNat_natCast]

theorem hasBlock_putWords (m : Memory) {first : Nat} {ws : List Word}
    (inside : first + ws.length ≤ memorySize) : (m.putWords first ws).HasBlock first ws where
  start := Int.natCast_nonneg first
  stop := by omega
  words := m.words_putWords inside

end Memory

/-! ## The device on one unit -/

namespace Devices

variable {δ : Type} {ds : Devices δ} {unit u : Nat} {d d' : δ}

theorem lt_of_get? (held : ds.get? u = some d) : u < unitCount := by
  have slot : ds.slots[u]? = some (some d) := Option.join_eq_some_iff.1 held
  exact (Vector.getElem?_eq_some_iff.1 slot).1

/-- The device that is found on a unit is the one that is there. -/
theorem eq_of_find (held : ds.get? u = some d) (found : ds.find unit = .ok d')
    (same : unit = u) : d' = d := by
  subst same
  exact Option.some.inj ((find_eq_ok_iff.1 found).symm.trans held)

/-- A device is still there when the one that was found on some unit is attached to it
again, unless it was the device itself and has changed. -/
theorem get?_attach_of_found {found : δ} (held : ds.get? u = some d)
    (find : ds.find unit = .ok found) (kept : unit = u → found = d → d' = d) :
    (ds.attach unit d').get? u = some d := by
  by_cases same : unit = u
  · rw [kept same (eq_of_find held find same), ← same]
    rw [← same] at held
    rw [attach_get? ds held, held]
  · rw [get?_attach_of_ne ds same, held]

end Devices

namespace Machine

section Instructions

variable {δ : Type} [Device δ] {m m' : Machine δ} {u : Nat} {i : Instruction} {ea : Word}
  {op : Operation} {e : Fault}

/-! ## One device behind an instruction -/

/-- An instruction that fails leaves a device as it was, wherever its unit, when the device
keeps still on failure and when it gives a block. -/
theorem Fails.device_kept {d : δ} (keeps : Device.KeepsOnFailure d)
    (given : Device.KeptByInput d) (h : Fails m ea op e m')
    (held : m.devices.get? u = some d) : m'.devices.get? u = some d := by
  cases h with
  | control found hook =>
      apply Devices.get?_attach_of_found held found
      rintro - rfl
      exact keeps.control hook
  | input found range hook =>
      apply Devices.get?_attach_of_found held found
      rintro - rfl
      exact keeps.input hook
  | inputReversed found range _ hook =>
      apply Devices.get?_attach_of_found held found
      rintro - rfl
      exact given hook
  | output found range _ hook =>
      apply Devices.get?_attach_of_found held found
      rintro - rfl
      exact keeps.output hook
  | _ => exact held

variable {put : Buffer → δ} {b : Buffer}

/-- **Only an output to its unit changes a buffer.** -/
theorem Performs.buffer_kept (embeds : Device.Embeds put) (h : Performs m i m')
    (held : m.devices.get? u = some (put b)) (other : i.operation ≠ .device .output u) :
    m'.devices.get? u = some (put b) := by
  obtain ⟨address, index, op⟩ := i
  obtain ⟨inside, completes⟩ := h
  cases completes with
  | control found hook =>
      apply Devices.get?_attach_of_found held found
      rintro - rfl
      exact embeds.of_control hook
  | input found range _ hook =>
      apply Devices.get?_attach_of_found held found
      rintro - rfl
      exact embeds.keptByInput b hook
  | output found range _ hook =>
      apply Devices.get?_attach_of_found held found
      rintro rfl -
      exact absurd rfl other
  | _ => exact held

/-- An output to its unit puts the block that stands in memory into a buffer. -/
theorem Performs.buffer_of_output (embeds : Device.Embeds put) (h : Performs m i m')
    (held : m.devices.get? u = some (put b)) (outputs : i.operation = .device .output u) :
    ∃ block : List Word, m'.devices.get? u = some (put { b with block }) ∧
      block.length = b.block.length ∧
      m.memory.HasBlock (m.effectiveAddress i).value block := by
  obtain ⟨address, index, op⟩ := i
  obtain ⟨inside, completes⟩ := h
  cases outputs
  cases completes with
  | deviceStay found when => cases when
  | deviceJump found when target => cases when
  | @output unit first stop d d' found range forward hook =>
      cases Devices.eq_of_find held found rfl
      obtain ⟨number, -, inside, rfl⟩ := Memory.block_forward range forward
      rw [Nat.add_sub_cancel_left] at hook
      obtain ⟨size, rfl⟩ := embeds.of_output hook
      exact ⟨_, Devices.get?_attach_self _ (Devices.lt_of_get? held) _, size,
        Memory.hasBlock_words number inside⟩

/-- An input from its unit puts the block of a buffer into memory, and changes no other
cell and no device. -/
theorem Performs.block_of_input (embeds : Device.Embeds put) (h : Performs m i m')
    (held : m.devices.get? u = some (put b)) (inputs : i.operation = .device .input u) :
    m'.devices = m.devices ∧ m'.memory.HasBlock (m.effectiveAddress i).value b.block ∧
      ∀ a : Nat, a < (m.effectiveAddress i).value ∨
          (m.effectiveAddress i).value + b.block.length ≤ a →
        m'.memory.cell a = m.memory.cell a := by
  obtain ⟨address, index, op⟩ := i
  obtain ⟨pc, completes⟩ := h
  cases inputs
  cases completes with
  | deviceStay found when => cases when
  | deviceJump found when target => cases when
  | @input unit first stop d d' block found range forward hook =>
      cases Devices.eq_of_find held found rfl
      obtain ⟨number, -, inside, rfl⟩ := Memory.block_forward range forward
      obtain ⟨rfl, copied⟩ := embeds.of_input hook
      rw [embeds.blockSize] at inside
      rw [copied, number]
      refine ⟨Devices.attach_get? _ held, Memory.hasBlock_putWords _ inside, ?_⟩
      intro a outside
      exact Memory.cell_putWords_of_outside _ (by omega)

end Instructions

/-! ## The last block that was sent -/

variable {δ : Type}

/-- The instruction sends a block to the device on the unit. -/
def Completion.Outputs (u : Nat) (c : Completion δ) : Prop :=
  c.instruction.operation = .device .output u

/-- The block is the one that the last output to the unit has sent, as it stood in memory
when it was sent; when nothing was sent it is the original one. -/
structure LastSent (u : Nat) (original : List Word) (history : List (Completion δ))
    (block : List Word) : Prop where
  length : block.length = original.length
  sent : ∀ c, NoneSince (Completion.Outputs u) history c → c.Outputs u →
    c.machine.memory.HasBlock c.address block
  unsent : (∀ c ∈ history, ¬ c.Outputs u) → block = original

variable {u : Nat} {original block block' : List Word} {history : List (Completion δ)}
  {c : Completion δ}

theorem LastSent.nil (u : Nat) (original : List Word) :
    LastSent u original ([] : List (Completion δ)) original where
  length := rfl
  sent _ since := absurd since not_noneSince_nil
  unsent _ := rfl

theorem LastSent.output (last : LastSent u original history block) (outputs : c.Outputs u)
    (size : block'.length = block.length)
    (stands : c.machine.memory.HasBlock c.address block') :
    LastSent u original (history ++ [c]) block' where
  length := size.trans last.length
  sent x since _ := by
    rcases noneSince_append_singleton_iff.1 since with rfl | ⟨-, other⟩
    · exact stands
    · exact absurd outputs other
  unsent none := absurd outputs (none c (List.mem_append_right _ (List.mem_singleton.2 rfl)))

theorem LastSent.other (last : LastSent u original history block) (other : ¬ c.Outputs u) :
    LastSent u original (history ++ [c]) block where
  length := last.length
  sent x since outputs := by
    rcases noneSince_append_singleton_iff.1 since with rfl | ⟨earlier, -⟩
    · exact absurd outputs other
    · exact last.sent x earlier outputs
  unsent none := last.unsent (List.forall_mem_append.1 none).1

variable [Device δ] {put : Buffer → δ} {m : Machine δ} {b : Buffer}

/-- **A buffer holds the last block that was sent to it**, behind every series of
attempts. -/
theorem buffer_afterAll (embeds : Device.Embeds put) (held : m.devices.get? u = some (put b))
    (attempts : List Attempt) :
    ∃ block : List Word, (m.afterAll attempts).devices.get? u = some (put { b with block }) ∧
      LastSent u b.block (m.completions attempts) block := by
  -- by induction on the history: the block is replaced by an output to the unit alone
  refine history_induction (P := fun history m' => ∃ block : List Word,
    m'.devices.get? u = some (put { b with block }) ∧ LastSent u b.block history block)
    ?_ ?_ ⟨b.block, held, .nil u b.block⟩ attempts
  · rintro history m' i m'' ⟨block, held, last⟩ performs
    by_cases outputs : (Completion.mk m' i).Outputs u
    · obtain ⟨block', held', size, stands⟩ := performs.buffer_of_output embeds held outputs
      exact ⟨block', held', last.output outputs size stands⟩
    · exact ⟨block, performs.buffer_kept embeds held outputs, last.other outputs⟩
  · rintro history m' ea op e m'' ⟨block, held, last⟩ fails
    have keeps := embeds.keepsOnFailure (Buffer.keepsOnFailure { b with block })
    exact ⟨block, fails.device_kept keeps (embeds.keptByInput _) held, last⟩

/-- **Buffers never lose or mix blocks.** Behind any series of attempts a buffer still is
on its unit and holds the words that stood in memory when the last output to it was done,
or its first block when there was none. The next input from it puts exactly these words
into memory, and changes no other cell and no device; so it makes a copy of what the last
output has sent, wherever both blocks are. -/
theorem buffers_keep_blocks (embeds : Device.Embeds put)
    (held : m.devices.get? u = some (put b)) (attempts : List Attempt) :
    ∃ block : List Word,
      (m.afterAll attempts).devices.get? u = some (put { b with block }) ∧
      LastSent u b.block (m.completions attempts) block ∧
      ∀ (a : Attempt) (c : Completion δ), a.completion? (m.afterAll attempts) = some c →
        c.instruction.operation = .device .input u →
        (a.exec.after (m.afterAll attempts)).devices = (m.afterAll attempts).devices ∧
        (a.exec.after (m.afterAll attempts)).memory.HasBlock c.address block ∧
        (∀ x : Nat, x < c.address ∨ c.address + b.block.length ≤ x →
          (a.exec.after (m.afterAll attempts)).memory.cell x =
            (m.afterAll attempts).memory.cell x) ∧
        ∀ o, NoneSince (Completion.Outputs u) (m.completions attempts) o → o.Outputs u →
          (a.exec.after (m.afterAll attempts)).memory.words c.address.toNat b.block.length =
            o.machine.memory.words o.address.toNat b.block.length := by
  obtain ⟨block, held, last⟩ := buffer_afterAll embeds held attempts
  refine ⟨block, held, last, ?_⟩
  rintro a ⟨machine, instruction⟩ completion inputs
  obtain ⟨rfl, performs⟩ := a.performs_of_completion? completion
  obtain ⟨devices, stands, cells⟩ := performs.block_of_input embeds held inputs
  rw [last.length] at cells
  refine ⟨devices, stands, cells, ?_⟩
  intro o since outputs
  have sent := (last.sent o since outputs).words
  have given := stands.words
  rw [last.length] at sent given
  exact given.trans sent.symm

/-- A machine with a buffer of two words on unit 1 and a device of another kind on unit 2. -/
def mixed : Machine (Buffer ⊕ Refusing Buffer) :=
  { initial ((Devices.empty.attach 1 (.inl (.zeros "tape" 2))).attach 2
      (.inr ⟨.zeros "plotter" 1, .noSuchDevice 2⟩)) with
    memory := (Memory.zeros.put 0 (Instruction.assemble 7 0 0 0)).put 1
      (Instruction.assemble (-8) 0 0 0) }

/-- Sends the cells 0 and 1 to unit 1, and then fails to control unit 2. -/
def sending : List Attempt :=
  [.word (Instruction.assemble 0 0 1 (Opcode.device + 3)),
    .word (Instruction.assemble 0 0 2 (Opcode.device + 1))]

/-- Puts the block of unit 1 into the cells 1 and 2. -/
def receiving : Attempt :=
  .word (Instruction.assemble 1 0 1 (Opcode.device + 2))

/-- In a mixed registry, the copy of two cells one cell further on is what both held
before; and on the standard machine the card reader still holds 16 words behind a step. -/
theorem buffers_keep_blocks_overlapping :
    (receiving.exec.after (mixed.afterAll sending)).memory.words 1 2 =
      [Instruction.assemble 7 0 0 0, Instruction.assemble (-8) 0 0 0] ∧
    ∃ block, (standard.afterAll [.step]).devices.get? 16 = some ⟨"card reader", block⟩ ∧
      block.length = 16 := by
  have held : mixed.devices.get? 1 = some (.inl (.zeros "tape" 2)) :=
    (Devices.get?_attach_of_ne _ (by decide) _).trans (Devices.get?_attach_self _ (by decide) _)
  have reader : standard.devices.get? 16 = some (id (.zeros "card reader" 16)) := by
    decide +kernel
  obtain ⟨block, -, -, next⟩ := buffers_keep_blocks Device.embeds_inl held sending
  obtain ⟨cards, kept, last, -⟩ := buffers_keep_blocks Device.embeds_id reader [.step]
  have completion : (receiving.completion? (mixed.afterAll sending)).map
      (fun c => (c.instruction.operation, c.address)) = some (.device .input 1, 1) := by
    decide +kernel
  have history : (mixed.completions sending).map
      (fun c => (c.instruction.operation, c.address, c.machine.memory.words 0 2)) =
        [(.device .output 1, 0,
          [Instruction.assemble 7 0 0 0, Instruction.assemble (-8) 0 0 0])] := by
    decide +kernel
  obtain ⟨c, completed, same⟩ := Option.map_eq_some_iff.1 completion
  obtain ⟨o, sole, sent⟩ := List.map_eq_singleton_iff.1 history
  obtain ⟨inputs, address⟩ := Prod.mk.inj same
  obtain ⟨outputs, block'⟩ := Prod.mk.inj sent
  obtain ⟨source, words⟩ := Prod.mk.inj block'
  have since : NoneSince (Completion.Outputs 1) (mixed.completions sending) o :=
    ⟨[], [], sole, fun _ member => absurd member List.not_mem_nil⟩
  obtain ⟨-, -, -, copied⟩ := next receiving c completed inputs
  have copy := copied o since outputs
  rw [address, source] at copy
  exact ⟨copy.trans words, cards, kept, last.length⟩

end Machine

end MixMachine
