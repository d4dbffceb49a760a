import MixMachine.Proofs.MemoryRuns
import MixMachine.Proofs.Rules

/-!
# Machines whose devices are buffers

A buffer does at once what it is asked, and refuses only a block of another size.
Behind the check of a block the size is right, so no hook of a buffer fails there:
the one device error that such a machine shows is that a unit has no device.

* `Buffer.input_of_length`, `Buffer.output_of_length`: a block of the right size goes
  through.
* `Buffer.of_input`, `Buffer.of_output`, `Buffer.of_control`: what a hook that
  completed has done.
* `Buffer.input_ne_error`, `Buffer.output_ne_error`: behind the check of its block no
  hook fails.
* `Machine.Completes.holdsProper`: an instruction keeps the words of memory and of
  the buffers proper.
-/

namespace MixMachine

/-! ## The hooks of a buffer -/

namespace Buffer

variable {b b' : Buffer}

/-- A buffer gives its block to a reader that asks for as many words. -/
theorem input_of_length {n : Nat} (size : b.block.length = n) :
    ∃ block : Vector Word n, Device.input n b = .ok block b ∧ block.toList = b.block := by
  subst size
  exact ⟨⟨b.block.toArray, by simp only [List.size_toArray]⟩, dif_pos rfl, rfl⟩

/-- A buffer takes a block of its own size. -/
theorem output_of_length {ws : List Word} (size : ws.length = b.block.length) :
    Device.output ws b = .ok () { b with block := ws } :=
  if_pos size

theorem of_input {n : Nat} {block : Vector Word n} (h : Device.input n b = .ok block b') :
    b' = b ∧ block.toList = b.block := by
  by_cases size : b.block.length = n
  · obtain ⟨copied, run, same⟩ := input_of_length size
    cases h.symm.trans run
    exact ⟨rfl, same⟩
  · cases h.symm.trans (dif_neg size)

theorem of_output {ws : List Word} (h : Device.output ws b = .ok () b') :
    ws.length = b.block.length ∧ b' = { b with block := ws } := by
  by_cases size : ws.length = b.block.length
  · cases h.symm.trans (output_of_length size)
    exact ⟨size, rfl⟩
  · cases h.symm.trans (if_neg size)

theorem of_control {k : Int} (h : Device.control k b = .ok () b') : b' = b := by
  cases h
  rfl

/-- Behind the check of its block a buffer is not asked for another size. -/
theorem input_ne_error {v : Int} {first stop : Nat} {e : DeviceError}
    (range : Memory.block v (Device.blockSize b) = .ok (first, stop)) (forward : first ≤ stop) :
    Device.input (stop - first) b ≠ .error e b' := by
  intro failed
  obtain ⟨-, -, -, rfl⟩ := Memory.block_forward range forward
  have size : b.block.length = first + Device.blockSize b - first :=
    (Nat.add_sub_cancel_left ..).symm
  obtain ⟨block, run, -⟩ := input_of_length size
  cases failed.symm.trans run

/-- Behind the check of its block a buffer is not given another size. -/
theorem output_ne_error {mem : Memory} {v : Int} {first stop : Nat} {e : DeviceError}
    (range : Memory.block v (Device.blockSize b) = .ok (first, stop)) (forward : first ≤ stop) :
    Device.output (mem.words first (stop - first)) b ≠ .error e b' := by
  intro failed
  obtain ⟨-, -, inside, rfl⟩ := Memory.block_forward range forward
  have size : (mem.words first (first + Device.blockSize b - first)).length =
      b.block.length := by
    rw [Nat.add_sub_cancel_left, Memory.length_words mem inside]
    rfl
  cases failed.symm.trans (output_of_length size)

end Buffer

/-! ## Proper words in memory -/

namespace Memory

variable {m : Memory}

/-- Every cell holds a proper word. -/
def Proper (m : Memory) : Prop :=
  ∀ a, (m.cell a).Proper

theorem proper_zeros : zeros.Proper := by
  intro a
  rw [cell_zeros]
  decide

/-- An address outside memory reads as zero, so the word put there is not asked
for. -/
theorem Proper.put (h : m.Proper) (a : Nat) {w : Word} (proper : w.Proper) :
    (m.put a w).Proper := by
  intro b
  by_cases same : a = b
  · subst same
    by_cases inside : a < memorySize
    · rw [cell_put_self m inside]
      exact proper
    · have outside : (m.put a w).cell a = .zero := by
        unfold cell
        rw [Vector.getElem?_eq_none (Nat.not_lt.1 inside)]
        rfl
      rw [outside]
      decide
  · rw [cell_put_of_ne m same]
    exact h b

theorem Proper.copy (h : m.Proper) (source target count : Nat) :
    (m.copy source target count).Proper := by
  induction count generalizing m source target with
  | zero => exact h
  | succ count ih => exact ih (h.put target (h source)) (source + 1) (target + 1)

theorem Proper.putWords (h : m.Proper) (first : Nat) {ws : List Word}
    (proper : ∀ w ∈ ws, w.Proper) : (m.putWords first ws).Proper := by
  induction ws generalizing m first with
  | nil => exact h
  | cons w ws ih =>
      obtain ⟨head, rest⟩ := List.forall_mem_cons.1 proper
      exact ih (h.put first head) (first + 1) rest

theorem Proper.place (h : m.Proper) {cells : List (Nat × Word)}
    (proper : ∀ c ∈ cells, c.2.Proper) : (m.place cells).Proper := by
  induction cells generalizing m with
  | nil => exact h
  | cons c cells ih =>
      obtain ⟨head, rest⟩ := List.forall_mem_cons.1 proper
      exact ih (h.put c.1 head) rest

/-- A run of cells holds only words of cells. -/
theorem exists_cell_of_mem_words {first n : Nat} {w : Word} (h : w ∈ m.words first n) :
    ∃ a, a < memorySize ∧ m.cell a = w := by
  have member := List.mem_of_mem_drop (List.mem_of_mem_take h)
  obtain ⟨a, inside, rfl⟩ := List.mem_iff_getElem.1 member
  have inside : a < memorySize := by
    rwa [Vector.length_toList] at inside
  refine ⟨a, inside, ?_⟩
  rw [cell, Vector.getElem?_eq_getElem inside, Option.getD_some, Vector.getElem_toList]

theorem Proper.words (h : m.Proper) (first n : Nat) : ∀ w ∈ m.words first n, w.Proper := by
  intro w member
  obtain ⟨a, -, rfl⟩ := exists_cell_of_mem_words member
  exact h a

end Memory

/-! ## What holds of every device -/

namespace Devices

variable {δ : Type} {ds : Devices δ} {P : δ → Prop}

/-- Every device of the registry has the property. -/
def All (P : δ → Prop) (ds : Devices δ) : Prop :=
  ∀ unit d, ds.get? unit = some d → P d

theorem All.attach (h : ds.All P) (unit : Nat) {d : δ} (new : P d) :
    (ds.attach unit d).All P := by
  intro v d' found
  by_cases same : unit = v
  · subst same
    by_cases room : unit < unitCount
    · rw [get?_attach_self ds room] at found
      cases found
      exact new
    · have none : (ds.attach unit d).get? unit = none := by
        unfold get?
        rw [Vector.getElem?_eq_none (Nat.not_lt.1 room)]
        rfl
      cases found.symm.trans none
  · rw [get?_attach_of_ne ds same] at found
    exact h v d' found

/-- A unit that has a device behind a detachment had it before. -/
theorem get?_of_detach {unit v : Nat} {d : δ} (found : (ds.detach unit).get? v = some d) :
    ds.get? v = some d := by
  by_cases same : unit = v
  · subst same
    have none : (ds.detach unit).get? unit = none := by
      unfold get? detach
      dsimp only
      rw [Vector.getElem?_setIfInBounds_self]
      split
      · rfl
      · rfl
    cases found.symm.trans none
  · unfold get? detach at found
    rwa [Vector.getElem?_setIfInBounds_ne same] at found

theorem All.detach (h : ds.All P) (unit : Nat) : (ds.detach unit).All P :=
  fun v d found => h v d (get?_of_detach found)

theorem all_empty : (empty : Devices δ).All P := by
  intro unit d found
  have none : (empty : Devices δ).get? unit = none := by
    unfold get? empty
    rw [Vector.getElem?_replicate]
    split
    · rfl
    · rfl
  cases found.symm.trans none

theorem all_ofList {units : List (Nat × δ)} (listed : ∀ u ∈ units, P u.2) :
    (ofList units).All P := by
  have attached : ∀ ds : Devices δ, ds.All P →
      (units.foldl (fun ds u => ds.attach u.1 u.2) ds).All P := by
    induction units with
    | nil => exact fun ds start => start
    | cons u units ih =>
        intro ds start
        obtain ⟨head, rest⟩ := List.forall_mem_cons.1 listed
        exact ih rest _ (start.attach u.1 head)
  exact attached empty all_empty

end Devices

/-- The buffer holds proper words. -/
def Buffer.Proper (b : Buffer) : Prop :=
  ∀ w ∈ b.block, w.Proper

instance (b : Buffer) : Decidable b.Proper :=
  inferInstanceAs (Decidable (∀ w ∈ b.block, w.Proper))

/-! ## Machines that hold proper words -/

namespace Machine

variable {m m' : Machine Buffer} {ea : Word} {op : Operation} {flow : Flow}

/-- Memory and the buffers hold proper words. What the registers hold is proper in
any case, see `Registers.Fit`. -/
structure HoldsProper (m : Machine Buffer) : Prop where
  memory : m.memory.Proper
  devices : m.devices.All Buffer.Proper

theorem holdsProper_initial {ds : Devices Buffer} (proper : ds.All Buffer.Proper) :
    (initial ds).HoldsProper :=
  ⟨Memory.proper_zeros, proper⟩

/-- **An instruction keeps the words of memory and of the buffers proper**: a store
builds its word anew, and everything else that writes memory or a buffer copies. -/
theorem Completes.holdsProper (h : Completes m ea op flow m') (holds : m.HoldsProper) :
    m'.HoldsProper := by
  obtain ⟨memory, devices⟩ := holds
  cases h with
  | store _ => exact ⟨memory.put _ (Word.proper_ofSignMagnitude _ _), devices⟩
  | storeZero _ => exact ⟨memory.put _ (Word.proper_ofSignMagnitude _ _), devices⟩
  | move _ _ _ => exact ⟨memory.copy _ _ _, devices⟩
  | control found hook =>
      have block := devices _ _ (Devices.find_eq_ok_iff.1 found)
      rw [Buffer.of_control hook]
      exact ⟨memory, devices.attach _ block⟩
  -- what a buffer gives went into it by an earlier output, or when it was attached
  | input found _ _ hook =>
      have block := devices _ _ (Devices.find_eq_ok_iff.1 found)
      obtain ⟨same, copied⟩ := Buffer.of_input hook
      rw [same, copied]
      exact ⟨memory.putWords _ block, devices.attach _ block⟩
  | output found _ _ hook =>
      obtain ⟨-, taken⟩ := Buffer.of_output hook
      rw [taken]
      exact ⟨memory, devices.attach _ (memory.words _ _)⟩
  | _ => exact ⟨memory, devices⟩

end Machine

end MixMachine
