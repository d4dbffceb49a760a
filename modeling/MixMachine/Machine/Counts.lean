import MixMachine.Machine.Execute

/-!
# What an action counts

The machine counts an instruction when it is complete, apart from executing it, and what
the instruction itself does leaves the count of steps as it was. So every step that
completes takes a run one nearer to the limit that it is held against.

`Exec.Counts n` says of an action that it counts `n` steps when it answers. It has a rule
for each primitive action and for two actions in a row, and the instructions follow from
these.
-/

namespace MixMachine

namespace Exec

variable {δ α β : Type} {n : Nat}

/-- When the action answers, the machine has counted `n` more steps. -/
structure Counts (n : Nat) (action : Exec δ α) : Prop where
  steps_eq {m : Machine δ} {a : α} {m' : Machine δ} :
    action m = .ok a m' → m'.steps = m.steps + n

namespace Counts

theorem pure (a : α) : Counts 0 (Pure.pure a : Exec δ α) := by
  constructor
  intro m a m' run
  cases run
  rfl

theorem throw (e : Fault) : Counts n (throw e : Exec δ α) := by
  constructor
  intro m a m' run
  cases run

theorem get : Counts 0 (MonadState.get : Exec δ (Machine δ)) := by
  constructor
  intro m a m' run
  cases run
  rfl

theorem modify {f : Machine δ → Machine δ} (counts : ∀ m, (f m).steps = m.steps + n) :
    Counts n (modify f : Exec δ Unit) := by
  constructor
  intro m a m' run
  cases run
  exact counts m

/-- What two actions in a row count adds up. -/
theorem bind {k : Nat} {action : Exec δ α} {next : α → Exec δ β} (first : Counts k action)
    (second : ∀ a, Counts n (next a)) : Counts (k + n) (action >>= next) := by
  constructor
  intro m b m'' run
  change EStateM.bind action next m = .ok b m'' at run
  unfold EStateM.bind at run
  cases middle : action m with
  | ok a m' =>
    rw [middle] at run
    rw [(second a).steps_eq run, first.steps_eq middle, Nat.add_assoc]
  | error e m' =>
    rw [middle] at run
    cases run

/-- An action that counts nothing may stand in front of any other. -/
theorem before {action : Exec δ α} {next : α → Exec δ β} (first : Counts 0 action)
    (second : ∀ a, Counts n (next a)) : Counts n (action >>= next) :=
  Nat.zero_add n ▸ first.bind second

theorem ite {p : Prop} [Decidable p] {a b : Exec δ α} (yes : Counts n a)
    (no : Counts n b) : Counts n (if p then a else b) := by
  split
  · exact yes
  · exact no

theorem ofMemory (r : Except MemoryError α) : Counts 0 (ofMemory r : Exec δ α) := by
  cases r with
  | ok a => exact pure a
  | error e => exact throw _

theorem ofDecode (r : Except DecodeError α) : Counts 0 (ofDecode r : Exec δ α) := by
  cases r with
  | ok a => exact pure a
  | error e => exact throw _

theorem ofDevice (r : Except DeviceError α) : Counts 0 (ofDevice r : Exec δ α) := by
  cases r with
  | ok a => exact pure a
  | error e => exact throw _

theorem ofWord (r : Except WordError α) : Counts 0 (ofWord r : Exec δ α) := by
  cases r with
  | ok a => exact pure a
  | error e => exact throw _

theorem modifyRegisters (f : Registers → Registers) :
    Counts 0 (modifyRegisters f : Exec δ Unit) :=
  modify fun _ => rfl

theorem inspectMemory (f : Memory → Except MemoryError α) :
    Counts 0 (inspectMemory f : Exec δ α) :=
  get.before fun m => ofMemory (f m.memory)

theorem changeMemory (f : Memory → Except MemoryError Memory) :
    Counts 0 (changeMemory f : Exec δ Unit) :=
  get.before fun m => (ofMemory (f m.memory)).before fun _ => modify fun _ => rfl

theorem onDevice (unit : Nat) (d : δ) (hook : EStateM DeviceError δ α) :
    Counts 0 (onDevice unit d hook) := by
  constructor
  intro m a m' run
  unfold Exec.onDevice at run
  cases answer : hook d with
  | ok a d' =>
    rw [answer] at run
    cases run
    rfl
  | error e d' =>
    rw [answer] at run
    cases run

end Counts

end Exec

namespace Machine

open Exec

variable {δ : Type}

theorem counts_address (ea : Word) : Counts 0 (address ea : Exec δ Nat) :=
  .ofMemory _

theorem counts_operand (ea : Word) : Counts 0 (operand ea : Exec δ Word) :=
  (counts_address ea).before fun _ => .inspectMemory _

theorem counts_store (ea : Word) (f : Field) (value : Word) :
    Counts 0 (store ea f value : Exec δ Unit) :=
  (counts_address ea).before fun _ =>
    (Counts.inspectMemory _).before fun _ => .changeMemory _

theorem counts_jumpTo (ea : Word) : Counts 0 (jumpTo ea : Exec δ Flow) :=
  (counts_address ea).before fun _ => (Counts.modifyRegisters _).before fun _ => .pure _

theorem counts_copyCells (source target count : Nat) :
    Counts 0 (copyCells source target count : Exec δ Unit) := by
  induction count generalizing source target with
  | zero => exact .pure _
  | succ count ih =>
    exact (Counts.inspectMemory _).before fun _ =>
      (Counts.changeMemory _).before fun _ => ih (source + 1) (target + 1)

theorem counts_moveBlock (ea : Word) (count : Nat) :
    Counts 0 (moveBlock ea count : Exec δ Unit) := by
  refine Counts.get.before fun m => .ite (.pure _) ?_
  refine (Counts.ofMemory _).before fun source => ?_
  refine (Counts.ofMemory _).before fun target => ?_
  refine (counts_copyCells ..).before fun _ => ?_
  exact (Counts.ofWord _).before fun _ => .modifyRegisters _

theorem counts_jump (condition : Condition) (ea : Word) :
    Counts 0 (jump condition ea : Exec δ Flow) := by
  have links : Counts 0 (Exec.modifyRegisters Registers.link : Exec δ Unit) :=
    .modifyRegisters _
  refine Counts.get.before fun m => .ite ?taken ?passed
  case taken =>
    refine (counts_address ea).before fun target => ?_
    refine Counts.before ?clears fun _ => .ite (links.before fun _ => .pure _) (.pure _)
    case clears => cases condition <;> first | exact .modifyRegisters _ | exact .pure _
  case passed =>
    refine Counts.before ?clears fun _ => .pure _
    case clears => cases condition <;> first | exact .modifyRegisters _ | exact .pure _

variable [Device δ]

theorem counts_workDevice (op : DeviceOp) (unit : Nat) (ea : Word) :
    Counts 0 (workDevice op unit ea : Exec δ Flow) := by
  refine Counts.get.before fun m => (Counts.ofDevice _).before fun d => ?_
  cases op with
  | jbus => exact .ite (counts_jumpTo ea) (.pure _)
  | jred => exact .ite (.pure _) (counts_jumpTo ea)
  | ioc => exact (Counts.onDevice ..).before fun _ => .pure _
  | input =>
    exact (Counts.ofMemory _).before fun _ => (Counts.onDevice ..).before fun _ =>
      (Counts.changeMemory _).before fun _ => .pure _
  | output =>
    exact (Counts.ofMemory _).before fun _ => (Counts.inspectMemory _).before fun _ =>
      (Counts.onDevice ..).before fun _ => .pure _

/-- **An instruction counts nothing.** -/
theorem counts_execute (instruction : Instruction) :
    Counts 0 (execute instruction : Exec δ Flow) := by
  unfold execute
  refine Counts.get.before fun m => ?_
  have onOperand (ea : Word) (f : Word → Registers → Registers) :
      Counts 0 (do
        let cell ← operand ea
        modifyRegisters (f cell)
        return .next : Exec δ Flow) :=
    (counts_operand ea).before fun _ => (Counts.modifyRegisters _).before fun _ => .pure _
  dsimp only
  split
  · exact .pure _
  · exact onOperand ..
  · refine Counts.before (.modify ?_) fun _ => .pure _
    exact fun _ => rfl
  · exact .ite (.throw _) ((Counts.modifyRegisters _).before fun _ => .pure _)
  · exact (counts_moveBlock ..).before fun _ => .pure _
  · exact onOperand ..
  · exact onOperand ..
  · exact (counts_store ..).before fun _ => .pure _
  · exact (counts_store ..).before fun _ => .pure _
  · exact counts_workDevice ..
  · exact counts_jump ..
  · exact .ite (counts_jumpTo _) (.pure _)
  · exact (Counts.modifyRegisters _).before fun _ => .pure _
  · exact onOperand ..

end Machine

end MixMachine
