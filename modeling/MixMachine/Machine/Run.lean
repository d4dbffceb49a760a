import MixMachine.Machine.Counts

/-!
# Running the machine

A step fetches the instruction at the program counter, decodes and executes it.
When it completes, the program counter moves on, and the step and its duration
are counted; when it fails, nothing is counted. A run takes steps until the
machine halts, a step fails, or its budget of steps is spent. A run without a
budget need not end.
-/

namespace MixMachine.Machine

variable {δ : Type}

/-- Fails unless the machine is running. -/
def checkRunning : Exec δ Unit := do
  let state := (← get).state
  if state ≠ .running then
    throw (.notRunning state)

theorem counts_checkRunning : Exec.Counts 0 (checkRunning : Exec δ Unit) :=
  Exec.Counts.get.before fun _ => .ite (.throw _) (.pure _)

/-- The machine that has completed an instruction which stood at `pc`: the program
counter follows the flow, and the step and its duration are counted. -/
def retire (instruction : Instruction) (pc : Nat) (flow : Flow) (m : Machine δ) : Machine δ :=
  { m with
    registers := { m.registers with pc := flow.following pc }
    steps := m.steps + 1
    clock := m.clock + instruction.operation.duration
    last := some instruction }

variable [Device δ]

/-- Executes an instruction as the one at the program counter, and answers
whether the machine still runs. -/
def carryOut (instruction : Instruction) : Exec δ RunState := do
  let pc ← Exec.ofMemory (Memory.index (← get).registers.pc)
  let flow ← execute instruction
  modify (retire instruction pc flow)
  return (← get).state

/-- Executes the instruction at the program counter. -/
def step : Exec δ RunState := do
  checkRunning
  let pc := (← get).registers.pc
  let w ← Exec.inspectMemory fun mem => mem.read pc
  let instruction ← Exec.ofDecode (Instruction.decode w)
  carryOut instruction

/-- Executes a word as if it stood at the program counter. -/
def executeWord (w : Word) : Exec δ RunState := do
  checkRunning
  let instruction ← Exec.ofDecode (Instruction.decode w)
  carryOut instruction

/-! ## What a step counts -/

/-- An instruction is counted once, when it is complete. -/
theorem counts_carryOut (instruction : Instruction) :
    Exec.Counts 1 (carryOut instruction : Exec δ RunState) := by
  refine Exec.Counts.get.before fun m => (Exec.Counts.ofMemory _).before fun pc => ?_
  refine (counts_execute instruction).before fun flow => ?_
  have retires : Exec.Counts 1 (modify (retire instruction pc flow) : Exec δ Unit) :=
    .modify fun _ => rfl
  exact retires.bind fun _ => Exec.Counts.get.before fun _ => .pure _

/-- Every step that completes counts one. -/
theorem counts_step : Exec.Counts 1 (step : Exec δ RunState) := by
  refine counts_checkRunning.before fun _ => Exec.Counts.get.before fun m => ?_
  refine (Exec.Counts.inspectMemory _).before fun w => (Exec.Counts.ofDecode _).before fun i => ?_
  exact counts_carryOut i

/-! ## Runs -/

/-- The largest count of steps that the machine keeps, in 64 bits. -/
def stepLimit : Nat := 0xFFFFFFFFFFFFFFFF

/-- Takes steps while the machine runs and has counted fewer than `limit`. -/
def stepsBelow (limit : Nat) : Exec δ Unit := fun m =>
  if _ : m.state = .running ∧ m.steps < limit then
    match _ : step m with
    | .ok _ m' => stepsBelow limit m'
    | .error e m' => .error e m'
  else
    .ok () m
termination_by m => limit - m.steps
decreasing_by
  have counted := counts_step.steps_eq ‹step _ = .ok _ _›
  omega

/-- Takes at most `budget` steps and answers how many instructions completed. The
machine's own count tells when the budget is spent, and the limit that it is held
against is the largest count if the budget leads past that. -/
def runFor (budget : Nat) : Exec δ Nat := do
  let before := (← get).steps
  stepsBelow (min (before + budget) stepLimit)
  return (← get).steps - before

/-- Takes steps while the machine runs. There is no result if it always runs. -/
def stepsOn (m : Machine δ) : Option (EStateM.Result Fault (Machine δ) Unit) :=
  if m.state = .running then
    match step m with
    | .ok _ m' => m' |>.stepsOn
    | .error e m' => some (.error e m')
  else
    some (.ok () m)
partial_fixpoint

/-- Runs until the machine halts or a step fails, and answers how many instructions
completed. A machine that never halts has no result. -/
def run (m : Machine δ) : Option (EStateM.Result Fault (Machine δ) Nat) :=
  (stepsOn m).map fun
    | .ok _ m' => .ok (m'.steps - m.steps) m'
    | .error e m' => .error e m'

/-! ## Laws of the loops -/

/-- A machine that is not running, or has counted enough, takes no step. -/
theorem stepsBelow_of_stops {limit : Nat} {m : Machine δ}
    (stops : ¬ (m.state = .running ∧ m.steps < limit)) : stepsBelow limit m = .ok () m := by
  rw [stepsBelow, dif_neg stops]

/-- A running machine below the limit takes a step, and goes on when it completes. -/
theorem stepsBelow_of_goes {limit : Nat} {m : Machine δ} (running : m.state = .running)
    (below : m.steps < limit) :
    stepsBelow limit m =
      match step m with
      | .ok _ m' => stepsBelow limit m'
      | .error e m' => .error e m' := by
  rw [stepsBelow, dif_pos ⟨running, below⟩]
  cases step m <;> rfl

theorem stepsOn_of_not_running {m : Machine δ} (stopped : m.state ≠ .running) :
    stepsOn m = some (.ok () m) := by
  rw [stepsOn, if_neg stopped]

theorem stepsOn_of_running {m : Machine δ} (running : m.state = .running) :
    stepsOn m =
      match step m with
      | .ok _ m' => stepsOn m'
      | .error e m' => some (.error e m') := by
  rw [stepsOn, if_pos running]

end MixMachine.Machine
