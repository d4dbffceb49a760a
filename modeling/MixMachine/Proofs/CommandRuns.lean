import MixMachine.Proofs.Budgets
import MixMachine.Proofs.CommandOutput
import MixMachine.Proofs.ImageLoading

/-!
# The run command runs the machine

The command that runs an image has a loop of its own. It keeps a count that starts at zero and
holds it against the number it was given, looks at the program counter before each step, and
prints while it goes. The machine holds the count that it always keeps against a limit, and does
none of this. This module shows that the two do the same, as long as the machine's count has
room for the budget.

What the command prints is told from the history of the run: `executed n m` are the
instructions that a budget of `n` completes, in order, each with the machine that fetched it.

* `Machine.steps_of_executed`, `Machine.running_iff_of_executed`: what the history tells of
  the machine behind the run.
* `Command.advance_eq`: the loop of the command is the run of the machine.
* `Command.maxSteps_le_of_parse?`: there is room for every budget that the user can give.
* `Command.run_agrees`: what the command prints, and when it fails.
-/

namespace MixMachine

/-- An image file that is accepted holds an image in memory. -/
theorem Image.inMemory_of_load {path : String} {content : Option ByteArray} {image : Image}
    (accepted : load path content = .ok image) : image.InMemory := by
  unfold load at accepted
  split at accepted
  · cases accepted
  split at accepted
  · exact inMemory_of_readDocument accepted
  · exact inMemory_of_parse accepted

namespace Machine

/-! ## The instructions of a run -/

section Executed

variable {δ : Type} [Device δ] {m m' : Machine δ} {n k : Nat} {s : RunState} {e : Fault}

/-- The instructions that at most `n` steps complete, in order. -/
def executed (n : Nat) (m : Machine δ) : List (Completion δ) :=
  m.completions (List.replicate n .step)

theorem executed_succ_of_ok (run : step m = .ok s m') (n : Nat) :
    ∃ i, Instruction.decode (m.memory.cell m.registers.pc) = .ok i ∧ Performs m i m' ∧
      executed (n + 1) m = ⟨m, i⟩ :: executed n m' := by
  have attempt : Attempt.exec .step m = .ok s m' := run
  obtain ⟨-, -, i, decoded, performs⟩ := Attempt.performs_of_ok attempt
  have completion : Attempt.completion? .step m = some ⟨m, i⟩ := by
    unfold Attempt.completion?
    rw [attempt, decoded]
  refine ⟨i, decoded, performs, ?_⟩
  unfold executed
  rw [List.replicate_succ, completions, completion, Exec.after_ok attempt]
  rfl

/-- A step that fails and leaves the machine as it was fails again. -/
theorem executed_of_error (run : step m = .error e m) (n : Nat) : executed n m = [] := by
  have attempt : Attempt.exec .step m = .error e m := run
  have none : Attempt.completion? .step m = none := by
    unfold Attempt.completion?
    rw [attempt]
  unfold executed
  induction n with
  | zero => rfl
  | succ n ih =>
      rw [List.replicate_succ, completions, none, Exec.after_error attempt, ih]
      rfl

theorem executed_of_not_running (halted : m.state ≠ .running) (n : Nat) : executed n m = [] :=
  executed_of_error (step_of_not_running halted) n

/-- Only a halt ends the run. -/
theorem running_iff_of_performs {i : Instruction} (running : m.state = .running)
    (performs : Performs m i m') : m'.state = .running ↔ i.operation ≠ .halt := by
  cases performs with
  | intro _ completes =>
      generalize i.operation = op at completes ⊢
      cases completes with
      | halt => exact iff_of_false RunState.noConfusion (fun other => other rfl)
      | _ => exact iff_of_true running Operation.noConfusion

/-- A budget and one more step. -/
theorem runFor_succ_of_ok (run : step m = .ok s m') (counts : m.steps < stepLimit) (n : Nat) :
    runFor (n + 1) m =
      match runFor n m' with
      | .ok k m'' => .ok (1 + k) m''
      | .error e m'' => .error e m'' := by
  have one : room 1 m = 1 := room_eq counts
  have first : runFor 1 m = .ok 1 m' :=
    (Steps.succ run .zero).runFor_ok (Nat.le_of_eq one.symm) (.inl one.symm)
  rw [Nat.add_comm n]
  cases rest : runFor n m' with
  | ok k m'' => exact runFor_add_ok first rest
  | error e m'' => exact runFor_add_error_right first rest

theorem runFor_succ_after (run : step m = .ok s m') (counts : m.steps < stepLimit) (n : Nat) :
    (runFor (n + 1)).after m = (runFor n).after m' := by
  unfold Exec.after
  rw [runFor_succ_of_ok run counts]
  cases runFor n m' <;> rfl

end Executed

section Buffers

variable {m m' : Machine Buffer} {n k : Nat} {s : RunState} {e : Fault}

/-- What a run is proved by: it ends at once, in a machine that is not running or with a step
that fails, or it completes a step and goes on. -/
theorem runFor_cases (n : Nat) (m : Machine Buffer) (counts : m.steps < stepLimit) :
    (m.state ≠ .running ∧ runFor (n + 1) m = .ok 0 m ∧ executed (n + 1) m = []) ∨
      (∃ e, m.state = .running ∧ step m = .error e m ∧ runFor (n + 1) m = .error e m ∧
        executed (n + 1) m = []) ∨
      ∃ s m' i, m.state = .running ∧ step m = .ok s m' ∧
        Instruction.decode (m.memory.cell m.registers.pc) = .ok i ∧ Performs m i m' ∧
        executed (n + 1) m = ⟨m, i⟩ :: executed n m' := by
  cases running : m.state with
  | halted =>
      have stopped : m.state ≠ .running := fun running' => by cases running.symm.trans running'
      exact .inl ⟨RunState.noConfusion, runFor_of_halted running (n + 1),
        executed_of_not_running stopped (n + 1)⟩
  | running =>
      cases run : step m with
      | ok s m' =>
          obtain ⟨i, decoded, performs, history⟩ := executed_succ_of_ok run n
          exact .inr (.inr ⟨s, m', i, rfl, rfl, decoded, performs, history⟩)
      | error e m' =>
          have same : m' = m := step_error_of_buffers run
          subst same
          have left : 0 < room (n + 1) m' := by
            unfold room
            omega
          exact .inr (.inl ⟨e, rfl, rfl, Steps.zero.runFor_error left running run,
            executed_of_error run (n + 1)⟩)

/-- A step takes the count as far as it takes the budget. -/
theorem counts_behind (first : step m = .ok s m') (counts : m.steps + (n + 1) ≤ stepLimit) :
    m'.steps + n ≤ stepLimit := by
  have counted := counts_step.steps_eq first
  omega

/-- The machine counts the instructions of its run. -/
theorem steps_of_executed (counts : m.steps + n ≤ stepLimit) :
    ((runFor n).after m).steps = m.steps + (executed n m).length := by
  induction n generalizing m with
  | zero =>
      rw [Exec.after_ok (runFor_zero m)]
      rfl
  | succ n ih =>
      rcases runFor_cases n m (by omega) with ⟨-, run, none⟩ | ⟨e, -, -, run, none⟩ |
        ⟨s, m', i, -, first, -, -, history⟩
      · rw [Exec.after_ok run, none]
        rfl
      · rw [Exec.after_error run, none]
        rfl
      · rw [runFor_succ_after first (by omega), ih (counts_behind first counts), history,
          counts_step.steps_eq first, List.length_cons]
        omega

/-- A run answers with the number of its instructions. -/
theorem length_executed (counts : m.steps + n ≤ stepLimit) (run : runFor n m = .ok k m') :
    (executed n m).length = k := by
  obtain ⟨-, chain, -⟩ := runFor_eq_ok_iff.1 run
  have counted := steps_of_executed counts
  rw [Exec.after_ok run, chain.counted] at counted
  omega

/-- A run leaves a running machine when it has started with one and executed no halt. -/
theorem running_iff_of_executed (counts : m.steps + n ≤ stepLimit)
    (running : m.state = .running) :
    ((runFor n).after m).state = .running ↔
      ∀ c ∈ executed n m, c.instruction.operation ≠ .halt := by
  induction n generalizing m with
  | zero =>
      rw [Exec.after_ok (runFor_zero m)]
      exact iff_of_true running (fun c member => absurd member List.not_mem_nil)
  | succ n ih =>
      rcases runFor_cases n m (by omega) with ⟨stopped, -, -⟩ | ⟨e, -, -, run, none⟩ |
        ⟨s, m', i, -, first, -, performs, history⟩
      · exact absurd running stopped
      · rw [Exec.after_error run, none]
        exact iff_of_true running (fun c member => absurd member List.not_mem_nil)
      · rw [runFor_succ_after first (by omega), history, List.forall_mem_cons,
          ← running_iff_of_performs running performs]
        cases still : m'.state with
        | running => rw [ih (counts_behind first counts) still, eq_self, true_and]
        | halted =>
            rw [Exec.after_ok (runFor_of_halted still n), still]
            exact iff_of_false RunState.noConfusion (fun both => RunState.noConfusion both.1)

/-- The instructions of a run were fetched one after the other, each from the cell at the
program counter of the machine that the ones before it had made. -/
theorem fetched_of_executed (counts : m.steps + n ≤ stepLimit) {j : Nat} {c : Completion Buffer}
    (h : (executed n m)[j]? = some c) :
    Steps j m c.machine ∧
      Instruction.decode (c.machine.memory.cell c.machine.registers.pc) = .ok c.instruction := by
  induction n generalizing m j with
  | zero => cases h
  | succ n ih =>
      rcases runFor_cases n m (by omega) with ⟨-, -, none⟩ | ⟨e, -, -, -, none⟩ |
        ⟨s, m', i, -, first, decoded, -, history⟩
      · rw [none] at h
        cases h
      · rw [none] at h
        cases h
      · rw [history] at h
        cases j with
        | zero =>
            cases h
            exact ⟨.zero, decoded⟩
        | succ j =>
            obtain ⟨chain, fetched⟩ := ih (counts_behind first counts) h
            exact ⟨.succ first chain, fetched⟩

/-- A machine that is about to halt runs for one step. -/
theorem runFor_of_halt {i : Instruction} (running : m.state = .running)
    (counts : m.steps < stepLimit)
    (inside : m.registers.pc < memorySize)
    (decoded : Instruction.decode (m.memory.cell m.registers.pc) = .ok i)
    (halt : i.operation = .halt) (n : Nat) :
    ∃ m', runFor (n + 1) m = .ok 1 m' ∧ m'.state = .halted ∧
      executed (n + 1) m = [⟨m, i⟩] := by
  have completes : Completes m (m.effectiveAddress i) i.operation .next
      { m with state := .halted } := by
    rw [halt]
    exact .halt
  have performs := Performs.intro inside completes
  have first := performs.step running decoded
  have chain := Steps.succ first .zero
  obtain ⟨i', decoded', -, history⟩ := executed_succ_of_ok first n
  cases decoded.symm.trans decoded'
  have within : 1 ≤ room (n + 1) m := by
    unfold room
    omega
  refine ⟨_, chain.runFor_ok within (.inr rfl), rfl, ?_⟩
  rw [history, executed_of_not_running RunState.noConfusion]

end Buffers

end Machine

namespace Command

open Machine

/-! ## The loop of the command -/

/-- The failure that ends a run, with the address of the instruction that failed. -/
def failureOf : EStateM.Result Fault (Machine Buffer) Nat → Option (Nat × Fault)
  | .ok .. => none
  | .error e m => some (m.registers.pc, e)

variable {m m' : Machine Buffer} {s : RunState} {i : Instruction}

theorem failureOf_runFor_succ (run : step m = .ok s m') (counts : m.steps < stepLimit)
    (n : Nat) : failureOf (runFor (n + 1) m) = failureOf (runFor n m') := by
  rw [runFor_succ_of_ok run counts]
  cases runFor n m' <;> rfl

/-- The command stops at a machine that is not running, and when its own count is up. -/
theorem advance_of_stops {trace : Bool} {maxSteps : Nat} {p : Progress}
    (stops : ¬ (p.machine.state = .running ∧ p.count < maxSteps)) :
    advance trace maxSteps p = p := by
  rw [advance, dif_neg stops]

theorem advance_of_goes {trace : Bool} {maxSteps : Nat} {p : Progress}
    (running : p.machine.state = .running) (below : p.count < maxSteps) :
    advance trace maxSteps p =
      match step p.machine with
      | .ok _ m =>
        advance trace maxSteps
          ⟨m, p.count + 1,
            if trace then traceLine p.machine.registers.pc m :: p.trace else p.trace, none⟩
      | .error e m => { p with machine := m, failure := some (p.machine.registers.pc, e) } := by
  have goes : p.machine.state = .running ∧ p.count < maxSteps := ⟨running, below⟩
  rw [advance]
  exact dif_pos goes

/-- **The loop of the command is the run of the machine**, from any point on. The command
looks at its own count and the machine at the one it keeps, so the induction is on how far
both are from their limits. -/
theorem advance_eq (trace : Bool) (n : Nat) {m : Machine Buffer}
    (counts : m.steps + n ≤ stepLimit) (count : Nat) (printed : List String) :
    advance trace (count + n) ⟨m, count, printed, none⟩ =
      ⟨(runFor n).after m, count + (executed n m).length,
        (if trace then (executed n m).map fun c => traced c ++ "\n" else []).reverse ++ printed,
        failureOf (runFor n m)⟩ := by
  induction n generalizing m count printed with
  | zero =>
      have spent : ¬ (m.state = .running ∧ count < count + 0) := fun goes =>
        Nat.lt_irrefl count goes.2
      rw [advance_of_stops (p := ⟨m, count, printed, none⟩) spent, Exec.after_ok (runFor_zero m),
        runFor_zero]
      cases trace <;> rfl
  | succ n ih =>
      have below : count < count + (n + 1) := by omega
      rcases runFor_cases n m (by omega) with ⟨stopped, run, nothing⟩ |
        ⟨e, running, fails, run, nothing⟩ | ⟨s, m', i, running, first, -, performs, history⟩
      · rw [advance_of_stops (p := ⟨m, count, printed, none⟩) fun goes => stopped goes.1,
          Exec.after_ok run, run, nothing]
        cases trace <;> rfl
      · rw [advance_of_goes (p := ⟨m, count, printed, none⟩) running below, fails,
          Exec.after_error run, run, nothing]
        cases trace <;> rfl
      · rw [advance_of_goes (p := ⟨m, count, printed, none⟩) running below, first]
        dsimp only
        rw [show count + (n + 1) = count + 1 + n by omega, ih (counts_behind first counts),
          runFor_succ_after first (by omega), history, traceLine_eq first performs,
          failureOf_runFor_succ first (by omega)]
        refine Progress.mk.injEq .. ▸ ⟨rfl, ?_, ?_, rfl⟩
        · rw [List.length_cons]
          omega
        · cases trace with
          | false => rfl
          | true => simp only [if_true, List.map_cons, List.reverse_cons, List.append_assoc,
              List.singleton_append]

/-- The command starts to count at zero, wherever the machine does. -/
theorem advance_zero_eq (trace : Bool) {maxSteps : Nat} {m : Machine Buffer}
    (counts : m.steps + maxSteps ≤ stepLimit) :
    advance trace maxSteps ⟨m, 0, [], none⟩ =
      ⟨(runFor maxSteps).after m, (executed maxSteps m).length,
        (if trace then (executed maxSteps m).map fun c => traced c ++ "\n" else []).reverse,
        failureOf (runFor maxSteps m)⟩ := by
  have whole := advance_eq trace maxSteps counts 0 []
  rwa [Nat.zero_add, Nat.zero_add, List.append_nil] at whole

/-! ## The whole command -/

theorem le_of_number? {args : Arguments} {word : String} {n : Nat}
    (chosen : args.number? word readCount = some (some n)) : n ≤ stepLimit := by
  unfold Arguments.number? at chosen
  obtain ⟨value, -, chosen⟩ := Option.bind_eq_some_iff.1 chosen
  cases value with
  | none => cases chosen
  | some value =>
      obtain ⟨count, read, same⟩ := Option.bind_eq_some_iff.1 chosen
      cases same
      unfold readCount Decimal.unsigned? at read
      obtain ⟨-, small⟩ := Option.filter_eq_some_iff.1 read
      exact of_decide_eq_true small

/-- **The count of a machine has room for every budget that the user can give**: the
argument is read as a number of as many bits. -/
theorem maxSteps_le_of_parse? {args : List String} {path : String} {start : Option Nat}
    {maxSteps : Nat} {trace : Bool}
    (parsed : parse? args = some (.run path start maxSteps trace)) : maxSteps ≤ stepLimit := by
  unfold parse? at parsed
  split at parsed
  · obtain ⟨arguments, -, parsed⟩ := Option.bind_eq_some_iff.1 parsed
    split at parsed
    · obtain ⟨from?, -, parsed⟩ := Option.bind_eq_some_iff.1 parsed
      obtain ⟨budget, given, parsed⟩ := Option.bind_eq_some_iff.1 parsed
      obtain ⟨traced?, -, parsed⟩ := Option.bind_eq_some_iff.1 parsed
      cases parsed
      cases budget with
      | none => decide
      | some n => exact le_of_number? given
    · cases parsed
  -- the other commands do not run an image
  · obtain ⟨arguments, -, parsed⟩ := Option.bind_eq_some_iff.1 parsed
    split at parsed <;> cases parsed
  · obtain ⟨arguments, -, parsed⟩ := Option.bind_eq_some_iff.1 parsed
    split at parsed
    · obtain ⟨first?, -, parsed⟩ := Option.bind_eq_some_iff.1 parsed
      obtain ⟨count?, -, parsed⟩ := Option.bind_eq_some_iff.1 parsed
      cases parsed
    · cases parsed
  · cases parsed

/-- An image in memory is made ready to run as the machine does it. -/
theorem prepare_ok {image : Image} (inside : image.InMemory) {start : Option Nat}
    (valid : ∀ pc ∈ start, pc < memorySize) :
    ∃ loaded ready, loadImage image standard = .ok () loaded ∧
      (start = none → ready = loaded) ∧
      (∀ pc, start = some pc → setPc pc loaded = .ok () ready) ∧
      ready.state = .running ∧ ready.steps = 0 ∧ prepare image start = .ok ready := by
  obtain ⟨loaded, load, running, unstepped⟩ : ∃ loaded, loadImage image standard = .ok () loaded ∧
      loaded.state = .running ∧ loaded.steps = 0 := ⟨_, loadImage_ok inside, rfl, rfl⟩
  unfold prepare
  rw [load]
  cases start with
  | none =>
      refine ⟨loaded, loaded, rfl, fun _ => rfl, ?_, running, unstepped, rfl⟩
      intro pc other
      cases other
  | some pc =>
      obtain ⟨ready, set, running, unstepped⟩ : ∃ ready, setPc pc loaded = .ok () ready ∧
          ready.state = .running ∧ ready.steps = 0 :=
        ⟨_, setPc_ok (valid pc rfl), running, unstepped⟩
      refine ⟨loaded, ready, rfl, ?_, ?_, running, unstepped, ?_⟩
      · intro other
        cases other
      · intro pc' same
        cases same
        exact set
      · dsimp only
        rw [set]

/-- What the command prints of a run that answers. -/
theorem runMachine_of_ok {ready : Machine Buffer} {maxSteps k : Nat}
    (counts : ready.steps + maxSteps ≤ stepLimit) (run : runFor maxSteps ready = .ok k m)
    (trace : Bool) :
    runMachine ready maxSteps trace =
      ⟨0, traceText trace (executed maxSteps ready) ++
        ("\n" ++ String.join ((shown k m).map entry) ++
          if m.state = .running then notice maxSteps else ""), ""⟩ := by
  unfold runMachine
  rw [advance_zero_eq trace counts, run, Exec.after_ok run, length_executed counts run]
  dsimp only [failureOf]
  rw [List.reverse_reverse, summary_eq]
  cases trace <;> rfl

/-- What the command prints of a run that fails. -/
theorem runMachine_of_error {ready : Machine Buffer} {maxSteps : Nat} {e : Fault}
    (counts : ready.steps + maxSteps ≤ stepLimit) (run : runFor maxSteps ready = .error e m)
    (trace : Bool) :
    runMachine ready maxSteps trace =
      ⟨1, traceText trace (executed maxSteps ready), complaint m.registers.pc e⟩ := by
  unfold runMachine
  rw [advance_zero_eq trace counts, run]
  dsimp only [failureOf]
  rw [List.reverse_reverse]
  cases trace <;> rfl

/-- **The run command agrees with the machine.** It makes the machine ready as the loader does,
from another start when one is given, and leaves it as a run with the same budget does, with
or without a trace. When the run answers, the command shows the answer and the machine, and
the notice when the machine still runs, which is when the budget is used up without a halt;
what it shows determines the answer and the machine's clock, state, program counter, registers,
toggle and indicator. When the run fails, the command shows nothing of the machine and ends
with status 1 and a complaint, which determines the fault and the program counter that the run
leaves, and this is that of the step that fails. The trace has a line for each instruction that
completed, in their order, and each line tells the address of its instruction. -/
theorem run_agrees {path : String} {content : Option ByteArray} {image : Image}
    (accepted : Image.load path content = .ok image) {start : Option Nat}
    (valid : ∀ pc ∈ start, pc < memorySize) {maxSteps : Nat} (counts : maxSteps ≤ stepLimit) :
    ∃ loaded ready : Machine Buffer,
      loadImage image standard = .ok () loaded ∧
      (start = none → ready = loaded) ∧
      (∀ pc, start = some pc → setPc pc loaded = .ok () ready) ∧
      (∀ trace, (advance trace maxSteps ⟨ready, 0, [], none⟩).machine =
        (runFor maxSteps).after ready) ∧
      (∀ k m, runFor maxSteps ready = .ok k m →
        (∀ trace, execute (.run path start maxSteps trace) content =
          ⟨0, traceText trace (executed maxSteps ready) ++
            ("\n" ++ String.join ((shown k m).map entry) ++
              if m.state = .running then notice maxSteps else ""), ""⟩) ∧
        (∀ k' m', String.join ((shown k' m').map entry) = String.join ((shown k m).map entry) →
          Alike k' m' k m) ∧
        (executed maxSteps ready).length = k ∧
        (m.state = .running ↔
          k = maxSteps ∧ ∀ c ∈ executed maxSteps ready, c.instruction.operation ≠ .halt)) ∧
      (∀ e m, runFor maxSteps ready = .error e m →
        (∀ trace, execute (.run path start maxSteps trace) content =
          ⟨1, traceText trace (executed maxSteps ready), complaint m.registers.pc e⟩) ∧
        (∀ pc e', complaint pc e' = complaint m.registers.pc e →
          pc = m.registers.pc ∧ e' = e) ∧
        (executed maxSteps ready).length = m.steps ∧ step m = .error e m) ∧
      (∀ j c, (executed maxSteps ready)[j]? = some c →
        Steps j ready c.machine ∧
          Instruction.decode (c.machine.memory.cell c.machine.registers.pc) =
            .ok c.instruction) ∧
      Text.lines (traceText true (executed maxSteps ready)).toList =
        ((executed maxSteps ready).map fun c => (traced c).toList) ∧
      ∀ c d, traced c = traced d → c.machine.registers.pc = d.machine.registers.pc := by
  obtain ⟨loaded, ready, load, same, set, running, unstepped, prepared⟩ :=
    prepare_ok (Image.inMemory_of_load accepted) valid
  -- a machine that is ready has counted nothing, so there is room for the whole budget
  have within : ready.steps + maxSteps ≤ stepLimit := by
    rw [unstepped, Nat.zero_add]
    exact counts
  have command : ∀ trace, execute (.run path start maxSteps trace) content =
      runMachine ready maxSteps trace := by
    intro trace
    unfold execute onImage Command.path
    dsimp only
    rw [accepted]
    dsimp only
    rw [prepared]
  refine ⟨loaded, ready, load, same, set, ?_, ?_, ?_, ?_, ?_, fun c d => pc_eq_of_traced_eq⟩
  · intro trace
    rw [advance_zero_eq trace within]
  · intro k m run
    have goesOn := running_iff_of_executed within running
    rw [Exec.after_ok run] at goesOn
    refine ⟨fun trace => (command trace).trans (runMachine_of_ok within run trace),
      fun k' m' => alike_of_summary_eq, length_executed within run,
      fun still => ⟨?_, goesOn.1 still⟩, fun spent => goesOn.2 spent.2⟩
    obtain ⟨-, -, spent | halted⟩ := runFor_eq_ok_iff.1 run
    · exact spent.trans (room_eq within)
    · cases still.symm.trans halted
  · intro e m run
    have counted := steps_of_executed within
    rw [Exec.after_error run, unstepped, Nat.zero_add] at counted
    obtain ⟨l, m₁, -, -, -, fails⟩ := runFor_eq_error_iff.1 run
    have same : m = m₁ := step_error_of_buffers fails
    rw [← same] at fails
    exact ⟨fun trace => (command trace).trans (runMachine_of_error within run trace),
      fun pc e' => complaint_injective, counted.symm, fails⟩
  · intro j c listed
    exact fetched_of_executed within listed
  · refine lines_traceText fun c member => ?_
    obtain ⟨j, listed⟩ := List.getElem?_of_mem member
    exact Instruction.code?_ne_none_of_decode (fetched_of_executed within listed).2

/-- A program that halts in the last cell of memory, run with budget to spare and, from
another start, with none. -/
theorem run_agrees_halting :
    ∃ content : ByteArray, ∃ m m₀ : Machine Buffer, ∃ c, m.state = .halted ∧
      c.machine.registers.pc = 3999 ∧ m₀.registers.pc = 7 ∧
      (∀ trace, execute (.run "halt.mix" none 3 trace) (some content) =
        ⟨0, traceText trace [c] ++ ("\n" ++ String.join ((shown 1 m).map entry) ++ ""), ""⟩) ∧
      ∀ trace, execute (.run "halt.mix" (some 7) 0 trace) (some content) =
        ⟨0, traceText trace [] ++ ("\n" ++ String.join ((shown 0 m₀).map entry) ++ notice 0),
          ""⟩ := by
  have accepted : Image.load "halt.mix" (some "START 3999\n3999 + 0 0 0 2 5\n".toUTF8) =
      .ok ⟨3999, [(3999, ⟨0x85⟩)]⟩ := by decide +kernel
  obtain ⟨loaded, ready, load, same, -, -, answers, -⟩ :=
    run_agrees accepted (show ∀ pc ∈ none, pc < memorySize by simp) (show 3 ≤ stepLimit by decide)
  obtain ⟨loaded₀, ready₀, load₀, -, set, -, answers₀, -⟩ :=
    run_agrees accepted (show ∀ pc ∈ some 7, pc < memorySize by decide)
      (show 0 ≤ stepLimit by decide)
  -- the machine that is loaded is about to halt
  obtain ⟨running, unstepped, pc, cell⟩ : loaded.state = .running ∧ loaded.steps = 0 ∧
      loaded.registers.pc = 3999 ∧ loaded.memory.cell 3999 = ⟨0x85⟩ := by
    cases load.symm.trans (loadImage_ok (Image.inMemory_of_load accepted))
    exact ⟨rfl, rfl, rfl, Memory.cell_put_self _ (by decide) _⟩
  have decoded : Instruction.decode (loaded.memory.cell loaded.registers.pc) =
      .ok ⟨.zero, 0, .halt⟩ := by
    rw [pc, cell]
    rfl
  obtain ⟨m, run, halted, history⟩ := runFor_of_halt running (unstepped ▸ by decide)
    (pc ▸ by decide) decoded rfl 2
  rw [same rfl] at answers
  obtain ⟨outcome, -⟩ := answers 1 m run
  obtain ⟨outcome₀, -, -⟩ := answers₀ 0 ready₀ (runFor_zero ready₀)
  rw [history, if_neg (fun still => by cases halted.symm.trans still)] at outcome
  obtain ⟨running₀, pc₀⟩ : ready₀.state = .running ∧ ready₀.registers.pc = 7 := by
    cases load₀.symm.trans (loadImage_ok (Image.inMemory_of_load accepted))
    cases (set 7 rfl).symm.trans (setPc_ok (by decide))
    exact ⟨rfl, rfl⟩
  rw [if_pos running₀] at outcome₀
  exact ⟨_, m, ready₀, _, halted, pc, pc₀, outcome, outcome₀⟩

end Command

end MixMachine
