import MixMachine.Proofs.Reachable

/-!
# Budgets of steps

Two runs in a row are one run with both budgets. A step that fails counts nothing and leaves
the machine as it was, so a second run starts where the first one failed and fails there
again, unless its budget is zero. A budget is cut off where the count of steps ends, and what
is left of that room for the second run is what the first has not used.

* `runFor_add_ok`, `runFor_add_after`: two budgets in a row are one.
* `runFor_of_run`, `runFor_short_of_run`: a run without a budget and the runs with one.
* `budgets_compose`: budgets compose, and a run is its own steps.
-/

namespace MixMachine.Machine

section Runs

variable {δ : Type} [Device δ] {m m' m'' : Machine δ} {a b j k n : Nat} {e : Fault}

/-! ## Two budgets in a row -/

/-- Two runs that answer are one that answers the sum. -/
theorem runFor_add_ok (first : runFor a m = .ok j m') (second : runFor b m' = .ok k m'') :
    runFor (a + b) m = .ok (j + k) m'' := by
  obtain ⟨withinA, left, stop⟩ := runFor_eq_ok_iff.1 first
  obtain ⟨withinB, right, stop'⟩ := runFor_eq_ok_iff.1 second
  rcases stop with rfl | halted
  · have both := room_add a b left.counted
    refine (left.trans right).runFor_ok (by omega) ?_
    exact stop'.imp (fun spent => by omega) id
  · -- nothing is left to do behind a halt
    obtain ⟨rfl, rfl⟩ := right.eq_of_halted halted
    exact left.runFor_ok (Nat.le_trans withinA (room_le_add a b)) (Or.inr halted)

/-- A failure of the first run is one of both. -/
theorem runFor_add_error_left (first : runFor a m = .error e m') (b : Nat) :
    runFor (a + b) m = .error e m' := by
  obtain ⟨l, m₁, within, chain, goes, fails⟩ := runFor_eq_error_iff.1 first
  exact chain.runFor_error (Nat.lt_of_lt_of_le within (room_le_add a b)) goes fails

/-- A failure of the second run is one of both. -/
theorem runFor_add_error_right (first : runFor a m = .ok j m')
    (second : runFor b m' = .error e m'') : runFor (a + b) m = .error e m'' := by
  obtain ⟨-, left, stop⟩ := runFor_eq_ok_iff.1 first
  obtain ⟨l, m₁, within, right, goes, fails⟩ := runFor_eq_error_iff.1 second
  rcases stop with rfl | halted
  · have both := room_add a b left.counted
    exact (left.trans right).runFor_error (by omega) goes fails
  · obtain ⟨-, rfl⟩ := right.eq_of_halted halted
    cases goes.symm.trans halted

/-! ## Runs without a budget -/

/-- A budget that is enough gives the answer of the run without one. -/
theorem runFor_of_run (answer : run m = some (.ok k m')) (counts : m.steps + k ≤ stepLimit)
    (enough : k ≤ n) : runFor n m = .ok k m' := by
  obtain ⟨chain, halted⟩ := run_eq_ok_iff.1 answer
  have within : k ≤ room n m := by
    unfold room
    omega
  exact chain.runFor_ok within (Or.inr halted)

/-- A budget that is not enough is used up, and the machine goes on running. -/
theorem runFor_short_of_run (answer : run m = some (.ok k m'))
    (counts : m.steps + n ≤ stepLimit) (short : n < k) :
    ∃ m₁, runFor n m = .ok n m₁ ∧ Steps n m m₁ ∧ m₁.state = .running := by
  obtain ⟨chain, -⟩ := run_eq_ok_iff.1 answer
  obtain ⟨rest, rfl⟩ := Nat.exists_eq_add_of_lt short
  obtain ⟨m₁, taken, left⟩ := chain.split (l := rest + 1)
  have used := room_eq counts
  exact ⟨m₁, taken.runFor_ok (Nat.le_of_eq used.symm) (Or.inl used.symm), taken, left.running⟩

end Runs

/-! ## Runs of machines with buffers -/

section Buffers

variable {m m' : Machine Buffer} {a b k n : Nat} {e : Fault}

/-- A run that follows one that failed fails in the same way, or has no budget: the
failing step has left the machine as it was. -/
theorem runFor_of_runFor_error (first : runFor a m = .error e m') (b : Nat) :
    runFor b m' = .ok 0 m' ∨ runFor b m' = .error e m' := by
  obtain ⟨l, m₁, -, -, goes, fails⟩ := runFor_eq_error_iff.1 first
  have same : m' = m₁ := step_error_of_buffers fails
  subst same
  rcases Nat.eq_zero_or_pos (room b m') with none | positive
  · exact Or.inl (Steps.zero.runFor_ok (Nat.zero_le _) (Or.inl none.symm))
  · exact Or.inr (Steps.zero.runFor_error positive goes fails)

/-- **Two budgets in a row are one.** The machine behind the second run is that behind
the single run, whatever the two answer. -/
theorem runFor_add_after (m : Machine Buffer) (a b : Nat) :
    (runFor b).after ((runFor a).after m) = (runFor (a + b)).after m := by
  cases first : runFor a m with
  | ok j m₁ =>
      rw [Exec.after_ok first]
      cases second : runFor b m₁ with
      | ok k m₂ => rw [Exec.after_ok second, Exec.after_ok (runFor_add_ok first second)]
      | error e m₂ =>
          rw [Exec.after_error second, Exec.after_error (runFor_add_error_right first second)]
  | error e m₁ =>
      rw [Exec.after_error first, Exec.after_error (runFor_add_error_left first b)]
      rcases runFor_of_runFor_error first b with nothing | again
      · exact Exec.after_ok nothing
      · exact Exec.after_error again

/-- Two counts add up to the count of the single run. -/
theorem runFor_add_answer_ok {j : Nat} (first : (runFor a).answer m = .ok j)
    (second : (runFor b).answer ((runFor a).after m) = .ok k) :
    (runFor (a + b)).answer m = .ok (j + k) := by
  rw [Exec.answer_eq_ok_iff] at first second
  exact Exec.answer_ok (runFor_add_ok first second)

/-- A fault of either run is that of the single run. -/
theorem runFor_add_answer_error
    (failed : (runFor a).answer m = .error e ∨
      (runFor b).answer ((runFor a).after m) = .error e) :
    (runFor (a + b)).answer m = .error e := by
  cases first : runFor a m with
  | ok j m₁ =>
      rw [Exec.answer_ok first, Exec.after_ok first] at failed
      rcases failed with never | second
      · cases never
      · rw [Exec.answer_eq_error_iff] at second
        exact Exec.answer_error (runFor_add_error_right first second)
  | error e' m₁ =>
      rw [Exec.answer_error first, Exec.after_error first] at failed
      have same : e' = e := by
        rcases failed with same | second
        · exact Except.error.inj same
        · rcases runFor_of_runFor_error first b with nothing | again
          · cases (Exec.answer_ok nothing).symm.trans second
          · exact Except.error.inj ((Exec.answer_error again).symm.trans second)
      rw [← same]
      exact Exec.answer_error (runFor_add_error_left first b)

end Buffers

/-- **Budgets compose and agree with single steps.** Whatever two runs in a row answer,
they leave the machine that one run with both budgets leaves; two counts add up to the
count of that run, and a fault of either is its fault. What a run with a budget answers is
the number of steps that have completed, which is the room for its budget unless the machine
has halted, and all of its budget while the count of steps does not end.

A run without a budget answers exactly when steps halt the machine, fails exactly when one of
them does, and never ends exactly when all of them complete. When it answers, so does every
budget that suffices, and a budget that does not is used up by a machine that still runs. A
halted machine runs for no step, and refuses a step and a word. -/
theorem budgets_compose (m : Machine Buffer) :
    (∀ a b,
      (runFor b).after ((runFor a).after m) = (runFor (a + b)).after m ∧
      (∀ j k, (runFor a).answer m = .ok j → (runFor b).answer ((runFor a).after m) = .ok k →
        (runFor (a + b)).answer m = .ok (j + k)) ∧
      ∀ e, ((runFor a).answer m = .error e ∨
          (runFor b).answer ((runFor a).after m) = .error e) →
        (runFor (a + b)).answer m = .error e) ∧
    (∀ n k m', runFor n m = .ok k m' →
      k ≤ n ∧ Steps k m m' ∧ (k = room n m ∨ m'.state = .halted) ∧
      (m.steps + n ≤ stepLimit → k = n ∨ m'.state = .halted)) ∧
    ((∀ k m', run m = some (.ok k m') ↔ Steps k m m' ∧ m'.state = .halted) ∧
      (∀ e m', run m = some (.error e m') ↔
        ∃ k m₁, Steps k m m₁ ∧ m₁.state = .running ∧ step m₁ = .error e m') ∧
      (run m = none ↔ ∀ k, ∃ m', Steps k m m' ∧ m'.state = .running)) ∧
    (∀ k m', run m = some (.ok k m') →
      (m.steps + k ≤ stepLimit → ∀ n, k ≤ n → runFor n m = .ok k m') ∧
      ∀ n, n < k → m.steps + n ≤ stepLimit →
        ∃ m₁, runFor n m = .ok n m₁ ∧ Steps n m m₁ ∧ m₁.state = .running) ∧
    (m.state = .halted →
      run m = some (.ok 0 m) ∧ (∀ n, runFor n m = .ok 0 m) ∧
      step m = .error (.notRunning .halted) m ∧
      ∀ w, executeWord w m = .error (.notRunning .halted) m) := by
  refine ⟨?_, ?_, ⟨?_, ?_, run_eq_none_iff⟩, ?_, ?_⟩
  · intro a b
    refine ⟨runFor_add_after m a b, ?_, ?_⟩
    · intro j k first second
      exact runFor_add_answer_ok first second
    · intro e failed
      exact runFor_add_answer_error failed
  · intro n k m' answer
    obtain ⟨within, chain, stop⟩ := runFor_eq_ok_iff.1 answer
    refine ⟨Nat.le_trans within (Nat.min_le_left ..), chain, stop, fun counts => ?_⟩
    rwa [room_eq counts] at stop
  · intro k m'
    exact run_eq_ok_iff
  · intro e m'
    exact run_eq_error_iff
  · intro k m' answer
    refine ⟨?_, ?_⟩
    · intro counts n enough
      exact runFor_of_run answer counts enough
    · intro n short counts
      exact runFor_short_of_run answer counts short
  · intro halted
    have stopped : m.state ≠ .running := by
      rw [halted]
      decide
    refine ⟨run_eq_ok_iff.2 ⟨.zero, halted⟩, runFor_of_halted halted, ?_, ?_⟩
    · rw [← halted]
      exact step_of_not_running stopped
    · intro w
      rw [← halted]
      exact (Rejects.notRunning stopped).executeWord

/-- A machine whose next instruction is a halt. -/
def halting : Machine Buffer :=
  { standard with
    memory := Memory.zeros.put 0 (Instruction.assemble 0 0 haltModifier Opcode.special) }

theorem steps_halting : ∃ m', Steps 1 halting m' ∧ m'.state = .halted := by
  have decoded : Instruction.decode (halting.memory.cell 0) = .ok ⟨.zero, 0, .halt⟩ := by
    rw [show halting.memory.cell 0 = Instruction.assemble 0 0 haltModifier Opcode.special from
      Memory.cell_put_self _ (by decide) _]
    rfl
  have inside : halting.registers.pc < memorySize := by decide
  have performs : Performs halting ⟨.zero, 0, .halt⟩ _ := .intro inside .halt
  exact ⟨_, .succ (performs.step rfl decoded) .zero, rfl⟩

/-- A machine that halts in its first step runs for one step with every budget but 0, and
one whose program counter is behind memory fails with every budget but 0. -/
theorem budgets_compose_halting :
    (∃ m', run halting = some (.ok 1 m') ∧ m'.state = .halted ∧
      runFor 7 halting = .ok 1 m' ∧
      (runFor 4).after ((runFor 3).after halting) = m' ∧
      (runFor (3 + 4)).answer halting = .ok (1 + 0) ∧
      (∃ m₁, runFor 0 halting = .ok 0 m₁ ∧ m₁.state = .running) ∧
      step m' = .error (.notRunning .halted) m') ∧
    ∃ m : Machine Buffer, ∃ e, (runFor 2).answer m = .error e ∧
      (runFor (2 + 3)).answer m = .error e := by
  obtain ⟨m', chain, halted⟩ := steps_halting
  obtain ⟨compose, -, ⟨reached, -⟩, whole, -⟩ := budgets_compose halting
  obtain ⟨-, -, -, -, stopped⟩ := budgets_compose m'
  obtain ⟨-, runs, refuses, -⟩ := stopped halted
  have answer := (reached 1 m').2 ⟨chain, halted⟩
  obtain ⟨enough, short⟩ := whole 1 m' answer
  obtain ⟨m₁, none, -, running⟩ := short 0 (by decide) (by decide)
  have three := enough (by decide) 3 (by decide)
  have seven := enough (by decide) 7 (by decide)
  obtain ⟨after, counts, -⟩ := compose 3 4
  refine ⟨⟨m', answer, halted, seven, ?_, ?_, ⟨m₁, none, running⟩, refuses⟩, ?_⟩
  · rw [after]
    exact Exec.after_ok seven
  · refine counts 1 0 (Exec.answer_ok three) ?_
    rw [Exec.after_ok three]
    exact Exec.answer_ok (runs 4)
  · have outside : step { standard with registers := { Registers.initial with pc := 4000 } } =
        .error _ _ := step_outside rfl (by decide)
    have failed := Steps.zero.runFor_error (n := 2) (by decide) rfl outside
    obtain ⟨compose, -⟩ := budgets_compose
      { standard with registers := { Registers.initial with pc := 4000 } }
    obtain ⟨-, -, faults⟩ := compose 2 3
    exact ⟨_, _, Exec.answer_error failed, faults _ (Or.inl (Exec.answer_error failed))⟩

end MixMachine.Machine
