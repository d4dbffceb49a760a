import MixMachine.Proofs.Rules

/-!
# Runs as steps in a row

Two loops run the machine. The one with a budget holds the machine's own count against a
limit that is fixed when it starts; the one without has no bound and may never end.
`Steps k m m'` says without either that `k` steps in a row complete and make `m'` of `m`.
What a run answers, how it fails and that it never ends are then conditions on such chains.

The count of steps has 64 bits, and a budget that leads past them is cut off there: `room n m`
is what the machine takes of a budget `n`.

* `Steps.counted`: the machine counts the steps that complete.
* `runFor_eq_ok_iff`, `runFor_eq_error_iff`: what a run with a budget does.
* `run_eq_ok_iff`, `run_eq_error_iff`, `run_eq_none_iff`: what a run without one does.
-/

namespace MixMachine.Machine

variable {δ : Type} {m m' m'' m₁ : Machine δ} {k l n : Nat} {e : Fault}

/-! ## Room for a budget -/

/-- What the machine takes of a budget: no more than its count of steps has room for. -/
def room (n : Nat) (m : Machine δ) : Nat :=
  min n (stepLimit - m.steps)

theorem room_eq (within : m.steps + n ≤ stepLimit) : room n m = n := by
  unfold room
  omega

/-- The limit of a run is its room away. -/
theorem room_eq_sub (n : Nat) (m : Machine δ) :
    room n m = min (m.steps + n) stepLimit - m.steps := by
  unfold room
  omega

/-- A machine that has used up its room for one budget has the room that is left for another. -/
theorem room_add (a b : Nat) (counted : m'.steps = m.steps + room a m) :
    room (a + b) m = room a m + room b m' := by
  unfold room at counted ⊢
  omega

theorem room_le_add (a b : Nat) : room a m ≤ room (a + b) m := by
  unfold room
  omega

variable [Device δ]

/-! ## Steps in a row -/

/-- `k` steps in a row complete and make the second machine of the first. -/
inductive Steps : Nat → Machine δ → Machine δ → Prop
  | zero {m : Machine δ} : Steps 0 m m
  | succ {k : Nat} {s : RunState} {m m' m'' : Machine δ} :
    step m = .ok s m' →
    Steps k m' m'' →
    Steps (k + 1) m m''

/-- A machine that completes a step was running. -/
theorem Steps.running (h : Steps (k + 1) m m') : m.state = .running := by
  cases h with
  | succ first _ => exact (performs_of_step first).1

theorem Steps.eq_of_halted (h : Steps k m m') (halted : m.state = .halted) :
    k = 0 ∧ m' = m := by
  cases h with
  | zero => exact ⟨rfl, rfl⟩
  | succ first _ =>
      have running := (performs_of_step first).1
      cases running.symm.trans halted

theorem Steps.trans (left : Steps k m m') (right : Steps l m' m'') : Steps (k + l) m m'' := by
  induction left with
  | zero =>
      rw [Nat.zero_add]
      exact right
  | succ first _ ih =>
      rw [Nat.succ_add]
      exact .succ first (ih right)

/-- Steps in a row can be parted anywhere. -/
theorem Steps.split (h : Steps (k + l) m m'') : ∃ m', Steps k m m' ∧ Steps l m' m'' := by
  induction k generalizing m with
  | zero =>
      rw [Nat.zero_add] at h
      exact ⟨m, .zero, h⟩
  | succ k ih =>
      rw [Nat.succ_add] at h
      cases h with
      | succ first rest =>
          obtain ⟨m', left, right⟩ := ih rest
          exact ⟨m', .succ first left, right⟩

/-- Equally many steps from one machine lead to one machine. -/
theorem Steps.unique (left : Steps k m m') (right : Steps k m m'') : m' = m'' := by
  induction left with
  | zero =>
      cases right
      rfl
  | succ first _ ih =>
      cases right with
      | succ first' rest =>
          cases first.symm.trans first'
          exact ih rest

/-- **The machine counts the steps that complete**, each of them once. -/
theorem Steps.counted (h : Steps k m m') : m'.steps = m.steps + k := by
  induction h with
  | zero => rfl
  | succ first _ ih =>
      rw [ih, counts_step.steps_eq first]
      omega

/-- What every step keeps holds behind a run of them. -/
theorem Steps.preserves {P : Machine δ → Prop} (h : Steps k m m')
    (kept : ∀ {s m m'}, step m = .ok s m' → P m → P m') (start : P m) : P m' := by
  induction h with
  | zero => exact start
  | succ first _ ih => exact ih (kept first start)

/-- **A number of steps is taken, or a halt or a step that fails comes before.** -/
theorem steps_taken_or_fail (n : Nat) (m : Machine δ) :
    (∃ k m', k ≤ n ∧ Steps k m m' ∧ (k = n ∨ m'.state = .halted)) ∨
      ∃ k m₁ e m', k < n ∧ Steps k m m₁ ∧ m₁.state = .running ∧ step m₁ = .error e m' := by
  induction n generalizing m with
  | zero => exact Or.inl ⟨0, m, Nat.le_refl 0, .zero, Or.inl rfl⟩
  | succ n ih =>
      cases running : m.state with
      | halted => exact Or.inl ⟨0, m, Nat.zero_le _, .zero, Or.inr running⟩
      | running =>
          cases first : step m with
          | error e m' => exact Or.inr ⟨0, m, e, m', Nat.succ_pos n, .zero, running, first⟩
          | ok s m₁ =>
              -- the rest of the steps go on from the machine behind the first one
              rcases ih m₁ with ⟨k, m', within, chain, stop⟩ |
                ⟨k, m₂, e, m', within, chain, goes, fails⟩
              · refine Or.inl ⟨k + 1, m', Nat.succ_le_succ within, .succ first chain, ?_⟩
                exact stop.imp (congrArg (· + 1)) id
              · exact Or.inr
                  ⟨k + 1, m₂, e, m', Nat.succ_lt_succ within, .succ first chain, goes, fails⟩

/-! ## What a budget is spent on -/

/-- Steps below the limit do not change what the loop comes to. -/
theorem Steps.stepsBelow_eq (h : Steps k m m') {limit : Nat} (below : k ≤ limit - m.steps) :
    stepsBelow limit m = stepsBelow limit m' := by
  induction h with
  | zero => rfl
  | succ first _ ih =>
      have running := (performs_of_step first).1
      have counted := counts_step.steps_eq first
      rw [stepsBelow_of_goes running (by omega), first]
      exact ih (by omega)

/-- A run takes its steps and then reads its answer off the count. -/
theorem runFor_eq_bind (n : Nat) (m : Machine δ) :
    runFor n m = (stepsBelow (min (m.steps + n) stepLimit) >>= fun _ => do
      return (← get).steps - m.steps) m := rfl

/-- Steps that use up a budget or halt the machine are what a run answers. -/
theorem Steps.runFor_ok (h : Steps k m m') (within : k ≤ room n m)
    (stop : k = room n m ∨ m'.state = .halted) : runFor n m = .ok k m' := by
  rw [room_eq_sub] at within stop
  have counted := h.counted
  have taken : stepsBelow (min (m.steps + n) stepLimit) m = .ok () m' := by
    rw [h.stepsBelow_eq within]
    refine stepsBelow_of_stops ?_
    rintro ⟨running, below⟩
    rcases stop with spent | halted
    · omega
    · cases running.symm.trans halted
  have answer : m'.steps - m.steps = k := by omega
  rw [runFor_eq_bind, Exec.bind_ok taken, ← answer]
  rfl

/-- A step that fails within a budget fails the run. -/
theorem Steps.runFor_error (h : Steps k m m₁) (within : k < room n m)
    (running : m₁.state = .running) (fails : step m₁ = .error e m') :
    runFor n m = .error e m' := by
  rw [room_eq_sub] at within
  have counted := h.counted
  have taken : stepsBelow (min (m.steps + n) stepLimit) m = .error e m' := by
    rw [h.stepsBelow_eq (Nat.le_of_lt within), stepsBelow_of_goes running (by omega), fails]
  rw [runFor_eq_bind]
  exact Exec.bind_error taken

/-- **A run answers `k` exactly when `k` steps complete** within its budget and use it up
or halt the machine. -/
theorem runFor_eq_ok_iff :
    runFor n m = .ok k m' ↔
      k ≤ room n m ∧ Steps k m m' ∧ (k = room n m ∨ m'.state = .halted) := by
  constructor
  · intro run
    rcases steps_taken_or_fail (room n m) m with ⟨l, m₁, within, chain, stop⟩ |
      ⟨l, m₁, e, m₂, within, chain, goes, fails⟩
    · cases run.symm.trans (chain.runFor_ok within stop)
      exact ⟨within, chain, stop⟩
    · cases run.symm.trans (chain.runFor_error within goes fails)
  · rintro ⟨within, chain, stop⟩
    exact chain.runFor_ok within stop

/-- **A run fails exactly when the step behind fewer steps than its budget does**, with
the fault of that step. -/
theorem runFor_eq_error_iff :
    runFor n m = .error e m' ↔
      ∃ k m₁, k < room n m ∧ Steps k m m₁ ∧ m₁.state = .running ∧ step m₁ = .error e m' := by
  constructor
  · intro run
    rcases steps_taken_or_fail (room n m) m with ⟨l, m₁, within, chain, stop⟩ |
      ⟨l, m₁, e', m₂, within, chain, goes, fails⟩
    · cases run.symm.trans (chain.runFor_ok within stop)
    · cases run.symm.trans (chain.runFor_error within goes fails)
      exact ⟨l, m₁, within, chain, goes, fails⟩
  · rintro ⟨k, m₁, within, chain, goes, fails⟩
    exact chain.runFor_error within goes fails

theorem runFor_zero (m : Machine δ) : runFor 0 m = .ok 0 m :=
  Steps.zero.runFor_ok (Nat.zero_le _) (Or.inl (Nat.zero_min _).symm)

/-- A halted machine takes no step of a budget. -/
theorem runFor_of_halted (halted : m.state = .halted) (n : Nat) : runFor n m = .ok 0 m :=
  Steps.zero.runFor_ok (Nat.zero_le _) (Or.inr halted)

/-! ## Runs without a budget -/

theorem Steps.stepsOn_eq (h : Steps k m m') : stepsOn m = stepsOn m' := by
  induction h with
  | zero => rfl
  | succ first _ ih =>
      rw [stepsOn_of_running (performs_of_step first).1, first]
      exact ih

/-- A machine that steps lead to and that does not go on: it has halted, or its next step
fails. -/
inductive Ends (m : Machine δ) : EStateM.Result Fault (Machine δ) Unit → Prop
  | halts {k : Nat} {m' : Machine δ} :
    Steps k m m' →
    m'.state = .halted →
    Ends m (.ok () m')
  | fails {k : Nat} {e : Fault} {m₁ m' : Machine δ} :
    Steps k m m₁ →
    m₁.state = .running →
    step m₁ = .error e m' →
    Ends m (.error e m')

/-- The end of a run behind one more step. -/
theorem Ends.before {s : RunState} {r : EStateM.Result Fault (Machine δ) Unit}
    (first : step m = .ok s m') (h : Ends m' r) : Ends m r := by
  cases h with
  | halts chain halted => exact .halts (.succ first chain) halted
  | fails chain running fails => exact .fails (.succ first chain) running fails

/-- **A run that ends does so behind finitely many steps.** The loop is the limit of its
finite parts, and a result has come out of one of them. -/
theorem ends_of_stepsOn {r : EStateM.Result Fault (Machine δ) Unit}
    (result : stepsOn m = some r) : Ends m r := by
  refine stepsOn.partial_correctness Ends ?_ m r result
  intro loop ih m r result
  by_cases running : m.state = .running
  · rw [if_pos running] at result
    cases first : step m with
    | ok s m' =>
        rw [first] at result
        exact (ih m' r result).before first
    | error e m' =>
        rw [first] at result
        cases result
        exact .fails .zero running first
  · rw [if_neg running] at result
    cases result
    cases stopped : m.state with
    | running => exact absurd stopped running
    | halted => exact .halts .zero stopped

theorem Ends.stepsOn_eq {r : EStateM.Result Fault (Machine δ) Unit} (h : Ends m r) :
    stepsOn m = some r := by
  cases h with
  | halts chain halted =>
      rw [chain.stepsOn_eq]
      exact stepsOn_of_not_running fun running => by cases running.symm.trans halted
  | fails chain running fails => rw [chain.stepsOn_eq, stepsOn_of_running running, fails]

/-- **A run without a budget answers `k` exactly when `k` steps halt the machine.** -/
theorem run_eq_ok_iff : run m = some (.ok k m') ↔ Steps k m m' ∧ m'.state = .halted := by
  unfold run
  constructor
  · intro answer
    obtain ⟨r, result, counted⟩ := Option.map_eq_some_iff.1 answer
    cases ends_of_stepsOn result with
    | halts chain halted =>
        cases counted
        rw [chain.counted, Nat.add_sub_cancel_left]
        exact ⟨chain, halted⟩
    | fails => cases counted
  · rintro ⟨chain, halted⟩
    have answer : m'.steps - m.steps = k := by rw [chain.counted, Nat.add_sub_cancel_left]
    rw [(Ends.halts chain halted).stepsOn_eq, Option.map_some, ← answer]

/-- **A run without a budget fails exactly when a step of it does**, with the fault of that
step. -/
theorem run_eq_error_iff :
    run m = some (.error e m') ↔
      ∃ k m₁, Steps k m m₁ ∧ m₁.state = .running ∧ step m₁ = .error e m' := by
  unfold run
  constructor
  · intro answer
    obtain ⟨r, result, counted⟩ := Option.map_eq_some_iff.1 answer
    cases ends_of_stepsOn result with
    | halts => cases counted
    | fails chain running fails =>
        cases counted
        exact ⟨_, _, chain, running, fails⟩
  · rintro ⟨k, m₁, chain, running, fails⟩
    rw [(Ends.fails chain running fails).stepsOn_eq, Option.map_some]

/-- **A run without a budget never ends exactly when every number of steps completes** and
leaves a running machine. -/
theorem run_eq_none_iff :
    run m = none ↔ ∀ k, ∃ m', Steps k m m' ∧ m'.state = .running := by
  unfold run
  rw [Option.map_eq_none_iff]
  constructor
  · intro never k
    rcases steps_taken_or_fail k m with ⟨l, m', -, chain, stop⟩ |
      ⟨l, m₁, e, m', -, chain, running, fails⟩
    · cases state : m'.state with
      | halted => cases never.symm.trans (Ends.halts chain state).stepsOn_eq
      | running =>
          rcases stop with rfl | halted
          · exact ⟨m', chain, state⟩
          · cases state.symm.trans halted
    · cases never.symm.trans (Ends.fails chain running fails).stepsOn_eq
  · intro goesOn
    refine Option.eq_none_iff_forall_ne_some.2 fun r result => ?_
    cases ends_of_stepsOn result with
    | @halts k m' chain halted =>
        obtain ⟨m'', chain', running⟩ := goesOn k
        cases chain.unique chain'
        cases running.symm.trans halted
    | @fails k e m₁ m' chain running fails =>
        -- one step more than the run has taken would be the one that fails
        obtain ⟨m'', chain', -⟩ := goesOn (k + 1)
        obtain ⟨m₂, left, right⟩ := chain'.split
        cases chain.unique left
        cases right with
        | succ first _ => cases first.symm.trans fails

end MixMachine.Machine
