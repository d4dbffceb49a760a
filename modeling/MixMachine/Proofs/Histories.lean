import MixMachine.Proofs.Rules

/-!
# Histories of attempts

A step and the execution of a word are attempts: each completes one instruction or fails.
A series of attempts goes on behind a failure. Its history is the list of the instructions
that completed, each with the machine that executed it; a failed attempt is not in it, and
changes at most a device whose hook failed.

What a flag or a device holds is told by the history. `NoneSince R history x` is what such
statements are made of: `x` has happened, and nothing with the property `R` since then.

* `noneSince_append_singleton_iff`, `latched_append_singleton_iff`: what one more event
  makes of it.
* `Machine.Attempt.completes_or_fails`: an attempt follows the rules of completion and
  failure.
* `Machine.history_induction`: what completions and failures keep holds of every series of
  attempts and its history.
-/

namespace MixMachine

/-! ## Since an event -/

section Since

variable {α : Type} {R : α → Prop} {history : List α} {x y : α}

/-- The event `x` has happened, and no event with the property `R` has happened since. -/
def NoneSince (R : α → Prop) (history : List α) (x : α) : Prop :=
  ∃ before after, history = before ++ x :: after ∧ ∀ y ∈ after, ¬ R y

theorem not_noneSince_nil : ¬ NoneSince R [] x := by
  rintro ⟨before, after, parted, -⟩
  cases before <;> cases parted

/-- The latest event is `x`, or `x` has happened before and the latest event is none of
those excluded. -/
theorem noneSince_append_singleton_iff :
    NoneSince R (history ++ [y]) x ↔ x = y ∨ NoneSince R history x ∧ ¬ R y := by
  constructor
  · rintro ⟨before, after, parted, none⟩
    rcases List.eq_nil_or_concat after with rfl | ⟨front, last, rfl⟩
    · obtain ⟨-, latest⟩ := List.append_inj' parted rfl
      exact Or.inl (List.singleton_inj.1 latest).symm
    · rw [List.concat_eq_append] at parted none
      have whole : history ++ [y] = (before ++ x :: front) ++ [last] := by
        rw [parted, List.append_assoc, List.cons_append]
      obtain ⟨earlier, latest⟩ := List.append_inj' whole rfl
      cases List.singleton_inj.1 latest
      obtain ⟨rest, allowed⟩ := List.forall_mem_append.1 none
      exact Or.inr ⟨⟨before, front, earlier, rest⟩, allowed y (List.mem_singleton.2 rfl)⟩
  · rintro (rfl | ⟨⟨before, after, rfl, none⟩, allowed⟩)
    · exact ⟨history, [], rfl, fun y member => absurd member List.not_mem_nil⟩
    · refine ⟨before, after ++ [y], by simp, ?_⟩
      intro z member
      rcases List.mem_append.1 member with earlier | last
      · exact none z earlier
      · cases List.mem_singleton.1 last
        exact allowed

/-- What some event has turned on, or was on before the history, and `R` turns off: it is
on behind one more event that turns it on, and behind one that does not turn it off. -/
theorem latched_append_singleton_iff {Q : α → Prop} {p : Prop} :
    (∃ x, NoneSince R (history ++ [y]) x ∧ Q x) ∨ p ∧ (∀ x ∈ history ++ [y], ¬ R x) ↔
      Q y ∨ ¬ R y ∧ ((∃ x, NoneSince R history x ∧ Q x) ∨ p ∧ ∀ x ∈ history, ¬ R x) := by
  simp only [noneSince_append_singleton_iff, List.forall_mem_append, List.forall_mem_singleton]
  constructor
  · rintro (⟨x, rfl | ⟨since, allowed⟩, on⟩ | ⟨on, none, allowed⟩)
    · exact Or.inl on
    · exact Or.inr ⟨allowed, Or.inl ⟨x, since, on⟩⟩
    · exact Or.inr ⟨allowed, Or.inr ⟨on, none⟩⟩
  · rintro (on | ⟨allowed, ⟨x, since, on⟩ | ⟨on, none⟩⟩)
    · exact Or.inl ⟨y, Or.inl rfl, on⟩
    · exact Or.inl ⟨x, Or.inr ⟨since, allowed⟩, on⟩
    · exact Or.inr ⟨on, none, allowed⟩

end Since

namespace Machine

variable {δ : Type}

/-! ## Attempts -/

/-- A call that executes one instruction or fails. -/
inductive Attempt where
  /-- Executes the instruction at the program counter. -/
  | step
  /-- Executes a word as if it stood there. -/
  | word (w : Word)

/-- An instruction that completed, and the machine that executed it, as it was before. -/
structure Completion (δ : Type) where
  machine : Machine δ
  instruction : Instruction

namespace Completion

/-- The effective address, as a number. -/
def address (c : Completion δ) : Int :=
  (c.machine.effectiveAddress c.instruction).value

/-- The number in a field of the cell at the effective address. -/
def operand (c : Completion δ) (f : Field) : Int :=
  (f.extract (c.machine.memory.cell c.address.toNat)).value

theorem operand_of_index {c : Completion δ} {a : Nat} (cell : Memory.index c.address = .ok a)
    (f : Field) : c.operand f = (f.extract (c.machine.memory.cell a)).value := by
  obtain ⟨number, -⟩ := Memory.index_eq_ok_iff.1 cell
  rw [operand, number, Int.toNat_natCast]

end Completion

/-- The word whose instruction an attempt executes. -/
def Attempt.fetch (m : Machine δ) : Attempt → Word
  | step => m.memory.cell m.registers.pc
  | word w => w

/-- The attempt fetches an instruction with this operation and this effective address. -/
def Attempt.FetchesAt (a : Attempt) (m : Machine δ) (op : Operation) (address : Int) : Prop :=
  ∃ i, Instruction.decode (a.fetch m) = .ok i ∧ i.operation = op ∧
    (m.effectiveAddress i).value = address

variable [Device δ]

/-- Makes an attempt. -/
def Attempt.exec : Attempt → Exec δ RunState
  | step => Machine.step
  | word w => executeWord w

/-- The completion of an attempt, unless it fails. -/
def Attempt.completion? (a : Attempt) (m : Machine δ) : Option (Completion δ) :=
  match a.exec m, Instruction.decode (a.fetch m) with
  | .ok _ _, .ok i => some ⟨m, i⟩
  | _, _ => none

/-- The machine behind a series of attempts, whatever they answer. -/
def afterAll (m : Machine δ) : List Attempt → Machine δ
  | [] => m
  | a :: attempts => (a.exec.after m).afterAll attempts

/-- The instructions that a series of attempts completes, in order. -/
def completions (m : Machine δ) : List Attempt → List (Completion δ)
  | [] => []
  | a :: attempts => (a.completion? m).toList ++ (a.exec.after m).completions attempts

/-! ## One attempt -/

variable {m m' : Machine δ}

/-- An attempt that fails leaves the machine as it was or follows a rule of failure. -/
theorem Attempt.fails_of_error {a : Attempt} {e : Fault} (run : a.exec m = .error e m') :
    m' = m ∨ ∃ ea op, Fails m ea op e m' := by
  have rejected : ∀ {w}, Rejects m w e m' → m' = m ∨ ∃ ea op, Fails m ea op e m' := by
    intro w rejects
    cases rejects with
    | instruction _ _ _ fails => exact Or.inr ⟨_, _, fails⟩
    | _ => exact Or.inl rfl
  cases a with
  | word w => exact rejected (executeWord_eq_error_iff.1 run)
  | step =>
      by_cases inside : m.registers.pc < memorySize
      · exact rejected (executeWord_eq_error_iff.1 ((step_eq_executeWord inside).symm.trans run))
      · by_cases running : m.state = .running
        · cases run.symm.trans (step_outside running (Nat.not_lt.1 inside))
          exact Or.inl rfl
        · cases run.symm.trans (step_of_not_running running)
          exact Or.inl rfl

/-- An attempt that answers performs the instruction that it fetched. -/
theorem Attempt.performs_of_ok {a : Attempt} {s : RunState} (run : a.exec m = .ok s m') :
    m.state = .running ∧ s = m'.state ∧
      ∃ i, Instruction.decode (a.fetch m) = .ok i ∧ Performs m i m' := by
  cases a with
  | word w => exact executeWord_eq_ok_iff.1 run
  | step => exact performs_of_step run

/-- **An attempt answers exactly by the rules of completion**: the machine runs, and it
performs the instruction that the attempt fetches. -/
theorem Attempt.exec_eq_ok_iff {a : Attempt} {s : RunState} :
    a.exec m = .ok s m' ↔
      m.state = .running ∧ s = m'.state ∧
        ∃ i, Instruction.decode (a.fetch m) = .ok i ∧ Performs m i m' := by
  constructor
  · exact performs_of_ok
  · rintro ⟨running, rfl, i, decoded, performs⟩
    cases a with
    | word w => exact performs.executeWord running decoded
    | step => exact performs.step running decoded

/-- An attempt completes the instruction that it fetches when a rule of completion applies. -/
theorem Completes.exec {a : Attempt} {i : Instruction} {flow : Flow}
    (completes : Completes m (m.effectiveAddress i) i.operation flow m')
    (running : m.state = .running) (inside : m.registers.pc < memorySize)
    (decoded : Instruction.decode (a.fetch m) = .ok i) {s : RunState} (left : m'.state = s) :
    a.exec m = .ok s (retire i m.registers.pc flow m') :=
  Attempt.exec_eq_ok_iff.2 ⟨running, left.symm, i, decoded, .intro inside completes⟩

/-- An attempt that answers has performed the instruction that it fetched, whichever this is
known to be. -/
theorem Attempt.performs_fetched {a : Attempt} {i : Instruction} {s : RunState}
    (run : a.exec m = .ok s m') (decoded : Instruction.decode (a.fetch m) = .ok i) :
    m.state = .running ∧ s = m'.state ∧ Performs m i m' := by
  obtain ⟨running, state, j, decoded', performs⟩ := performs_of_ok run
  cases decoded'.symm.trans decoded
  exact ⟨running, state, performs⟩

/-- It has completed it by a rule. -/
theorem Attempt.completes_fetched {a : Attempt} {i : Instruction} {s : RunState}
    (run : a.exec m = .ok s m') (decoded : Instruction.decode (a.fetch m) = .ok i) :
    ∃ flow done, Completes m (m.effectiveAddress i) i.operation flow done ∧
      s = done.state ∧ m' = retire i m.registers.pc flow done := by
  obtain ⟨-, state, performs⟩ := performs_fetched run decoded
  cases performs with
  | intro inside completes => exact ⟨_, _, completes, state, rfl⟩

/-- An attempt answers when the machine runs at a cell and a rule completes the instruction that
it fetches, and never else. -/
theorem Attempt.exists_ok_iff {a : Attempt} {i : Instruction}
    (decoded : Instruction.decode (a.fetch m) = .ok i) :
    (∃ s m', a.exec m = .ok s m') ↔
      m.state = .running ∧ m.registers.pc ≤ 3999 ∧
        ∃ flow m', Completes m (m.effectiveAddress i) i.operation flow m' := by
  constructor
  · rintro ⟨s, m', run⟩
    obtain ⟨running, -, performs⟩ := performs_fetched run decoded
    cases performs with
    | intro inside completes => exact ⟨running, Nat.le_of_lt_succ inside, _, _, completes⟩
  · rintro ⟨running, inside, flow, m', completes⟩
    exact ⟨_, _, completes.exec running (Nat.lt_succ_of_le inside) decoded rfl⟩

/-- **An attempt completes an instruction or fails.** -/
theorem Attempt.completes_or_fails (a : Attempt) (m : Machine δ) :
    (∃ i, a.completion? m = some ⟨m, i⟩ ∧ Performs m i (a.exec.after m)) ∨
      a.completion? m = none ∧
        (a.exec.after m = m ∨ ∃ ea op e, Fails m ea op e (a.exec.after m)) := by
  unfold completion?
  cases run : a.exec m with
  | ok s m' =>
      obtain ⟨-, -, i, decoded, performs⟩ := performs_of_ok run
      rw [decoded, Exec.after_ok run]
      exact Or.inl ⟨i, rfl, performs⟩
  | error e m' =>
      rw [Exec.after_error run]
      refine Or.inr ⟨rfl, ?_⟩
      rcases fails_of_error run with same | ⟨ea, op, fails⟩
      · exact Or.inl same
      · exact Or.inr ⟨ea, op, e, fails⟩

/-- What a completion tells: which machine has performed its instruction. -/
theorem Attempt.performs_of_completion? {a : Attempt} {c : Completion δ}
    (completion : a.completion? m = some c) :
    c.machine = m ∧ Performs m c.instruction (a.exec.after m) := by
  rcases a.completes_or_fails m with ⟨i, completed, performs⟩ | ⟨none, -⟩
  · cases completion.symm.trans completed
    exact ⟨rfl, performs⟩
  · cases completion.symm.trans none

/-! ## A series of attempts -/

/-- What holds of a machine at the start of its history, and is kept by every completion
and every failure, holds behind every series of attempts. -/
theorem history_induction {P : List (Completion δ) → Machine δ → Prop}
    (completed : ∀ {events m i m'}, P events m → Performs m i m' → P (events ++ [⟨m, i⟩]) m')
    (failed : ∀ {events m ea op e m'}, P events m → Fails m ea op e m' → P events m')
    (start : P [] m) (attempts : List Attempt) :
    P (m.completions attempts) (m.afterAll attempts) := by
  -- the first attempts move from the series to the history
  suffices onwards : ∀ events, P events m →
      P (events ++ m.completions attempts) (m.afterAll attempts) by
    exact onwards [] start
  clear start
  induction attempts generalizing m with
  | nil =>
      intro events before
      rw [completions, List.append_nil]
      exact before
  | cons a attempts ih =>
      intro events before
      rw [completions, afterAll, ← List.append_assoc]
      apply ih
      rcases a.completes_or_fails m with ⟨i, completion, performs⟩ | ⟨none, left⟩
      · rw [completion]
        exact completed before performs
      · rw [none, Option.toList_none, List.append_nil]
        rcases left with same | ⟨ea, op, e, fails⟩
        · rw [same]
          exact before
        · exact failed before fails

end Machine

end MixMachine
