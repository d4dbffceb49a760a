import MixMachine.CommandLine
import MixMachine.Proofs.Disassembly
import MixMachine.Proofs.Histories
import MixMachine.Proofs.Messages
import MixMachine.Proofs.WordText

/-!
# What the run command prints

The command prints a line for each instruction that it traces, a summary of the machine behind
a run, and a complaint when a step fails. This module says what these texts are made of and
what they tell: the address in front of a trace, everything that a summary shows of the
machine, and the fault and the address in a complaint can be read off them.

* `Command.lines_traceText`: the trace has one line for each instruction.
* `Command.summary_eq`: a summary is a list of entries, and a notice behind it.
* `Command.alike_of_summary_eq`: a summary determines the machine as far as it shows it.
* `Command.complaint_injective`: a complaint determines the fault and the address.
-/

namespace MixMachine

namespace Command

open Machine

/-! ## The trace -/

/-- The trace of an instruction: the address it was fetched from, the instruction, and the
numbers that it left in A, X and J. -/
def traced (c : Completion Buffer) : String :=
  let rs := (step.after c.machine).registers
  Decimal.padded 4 c.machine.registers.pc ++ ": " ++ padRight 24 c.instruction.text ++
    " A=" ++ Decimal.integer rs.a.value ++ " X=" ++ Decimal.integer rs.x.value ++
    " J=" ++ Decimal.integer rs.j.value

/-- The trace of instructions, a line for each. -/
def traceText (trace : Bool) (cs : List (Completion Buffer)) : String :=
  if trace then String.join (cs.map fun c => traced c ++ "\n") else ""

variable {m m' : Machine Buffer} {s : RunState} {i : Instruction}

theorem traceLine_eq (run : step m = .ok s m') (performs : Performs m i m') :
    traceLine m.registers.pc m' = traced ⟨m, i⟩ ++ "\n" := by
  have last : m'.last = some i := by cases performs; rfl
  unfold traceLine traced
  rw [last, Exec.after_ok run]
  have a : " A=" = " " ++ "A=" := by decide
  have j : " J=" = " " ++ "J=" := by decide
  rw [a, j]
  simp only [String.append_assoc]
  rfl

/-- A trace tells the address that its instruction was fetched from. -/
theorem pc_eq_of_traced_eq {c d : Completion Buffer} (same : traced c = traced d) :
    c.machine.registers.pc = d.machine.registers.pc := by
  have address : ∀ n, ':' ∉ (Decimal.padded 4 n).toList := fun n =>
    Decimal.notMem_of_natural? (Decimal.natural?_padded 4 n) rfl
  have colon : ": ".toList = [':', ' '] := by decide
  unfold traced at same
  rw [← String.toList_inj] at same
  simp only [String.toList_append, List.append_assoc, colon, List.cons_append] at same
  obtain ⟨front, -⟩ := Text.append_cons_inj (address _) (address _) same
  have read := Decimal.natural?_padded 4 c.machine.registers.pc
  rw [front, Decimal.natural?_padded] at read
  exact (Option.some.inj read).symm

theorem notMem_integer (v : Int) : '\n' ∉ (Decimal.integer v).toList := by
  have digits : '\n' ∉ Decimal.digits v.natAbs :=
    Decimal.notMem_of_natural? (Decimal.natural?_digits _) rfl
  rw [Decimal.toList_integer]
  split
  · exact List.not_mem_cons_of_ne_of_not_mem (by decide) digits
  · exact digits

theorem notMem_traced {c : Completion Buffer} (coded : c.instruction.operation.code? ≠ none) :
    '\n' ∉ (traced c).toList := by
  have address : '\n' ∉ (Decimal.padded 4 c.machine.registers.pc).toList :=
    Decimal.notMem_of_natural? (Decimal.natural?_padded 4 _) rfl
  have text : '\n' ∉ (padRight 24 c.instruction.text).toList := by
    refine notMem_padRight (fun member => ?_) (by decide)
    exact absurd (Instruction.notates_of_mem_text coded _ member) (by decide)
  have words : '\n' ∉ ": ".toList ∧ '\n' ∉ " A=".toList ∧ '\n' ∉ " X=".toList ∧
      '\n' ∉ " J=".toList := by decide
  unfold traced
  simp only [String.toList_append, List.mem_append, address, text, words, notMem_integer,
    or_self, not_false_eq_true]

/-- **The trace has one line for each instruction**, in their order. -/
theorem lines_traceText {cs : List (Completion Buffer)}
    (coded : ∀ c ∈ cs, c.instruction.operation.code? ≠ none) :
    Text.lines (traceText true cs).toList = cs.map fun c => (traced c).toList := by
  unfold traceText
  rw [if_pos rfl]
  exact Text.lines_join (fun _ => String.toList_append) fun c listed =>
    notMem_traced (coded c listed)

/-! ## The summary -/

/-- A register with its word and its number. -/
def held (rs : Registers) (r : Register) : String × String :=
  (r.text, (rs.get r).text ++ " (" ++ Decimal.integer (rs.get r).value ++ ")")

/-- What a summary shows of a machine, line by line: what it is and its value. -/
def shown (k : Nat) (m : Machine Buffer) : List (String × String) :=
  [("Steps", Decimal.natural k), ("Time", Decimal.natural m.clock ++ "u"),
    ("State", Variants.name m.state), ("PC", Decimal.natural m.registers.pc)] ++
  (Variants.all : List Register).map (held m.registers) ++
  [("Overflow", toString m.registers.overflow),
    ("Comparison", Registers.comparisonRecord m.registers.comparison)]

/-- A line of a summary. -/
def entry (e : String × String) : String :=
  padRight 11 (e.1 ++ ":") ++ " " ++ e.2 ++ "\n"

/-- What stands behind the summary of a machine that is still running. -/
def notice (maxSteps : Nat) : String :=
  "\nReached step limit (" ++ Decimal.natural maxSteps ++ "). Use --max-steps to increase.\n"

theorem registerLine_eq (rs : Registers) (r : Register) :
    registerLine rs r = entry (held rs r) := by
  have opening : " (" = " " ++ "(" := by decide
  have closing : ")\n" = ")" ++ "\n" := by decide
  show padRight 11 (r.text ++ ":") ++
    (" " ++ (rs.get r).text ++ " (" ++ Decimal.integer (rs.get r).value ++ ")\n") = _
  unfold entry held
  rw [closing]
  simp only [String.append_assoc]

theorem summary_eq (m : Machine Buffer) (k maxSteps : Nat) :
    summary m k maxSteps =
      "\n" ++ String.join ((shown k m).map entry) ++
        if m.state = .running then notice maxSteps else "" := by
  have steps : "\nSteps:      " = "\n" ++ (padRight 11 ("Steps" ++ ":") ++ " ") := by decide
  have time : "Time:       " = padRight 11 ("Time" ++ ":") ++ " " := by decide
  have unit : "u\n" = "u" ++ "\n" := by decide
  have state : "State:      " = padRight 11 ("State" ++ ":") ++ " " := by decide
  have pc : "PC:         " = padRight 11 ("PC" ++ ":") ++ " " := by decide
  have overflow : "Overflow:   " = padRight 11 ("Overflow" ++ ":") ++ " " := by decide
  have comparison : "Comparison: " = padRight 11 ("Comparison" ++ ":") ++ " " := by decide
  have registers : (Register.operands ++ [Register.j]).map (registerLine m.registers) =
      (Variants.all : List Register).map (entry ∘ held m.registers) :=
    List.map_congr_left fun r _ => registerLine_eq m.registers r
  show "\nSteps:      " ++ Decimal.natural k ++ "\n" ++
      ("Time:       " ++ Decimal.natural m.clock ++ "u\n") ++
      ("State:      " ++ Variants.name m.state ++ "\n") ++
      ("PC:         " ++ Decimal.natural m.registers.pc ++ "\n") ++
      String.join ((Register.operands ++ [Register.j]).map (registerLine m.registers)) ++
      ("Overflow:   " ++ toString m.registers.overflow ++ "\n") ++
      ("Comparison: " ++ Registers.comparisonRecord m.registers.comparison ++ "\n") ++
      (if m.state = .running then notice maxSteps else "") = _
  rw [steps, time, unit, state, pc, overflow, comparison, registers]
  simp only [shown, entry, Function.comp_def, List.map_append, List.map_cons, List.map_nil,
    List.map_map, String.join_append, String.join_cons, String.join_nil, String.append_assoc,
    String.append_empty]

/-! ## What a summary tells -/

/-- A line of a summary without its end. -/
def entryLine (e : String × String) : List Char :=
  (padRight 11 (e.1 ++ ":") ++ " " ++ e.2).toList

theorem notMem_entryLine {label value : String} (inLabel : '\n' ∉ label.toList)
    (inValue : '\n' ∉ value.toList) : '\n' ∉ entryLine (label, value) := by
  have front : '\n' ∉ (padRight 11 (label ++ ":")).toList := by
    refine notMem_padRight ?_ (by decide)
    rw [String.toList_append, List.mem_append]
    exact not_or.2 ⟨inLabel, by decide⟩
  have blank : '\n' ∉ " ".toList := by decide
  unfold entryLine
  simp only [String.toList_append, List.mem_append, front, blank, inValue, or_self,
    not_false_eq_true]

theorem notMem_natural (n : Nat) : '\n' ∉ (Decimal.natural n).toList := by
  rw [Decimal.toList_natural]
  exact Decimal.notMem_of_natural? (Decimal.natural?_digits n) rfl

theorem notMem_held (rs : Registers) {r : Register} (listed : r ∈ (Variants.all : List Register)) :
    '\n' ∉ entryLine (held rs r) := by
  have labels : ∀ r ∈ (Variants.all : List Register), '\n' ∉ r.text.toList := by decide
  have word : '\n' ∉ (rs.get r).text.toList := (rs.get r).notMem_text rfl (by decide) rfl
  have parentheses : '\n' ∉ " (".toList ∧ '\n' ∉ ")".toList := by decide
  refine notMem_entryLine (labels r listed) ?_
  simp only [String.toList_append, List.mem_append, word, parentheses, notMem_integer, or_self,
    not_false_eq_true]

theorem notMem_shown (k : Nat) (m : Machine Buffer) : ∀ e ∈ shown k m, '\n' ∉ entryLine e := by
  have time : '\n' ∉ (Decimal.natural m.clock ++ "u").toList := by
    rw [String.toList_append, List.mem_append]
    exact not_or.2 ⟨notMem_natural m.clock, by decide⟩
  have state : '\n' ∉ (Variants.name m.state).toList := by
    cases m.state <;> decide
  have toggle : '\n' ∉ (toString m.registers.overflow).toList := by
    cases m.registers.overflow <;> decide
  have indicator : '\n' ∉ (Registers.comparisonRecord m.registers.comparison).toList := by
    rcases m.registers.comparison with _ | (_ | _ | _) <;> decide
  unfold shown
  simp only [List.forall_mem_append, List.forall_mem_cons, List.forall_mem_map]
  refine ⟨⟨⟨notMem_entryLine (by decide) (notMem_natural k), notMem_entryLine (by decide) time,
    notMem_entryLine (by decide) state, notMem_entryLine (by decide) (notMem_natural _), ?_⟩,
    fun r listed => notMem_held m.registers listed⟩,
    notMem_entryLine (by decide) toggle, notMem_entryLine (by decide) indicator, ?_⟩
  · exact fun e member => absurd member List.not_mem_nil
  · exact fun e member => absurd member List.not_mem_nil

/-- **A summary has one line for each of its entries**, in their order. -/
theorem lines_summary (k : Nat) (m : Machine Buffer) :
    Text.lines (String.join ((shown k m).map entry)).toList = (shown k m).map entryLine :=
  Text.lines_join (fun _ => String.toList_append) (notMem_shown k m)

/-- The labels of a summary are the same for every machine. -/
theorem labels_shown (k : Nat) (m : Machine Buffer) :
    (shown k m).map (·.1) =
      ["Steps", "Time", "State", "PC"] ++ (Variants.all : List Register).map Register.text ++
        ["Overflow", "Comparison"] := by
  unfold shown
  rw [List.map_append, List.map_append, List.map_map]
  rfl

/-- Entries with equal labels are told by their lines. -/
theorem eq_of_entryLines_eq {xs ys : List (String × String)}
    (labels : xs.map (·.1) = ys.map (·.1)) (lines : xs.map entryLine = ys.map entryLine) :
    xs = ys := by
  induction xs generalizing ys with
  | nil => exact (List.map_eq_nil_iff.1 labels.symm).symm
  | cons x xs ih =>
      cases ys with
      | nil => cases labels
      | cons y ys =>
          obtain ⟨label, labels⟩ := List.cons.inj labels
          obtain ⟨line, lines⟩ := List.cons.inj lines
          have value : x.2 = y.2 := by
            unfold entryLine at line
            rw [show x.1 = y.1 from label, String.toList_inj, String.append_right_inj] at line
            exact line
          rw [ih labels lines, Prod.ext label value]

/-- A register shows the word in it, bit 31 apart. -/
theorem canonical_eq_of_held_eq {rs rs' : Registers} {r : Register}
    (same : held rs r = held rs' r) : (rs.get r).canonical = (rs'.get r).canonical := by
  have word : ∀ w : Word, '(' ∉ w.text.toList ++ [' '] := by
    intro w
    rw [List.mem_append]
    exact not_or.2 ⟨w.notMem_text rfl (by decide) rfl, by decide⟩
  have opening : " (".toList = [' ', '('] := by decide
  have pieces : ∀ w t : String, (w ++ " (" ++ t ++ ")").toList =
      (w.toList ++ [' ']) ++ '(' :: (t ++ ")").toList := by
    intro w t
    simp only [String.toList_append, opening, List.append_assoc, List.cons_append, List.nil_append]
  have values : (held rs r).2.toList = (held rs' r).2.toList := by rw [same]
  unfold held at values
  rw [pieces, pieces] at values
  obtain ⟨texts, -⟩ := Text.append_cons_inj (word _) (word _) values
  exact Word.canonical_eq_of_text_eq (String.toList_inj.1 (List.append_cancel_right texts))

/-- What a summary shows is the same: the count of instructions, and the machine as far as it
is shown, which is in everything but memory, the devices, and bit 31 of the registers. -/
structure Alike (k : Nat) (m : Machine Buffer) (k' : Nat) (m' : Machine Buffer) : Prop where
  count : k = k'
  clock : m.clock = m'.clock
  state : m.state = m'.state
  pc : m.registers.pc = m'.registers.pc
  registers : ∀ r, (m.registers.get r).canonical = (m'.registers.get r).canonical
  overflow : m.registers.overflow = m'.registers.overflow
  comparison : m.registers.comparison = m'.registers.comparison

theorem alike_of_shown_eq {k k' : Nat} {m m' : Machine Buffer} (same : shown k m = shown k' m') :
    Alike k m k' m' := by
  unfold shown at same
  obtain ⟨front, back⟩ := List.append_inj same (by
    simp only [List.length_append, List.length_map, List.length_cons])
  obtain ⟨first, registers⟩ := List.append_inj front (by simp only [List.length_cons])
  simp only [List.cons.injEq, Prod.mk.injEq, true_and, and_true] at first back
  obtain ⟨count, clock, state, pc⟩ := first
  obtain ⟨overflow, comparison⟩ := back
  have toggles : ∀ {a b : Bool}, toString a = toString b → a = b := by decide
  exact {
    count := Decimal.natural_injective count
    clock := Decimal.natural_injective ((String.append_left_inj _).1 clock)
    state := RunState.name_injective state
    pc := Decimal.natural_injective pc
    registers := fun r =>
      canonical_eq_of_held_eq (List.map_inj_left.1 registers r (Register.mem_all r))
    overflow := toggles overflow
    comparison := Registers.comparisonRecord_injective comparison }

/-- **A summary determines the machine as far as it shows it.** -/
theorem alike_of_summary_eq {k k' : Nat} {m m' : Machine Buffer}
    (same : String.join ((shown k m).map entry) = String.join ((shown k' m').map entry)) :
    Alike k m k' m' := by
  have lines := lines_summary k m
  rw [same, lines_summary] at lines
  have labels : (shown k m).map (·.1) = (shown k' m').map (·.1) := by
    rw [labels_shown, labels_shown]
  exact alike_of_shown_eq (eq_of_entryLines_eq labels lines.symm)

/-! ## The complaint -/

/-- What the command says of a step that failed, with the address of its instruction. -/
def complaint (pc : Nat) (e : Fault) : String :=
  "Machine error at PC=" ++ Decimal.natural pc ++ ": " ++ e.message ++ "\n"

/-- **A complaint determines the fault and the address.** -/
theorem complaint_injective {pc pc' : Nat} {e e' : Fault}
    (same : complaint pc e = complaint pc' e') : pc = pc' ∧ e = e' := by
  unfold complaint at same
  simp only [String.append_assoc, String.append_right_inj] at same
  obtain ⟨rfl, rest⟩ := Decimal.natural_append_inj
    (Decimal.endsNumeral_literal_append (by decide) _)
    (Decimal.endsNumeral_literal_append (by decide) _) same
  rw [String.append_right_inj, String.append_left_inj] at rest
  exact ⟨rfl, Fault.message_injective rest⟩

end Command

end MixMachine
