import MixMachine.Proofs.Atomicity
import MixMachine.Proofs.Buffers
import MixMachine.Proofs.Opcodes
import MixMachine.Proofs.RegisterFile
import MixMachine.Proofs.Runs

/-!
# The machines that calls lead to

A user starts with the standard machine and makes calls: steps, runs, words to
execute, programs to load, registers to set, buffers to attach. `Call` lists the
calls and `Reached calls m` says that `calls` lead to the machine `m`. A call that
fails counts as well.

A predicate on machines holds along every such history when the few changes that
calls are made of keep it. `Machine.Kept` lists these changes, and `Kept.of_reached`
is the induction over the history, done once for all predicates. The predicates that
describe how a machine represents its state are then proved one by one.

* `Kept.of_reached`: what the changes keep holds of every reached machine.
* `Reached.fit`, `Reached.pc_le`, `Reached.j_le`, `Reached.holdsProper`: registers hold
  words of their width, the program counter stays in memory or just behind it, J is a
  return address unless it was set, and words stay proper.
* `Reached.representation`: these facts in terms of signs, magnitudes and bits.
-/

namespace MixMachine

/-! ## Calls -/

/-- A call of a machine whose devices are buffers. -/
inductive Call where
  | step
  | executeWord (w : Word)
  | runFor (budget : Nat)
  | setPc (pc : Nat)
  | loadWord (a : Nat) (w : Word)
  | loadImage (image : Image)
  | reset
  | setRegister (r : Register) (w : Word)
  | attach (unit : Nat) (b : Buffer)
  | detach (unit : Nat)

namespace Call

/-- What a call makes of a machine, whether it fails or not. -/
def apply (m : Machine Buffer) : Call → Machine Buffer
  | step => Machine.step.after m
  | executeWord w => (Machine.executeWord w).after m
  | runFor budget => (Machine.runFor budget).after m
  | setPc pc => (Machine.setPc pc).after m
  | loadWord a w => (Machine.loadWord a w).after m
  | loadImage image => (Machine.loadImage image).after m
  | reset => m.reset
  | setRegister r w => { m with registers := m.registers.set r w }
  | attach unit b => { m with devices := m.devices.attach unit b }
  | detach unit => { m with devices := m.devices.detach unit }

/-- Every word that a call brings into memory or into a buffer is proper. -/
def Proper : Call → Prop
  | loadWord _ w => w.Proper
  | loadImage image => ∀ c ∈ image.cells, c.2.Proper
  | attach _ b => b.Proper
  | _ => True

end Call

/-- The calls, the last one first, lead from the standard machine to this one. The
standard machine may have been started at an address. -/
inductive Reached : List Call → Machine Buffer → Prop
  | standard : Reached [] .standard
  | startingAt {pc : Nat} {m : Machine Buffer} :
    Machine.startingAt .standard pc = .ok m →
    Reached [] m
  | call {calls : List Call} {m : Machine Buffer} (c : Call) :
    Reached calls m →
    Reached (c :: calls) (c.apply m)

namespace Machine

/-! ## Histories -/

/-- The changes that calls are made of keep `P`. The calls may be restricted to those
that are `allowed`. -/
structure Kept (allowed : Call → Prop) (P : Machine Buffer → Prop) : Prop where
  standard : P .standard
  performs {m m' : Machine Buffer} {w : Word} {i : Instruction} :
    P m → Instruction.decode w = .ok i → Performs m i m' → P m'
  setPc {m : Machine Buffer} {pc : Nat} :
    P m → pc < memorySize → P { m with registers := { m.registers with pc } }
  loadWord {m : Machine Buffer} {a : Nat} {w : Word} :
    allowed (.loadWord a w) → P m → P { m with memory := m.memory.put a w }
  loadImage {m : Machine Buffer} {image : Image} :
    allowed (.loadImage image) → P m → image.start < memorySize →
    P { m with
        memory := m.memory.place image.cells
        registers := { m.registers with pc := image.start }
        state := .running }
  reset {m : Machine Buffer} : P m → P m.reset
  setRegister {m : Machine Buffer} {r : Register} {w : Word} :
    allowed (.setRegister r w) → P m → P { m with registers := m.registers.set r w }
  attach {m : Machine Buffer} {unit : Nat} {b : Buffer} :
    allowed (.attach unit b) → P m → P { m with devices := m.devices.attach unit b }
  detach {m : Machine Buffer} {unit : Nat} :
    P m → P { m with devices := m.devices.detach unit }

theorem setPc_of_startingAt {δ : Type} {ds : Devices δ} {pc : Nat} {m : Machine δ}
    (started : startingAt ds pc = .ok m) : setPc pc (initial ds) = .ok () m := by
  unfold startingAt at started
  cases run : setPc pc (initial ds) with
  | ok u m' =>
      rw [run] at started
      cases started
      rfl
  | error e m' =>
      rw [run] at started
      cases started

namespace Kept

variable {allowed : Call → Prop} {P : Machine Buffer → Prop} {m m' : Machine Buffer}

theorem of_step (kept : Kept allowed P) (h : P m) : P (step.after m) := by
  cases run : step m with
  | ok s m' =>
      obtain ⟨-, -, i, decoded, performs⟩ := performs_of_step run
      rw [Exec.after_ok run]
      exact kept.performs h decoded performs
  | error e m' =>
      rw [Exec.after_error run, step_error_of_buffers run]
      exact h

theorem of_executeWord (kept : Kept allowed P) (h : P m) (w : Word) :
    P ((executeWord w).after m) := by
  cases run : executeWord w m with
  | ok s m' =>
      obtain ⟨-, -, i, decoded, performs⟩ := executeWord_eq_ok_iff.1 run
      rw [Exec.after_ok run]
      exact kept.performs h decoded performs
  | error e m' =>
      rw [Exec.after_error run, executeWord_error_of_buffers run]
      exact h

theorem of_steps (kept : Kept allowed P) (h : P m) {k : Nat} (chain : Steps k m m') : P m' := by
  refine chain.preserves ?_ h
  intro s m m' first before
  have behind := kept.of_step before
  rw [Exec.after_ok first] at behind
  exact behind

/-- A run takes one step after the other, and its last one may fail. -/
theorem of_runFor (kept : Kept allowed P) (h : P m) (budget : Nat) :
    P ((runFor budget).after m) := by
  cases run : runFor budget m with
  | ok k m' =>
      obtain ⟨-, chain, -⟩ := runFor_eq_ok_iff.1 run
      rw [Exec.after_ok run]
      exact kept.of_steps h chain
  | error e m' =>
      obtain ⟨k, m₁, -, chain, -, fails⟩ := runFor_eq_error_iff.1 run
      rw [Exec.after_error run, step_error_of_buffers fails]
      exact kept.of_steps h chain

theorem of_setPc (kept : Kept allowed P) (h : P m) (pc : Nat) :
    P ((Machine.setPc pc).after m) := by
  by_cases inside : pc < memorySize
  · rw [Exec.after_ok (setPc_ok inside)]
    exact kept.setPc h inside
  · rw [Exec.after_error (setPc_error (Nat.not_lt.1 inside))]
    exact h

theorem of_loadWord (kept : Kept allowed P) (h : P m) {a : Nat} {w : Word}
    (permitted : allowed (.loadWord a w)) : P ((Machine.loadWord a w).after m) := by
  by_cases inside : a < memorySize
  · rw [Exec.after_ok (loadWord_ok inside w)]
    exact kept.loadWord permitted h
  · rw [Exec.after_error (loadWord_error (Nat.not_lt.1 inside) w)]
    exact h

theorem of_loadImage (kept : Kept allowed P) (h : P m) {image : Image}
    (permitted : allowed (.loadImage image)) : P ((Machine.loadImage image).after m) := by
  cases checked : image.firstOutside? with
  | some a =>
      rw [Exec.after_error (loadImage_error checked)]
      exact h
  | none =>
      have inside := image.firstOutside?_eq_none_iff.1 checked
      rw [Exec.after_ok (loadImage_ok inside)]
      exact kept.loadImage permitted h inside.1

theorem of_call (kept : Kept allowed P) (h : P m) {c : Call} (permitted : allowed c) :
    P (c.apply m) := by
  cases c with
  | step => exact kept.of_step h
  | executeWord w => exact kept.of_executeWord h w
  | runFor budget => exact kept.of_runFor h budget
  | setPc pc => exact kept.of_setPc h pc
  | loadWord a w => exact kept.of_loadWord h permitted
  | loadImage image => exact kept.of_loadImage h permitted
  | reset => exact kept.reset h
  | setRegister r w => exact kept.setRegister permitted h
  | attach unit b => exact kept.attach permitted h
  | detach unit => exact kept.detach h

/-- **What the changes keep holds of every reached machine.** -/
theorem of_reached (kept : Kept allowed P) {calls : List Call} (h : Reached calls m)
    (permitted : ∀ c ∈ calls, allowed c) : P m := by
  induction h with
  | standard => exact kept.standard
  | @startingAt pc m started =>
      have start := kept.of_setPc kept.standard pc
      have run : Machine.setPc pc Machine.standard = .ok () m := setPc_of_startingAt started
      rw [Exec.after_ok run] at start
      exact start
  | call c _ ih =>
      obtain ⟨last, before⟩ := List.forall_mem_cons.1 permitted
      exact kept.of_call (ih before) last

end Kept

end Machine

/-! ## How a reached machine represents its state -/

namespace Reached

open Machine

variable {calls : List Call} {m : Machine Buffer}

/-- **Every register of a reached machine holds a word of its own width.** -/
theorem fit (h : Reached calls m) : m.registers.Fit := by
  have kept : Kept (fun _ => True) fun m => m.registers.Fit := {
    standard := Registers.fit_initial
    performs := by
      rintro m m' w i before - ⟨-, completes⟩
      exact (before.writes completes.writes).withPc _
    setPc := fun before _ => before.withPc _
    loadWord := fun _ before => before
    loadImage := fun _ before _ => before.withPc _
    reset := fun _ => Registers.fit_initial
    setRegister := fun _ before => before.set _ _
    attach := fun _ before => before
    detach := fun before => before }
  exact kept.of_reached h fun _ _ => trivial

/-- **The program counter stays in memory or just behind it.** It leaves memory only
by the end: a jump goes to a cell. -/
theorem pc_le (h : Reached calls m) : m.registers.pc ≤ memorySize := by
  have kept : Kept (fun _ => True) fun m => m.registers.pc ≤ memorySize := {
    standard := Nat.zero_le _
    performs := by
      rintro m m' w i - - @⟨flow, m', inside, completes⟩
      show flow.following m.registers.pc ≤ memorySize
      cases flow with
      | next => exact inside
      | jump a => exact Nat.le_of_lt completes.target_lt
    setPc := fun _ inside => Nat.le_of_lt inside
    loadWord := fun _ before => before
    loadImage := fun _ _ inside => Nat.le_of_lt inside
    reset := fun _ => Nat.zero_le _
    setRegister := by
      intro m r w _ before
      rw [Registers.pc_set]
      exact before
    attach := fun _ before => before
    detach := fun before => before }
  exact kept.of_reached h fun _ _ => trivial

/-- **J holds at most the address behind memory, unless it was set**: an instruction
only ever puts the address behind itself there. -/
theorem j_le (h : Reached calls m) (unset : ∀ w, .setRegister .j w ∉ calls) :
    (m.registers.get .j).magnitude ≤ memorySize := by
  have kept : Kept (fun c => ∀ w, c ≠ .setRegister .j w)
      fun m => (m.registers.get .j).magnitude ≤ memorySize := {
    standard := by decide
    performs := by
      rintro m m' w i before decoded @⟨flow, m', inside, completes⟩
      have coded : i.operation.code? ≠ none := by
        rw [Instruction.code?_of_decode decoded]
        exact Option.some_ne_none _
      show (Registers.get { m'.registers with pc := _ } .j).magnitude ≤ memorySize
      rw [Registers.get_mk_flags]
      rcases completes.get_j coded inside with same | linked
      · rw [same]
        exact before
      · have size : memorySize = 4000 := rfl
        rw [linked, Word.magnitude_ofSignMagnitude]
        omega
    setPc := fun before _ => before
    loadWord := fun _ before => before
    loadImage := fun _ before _ => before
    reset := fun _ => by
      show Word.zero.magnitude ≤ memorySize
      decide
    setRegister := by
      intro m r w permitted before
      have other : .j ≠ r := fun same => permitted w (by rw [same])
      rw [Registers.get_set_of_ne _ other]
      exact before
    attach := fun _ before => before
    detach := fun before => before }
  refine kept.of_reached h ?_
  rintro c member w rfl
  exact unset w member

/-- **Proper words stay proper**: no machine makes an improper one. -/
theorem holdsProper (h : Reached calls m) (proper : ∀ c ∈ calls, c.Proper) :
    m.HoldsProper := by
  have kept : Kept Call.Proper HoldsProper := {
    standard := holdsProper_initial (Devices.all_ofList (by decide))
    performs := by
      rintro m m' w i before - ⟨-, completes⟩
      obtain ⟨memory, devices⟩ := completes.holdsProper before
      exact ⟨memory, devices⟩
    setPc := fun before _ => ⟨before.memory, before.devices⟩
    loadWord := fun word before => ⟨before.memory.put _ word, before.devices⟩
    loadImage := fun words before _ => ⟨before.memory.place words, before.devices⟩
    reset := fun before => holdsProper_initial before.devices
    setRegister := fun _ before => ⟨before.memory, before.devices⟩
    attach := fun block before => ⟨before.memory, before.devices.attach _ block⟩
    detach := fun before => ⟨before.memory, before.devices.detach _⟩ }
  exact kept.of_reached h proper

/-- **The representation of every reached machine.** Memory has 4000 cells, and the
program counter is at most 4000. An index register has a magnitude of two bytes, its
three high bytes zero. J has a plus sign and two bytes, and is at most 4000 when no
call set it. No register has bit 31, and no cell has it when no call brought in a word
that has. -/
theorem representation (h : Reached calls m) :
    m.memory.cells.toList.length = 4000 ∧
    m.registers.pc ≤ 4000 ∧
    (∀ k, (m.registers.get (.i k)).magnitude ≤ 4095 ∧
      ∀ b, 1 ≤ b → b ≤ 3 → (m.registers.get (.i k)).byte b = 0) ∧
    (m.registers.get .j).sign = .plus ∧
    (m.registers.get .j).magnitude ≤ 4095 ∧
    ((∀ w, .setRegister .j w ∉ calls) → (m.registers.get .j).magnitude ≤ 4000) ∧
    (∀ r, (m.registers.get r).bits.toNat < 0x80000000) ∧
    ((∀ c ∈ calls, c.Proper) →
      ∀ a, a < 4000 → (m.memory.cell a).bits.toNat < 0x80000000) := by
  have fit := h.fit
  refine ⟨m.memory.cells.length_toList, h.pc_le, ?_, ?_, ?_, h.j_le, ?_, ?_⟩
  · intro k
    refine ⟨Nat.le_of_lt_succ (fit (.i k)).short, ?_⟩
    intro b _ high
    exact (fit (.i k)).byte_eq_zero rfl high
  · exact (fit .j).unsigned rfl
  · exact Nat.le_of_lt_succ (fit .j).short
  · intro r
    exact (fit r).proper
  · intro proper a _
    exact (h.holdsProper proper).memory a

/-- Started at the last cell, with an index register set to a word wider than itself
that has bit 31, the machine takes one step. -/
theorem representation_behind_last_cell :
    ∃ m, Reached [.step, .setRegister .i1 ⟨0xC0001001⟩] m ∧
      m.registers.pc ≤ 4000 ∧
      (m.registers.get .i1).magnitude ≤ 4095 ∧
      (m.registers.get .i1).bits.toNat < 0x80000000 ∧
      (m.registers.get .j).magnitude ≤ 4000 ∧
      (m.memory.cell 3999).bits.toNat < 0x80000000 := by
  have started : Machine.startingAt .standard 3999 =
      .ok { Machine.standard with registers := { Registers.initial with pc := 3999 } } := rfl
  have reached := (Reached.startingAt started).call (.setRegister .i1 ⟨0xC0001001⟩)
    |>.call .step
  obtain ⟨-, pc, index, -, -, link, registers, cells⟩ := reached.representation
  have unset : ∀ w, Call.setRegister .j w ∉ [.step, .setRegister .i1 ⟨0xC0001001⟩] := by
    intro w member
    rcases List.mem_cons.1 member with step | member
    · cases step
    · cases List.mem_singleton.1 member
  have proper : ∀ c ∈ [Call.step, .setRegister .i1 ⟨0xC0001001⟩], c.Proper := by
    intro c member
    rcases List.mem_cons.1 member with rfl | member
    · trivial
    · cases List.mem_singleton.1 member
      trivial
  exact ⟨_, reached, pc, (index 0).1, registers .i1, link unset, cells proper 3999 (by decide)⟩

end Reached

end MixMachine
