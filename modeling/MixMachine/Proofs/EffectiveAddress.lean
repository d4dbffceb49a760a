import MixMachine.Proofs.Opcodes
import MixMachine.Proofs.RegisterFile
import MixMachine.Proofs.WordViews

/-!
# Effective addresses as numbers

The address part of an instruction has two bytes, and so has an index register of a
register file that fits. Their sum is far from thirty bits, so the effective address,
which is kept as a word, stands for the exact sum.

* `Registers.value_effectiveAddress`: an effective address is the exact sum.
* `Machine.value_effectiveAddress`: that of an instruction which was decoded.
* `Machine.Performs.effectiveAddress_eq`: the instructions that no effective address notices.
-/

namespace MixMachine

/-- Only a half register modifies an address. -/
theorem Register.width_of_ofIndex? {n : Nat} {r : Register} (h : ofIndex? n = some r) :
    r.width = .half := by
  unfold ofIndex? at h
  split at h
  · cases h
    rfl
  · cases h

/-- **An effective address is the exact sum** of the address part and the index
register. -/
theorem Registers.value_effectiveAddress {rs : Registers} {address : Word} {r : Register}
    (short : address.magnitude < 0x1000) (fits : r.Fits (rs.get r)) (half : r.width = .half) :
    (rs.effectiveAddress address (some r)).value = address.value + (rs.get r).value := by
  have index : (rs.get r).magnitude < 0x1000 := by
    have := fits.short
    rwa [half] at this
  have hAddress := address.natAbs_value
  have hIndex := (rs.get r).natAbs_value
  exact Word.value_of_natAbs (by omega) address.sign

namespace Machine

variable {δ : Type} {m : Machine δ}

/-- The effective address of an instruction as a number: the address part, and the
index register when it names one. -/
def exactAddress (m : Machine δ) (i : Instruction) : Int :=
  match i.indexRegister? with
  | none => i.address.value
  | some r => i.address.value + (m.registers.get r).value

/-- **The effective address of a decoded instruction is exact.** -/
theorem value_effectiveAddress {w : Word} {i : Instruction} (fit : m.registers.Fit)
    (decoded : Instruction.decode w = .ok i) :
    (m.effectiveAddress i).value = m.exactAddress i := by
  have short := Instruction.short_of_decode decoded
  unfold effectiveAddress exactAddress
  cases index : i.indexRegister? with
  | none => rfl
  | some r =>
      exact Registers.value_effectiveAddress short (fit r) (Register.width_of_ofIndex? index)

/-- **What writes whole registers only keeps every effective address**: these come from half
registers. -/
theorem Performs.effectiveAddress_eq [Device δ] {m' : Machine δ} {i : Instruction}
    (h : Performs m i m') (whole : ∀ r ∈ i.operation.targets, r.width = .full)
    (j : Instruction) : m'.effectiveAddress j = m.effectiveAddress j := by
  cases h with
  | intro inside completes =>
  unfold effectiveAddress retire
  cases index : j.indexRegister? with
  | none => rfl
  | some r =>
      have half := Register.width_of_ofIndex? index
      have kept := completes.writes.kept r fun written => by
        cases (whole r written).symm.trans half
      rw [Registers.effectiveAddress, Registers.effectiveAddress, Registers.get_mk_flags, kept]

end Machine

end MixMachine
