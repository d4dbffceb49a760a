import MixMachine.Proofs.EffectiveAddress
import MixMachine.Proofs.Encoding
import MixMachine.Proofs.Reachable

/-!
# Indexing can be compiled away

An instruction that names an index register works on the sum of its address part and that
register. The sum is exact, zero included: it is the word that an addition of the two would
give. Nothing else of the address part or of the index selector is ever looked at, so a word
whose address part is the sum and which names no index register does the same, as long as two
bytes hold the sum.

* `Registers.effectiveAddress_eq_add`: an indexed address is a sum of words.
* `Machine.Performs.of_same`, `Machine.Rejects.of_same`: what is executed is the effective
  address and the operation, and what is recorded is the instruction.
* `Instruction.decode_direct`: the word without an index.
* `Reached.indexing_dispensable`: both facts for every reached machine and every instruction.
-/

namespace MixMachine

/-! ## Indexed addresses -/

namespace Registers

variable {rs : Registers} {address : Word}

/-- **An indexed address is the sum of the address part and the index register**, bit for
bit. -/
theorem effectiveAddress_eq_add (rs : Registers) (address : Word) (r : Register) :
    rs.effectiveAddress address (some r) = (Word.add address (rs.get r)).1 := by
  have thirty : Word.maxMagnitude = 2 ^ 30 - 1 := rfl
  refine Word.Proper.ext (Word.proper_ofSignMagnitude _ _) (Word.proper_ofSignMagnitude _ _) ?_ ?_
  · rw [effectiveAddress, Word.add, Word.addUpTo, Word.sign_ofSignMagnitude,
      Word.sign_ofSignMagnitude]
  · rw [effectiveAddress, Word.add, Word.addUpTo, thirty, Nat.and_two_pow_sub_one_eq_mod,
      Word.magnitude_ofSignMagnitude, Word.magnitude_ofSignMagnitude]
    exact (Nat.mod_mod _ _).symm

theorem proper_effectiveAddress (proper : address.Proper) (r? : Option Register) :
    (rs.effectiveAddress address r?).Proper := by
  cases r? with
  | none => exact proper
  | some r => exact Word.proper_ofSignMagnitude _ _

/-- An address part of two bytes and a half register add up to less than three bytes. -/
theorem magnitude_effectiveAddress_le (fit : rs.Fit) (short : address.magnitude < 0x1000)
    {r? : Option Register} (half : ∀ r ∈ r?, r.width = .half) :
    (rs.effectiveAddress address r?).magnitude ≤ 8190 := by
  cases r? with
  | none =>
      show address.magnitude ≤ 8190
      omega
  | some r =>
      have index : (rs.get r).magnitude < 0x1000 := by
        have := (fit r).short
        rwa [half r rfl] at this
      have exact := value_effectiveAddress short (fit r) (half r rfl)
      have hAddress := address.natAbs_value
      have hIndex := (rs.get r).natAbs_value
      rw [← Word.natAbs_value, exact]
      omega

/-- An effective address that is zero has the sign of the address part. -/
theorem sign_effectiveAddress_of_zero (fit : rs.Fit) (short : address.magnitude < 0x1000)
    {r? : Option Register} (half : ∀ r ∈ r?, r.width = .half)
    (zero : (rs.effectiveAddress address r?).value = 0) :
    (rs.effectiveAddress address r?).sign = address.sign := by
  cases r? with
  | none => rfl
  | some r =>
      rw [value_effectiveAddress short (fit r) (half r rfl)] at zero
      rw [effectiveAddress, Word.sign_ofSignMagnitude, if_pos zero]

end Registers

/-! ## Words without an index -/

namespace Instruction

variable {w ea : Word} {i : Instruction}

/-- The word with `ea` in place of its address part and no index. -/
def direct (ea w : Word) : Word :=
  pack ea 0 (w.byte 4) (w.byte 5)

/-- The other two bytes of a word stay. -/
theorem bytes_direct (ea w : Word) :
    (direct ea w).bytes = [ea.byte 4, ea.byte 5, 0, w.byte 4, w.byte 5] := by
  have high : ea.byte 4 = ea.magnitude / 64 % 64 := rfl
  have low : ea.byte 5 = ea.magnitude / 1 % 64 := rfl
  rw [Nat.div_one] at low
  have fit : ∀ b ∈ [ea.byte 4, ea.byte 5, 0, w.byte 4, w.byte 5], b < 64 := by
    simp only [List.forall_mem_cons, Word.byte_lt, Nat.zero_lt_succ, List.not_mem_nil,
      false_implies, implies_true, and_self]
  rw [direct, pack, ← high, ← low]
  exact Word.bytes_ofBytes _ rfl fit

/-- A word without an index holds its address part as it is, and the same operation. -/
theorem decode_direct (decoded : decode w = .ok i) (proper : ea.Proper)
    (short : ea.magnitude < 0x1000) : decode (direct ea w) = .ok ⟨ea, 0, i.operation⟩ := by
  obtain ⟨-, -, -, operation⟩ := of_decode decoded
  rw [direct, decode_pack proper short (by decide) (w.byte_lt 4) (w.byte_lt 5), operation]
  rfl

end Instruction

namespace Machine

/-! ## What is executed of an instruction -/

variable {δ : Type} [Device δ] {m m' : Machine δ} {i j : Instruction} {w v : Word}

/-- **What is executed is the effective address and the operation.** Of two instructions with
the same, the one does what the other does, and only the record of it differs. -/
theorem Performs.of_same (h : Performs m i m')
    (address : m.effectiveAddress j = m.effectiveAddress i)
    (operation : j.operation = i.operation) :
    Performs m j { m' with last := some j } := by
  obtain ⟨inside, completes⟩ := h
  rw [← address, ← operation] at completes
  have performed := Performs.intro inside completes
  unfold retire at performed ⊢
  rwa [operation] at performed

/-- Two words with the same are rejected alike. -/
theorem Rejects.of_same {e : Fault} (h : Rejects m w e m')
    (decodedW : Instruction.decode w = .ok i) (decodedV : Instruction.decode v = .ok j)
    (address : m.effectiveAddress j = m.effectiveAddress i)
    (operation : j.operation = i.operation) : Rejects m v e m' := by
  cases h with
  | notRunning stopped => exact .notRunning stopped
  | decode running undecoded => cases decodedW.symm.trans undecoded
  | counter running decoded outside => exact .counter running decodedV outside
  | instruction running decoded inside fails =>
      cases decodedW.symm.trans decoded
      rw [← address, ← operation] at fails
      exact .instruction running decodedV inside fails

/-- The machine without the record of its last instruction. -/
def withoutLast (m : Machine δ) : Machine δ :=
  { m with last := none }

/-- Two words with the same effective address and the same operation are executed alike, the
record of the last instruction apart. -/
theorem executeWord_of_same (decodedW : Instruction.decode w = .ok i)
    (decodedV : Instruction.decode v = .ok j)
    (address : m.effectiveAddress j = m.effectiveAddress i)
    (operation : j.operation = i.operation) :
    (executeWord v).answer m = (executeWord w).answer m ∧
      ((executeWord v).after m).withoutLast = ((executeWord w).after m).withoutLast := by
  rcases performs_or_rejects m w with ⟨running, k, m', decoded, performs⟩ | ⟨e, m', rejects⟩
  · cases decodedW.symm.trans decoded
    have run := performs.executeWord running decodedW
    have same := (performs.of_same address operation).executeWord running decodedV
    rw [Exec.answer_ok run, Exec.answer_ok same, Exec.after_ok run, Exec.after_ok same]
    exact ⟨rfl, rfl⟩
  · have run := rejects.executeWord
    have same := (rejects.of_same decodedW decodedV address operation).executeWord
    rw [Exec.answer_error run, Exec.answer_error same, Exec.after_error run,
      Exec.after_error same]
    exact ⟨rfl, rfl⟩

end Machine

/-! ## Reached machines -/

namespace Reached

open Machine

variable {calls : List Call} {m : Machine Buffer} {w : Word} {i : Instruction}

/-- **Effective addresses are exact, and indexing can be compiled away.** In every reached
machine the effective address of an instruction is its address part, or the sum of that and
of the index register that it names: as a number without any loss, and as the word that an
addition gives. Its magnitude is at most 8190, and a zero has the sign of the address part.
Whenever two bytes hold it, the word with the effective address in its address part and
without an index is executed with the same answer and leaves the same machine, the record of
the last instruction apart. -/
theorem indexing_dispensable (reached : Reached calls m)
    (decoded : Instruction.decode w = .ok i) :
    i.index ≤ 6 ∧
    (i.index = 0 → m.effectiveAddress i = i.address) ∧
    (∀ k : Fin 6, i.index = k.val + 1 →
      (m.effectiveAddress i).value = i.address.value + (m.registers.get (.i k)).value ∧
      m.effectiveAddress i = (Word.add i.address (m.registers.get (.i k))).1) ∧
    (m.effectiveAddress i).magnitude ≤ 8190 ∧
    ((m.effectiveAddress i).value = 0 → (m.effectiveAddress i).sign = i.address.sign) ∧
    ((m.effectiveAddress i).magnitude ≤ 4095 →
      (Instruction.direct (m.effectiveAddress i) w).sign = (m.effectiveAddress i).sign ∧
      (Instruction.direct (m.effectiveAddress i) w).bytes =
        [(m.effectiveAddress i).byte 4, (m.effectiveAddress i).byte 5, 0, w.byte 4, w.byte 5] ∧
      (executeWord (Instruction.direct (m.effectiveAddress i) w)).answer m =
        (executeWord w).answer m ∧
      ((executeWord (Instruction.direct (m.effectiveAddress i) w)).after m).withoutLast =
        ((executeWord w).after m).withoutLast) := by
  have fit := reached.fit
  have short := Instruction.short_of_decode decoded
  obtain ⟨selector, address, index, -⟩ := Instruction.of_decode decoded
  have half : ∀ r ∈ i.indexRegister?, r.width = .half := fun r named =>
    Register.width_of_ofIndex? named
  rw [← index] at selector
  refine ⟨selector, ?_, ?_, Registers.magnitude_effectiveAddress_le fit short half,
    Registers.sign_effectiveAddress_of_zero fit short half, ?_⟩
  · intro unindexed
    have none : i.indexRegister? = none := by
      rw [Instruction.indexRegister?, unindexed]
      rfl
    rw [effectiveAddress, none]
    rfl
  · intro k indexed
    have named : i.indexRegister? = some (.i k) := by
      have range : 1 ≤ k.val + 1 ∧ k.val + 1 ≤ 6 := by omega
      rw [Instruction.indexRegister?, indexed, Register.ofIndex?, dif_pos range]
      rfl
    rw [effectiveAddress, named]
    exact ⟨Registers.value_effectiveAddress short (fit _) rfl,
      Registers.effectiveAddress_eq_add _ _ _⟩
  · intro two
    have proper : (m.effectiveAddress i).Proper := by
      refine Registers.proper_effectiveAddress ?_ _
      rw [address]
      exact Word.proper_ofSignMagnitude _ _
    have direct := Instruction.decode_direct decoded proper (Nat.lt_succ_of_le two)
    have same := executeWord_of_same decoded direct (m := m) rfl rfl
    exact ⟨Instruction.sign_pack _ _ _ _, Instruction.bytes_direct _ _, same⟩

/-- With 2000 in the first index register, the address -2000 indexed by it is negative zero,
and A is entered with it as by the word that names negative zero. -/
theorem indexing_dispensable_minus_zero :
    ∃ m m', Reached [.setRegister .i1 (Instruction.addressOf 2000)] m ∧
      executeWord (Instruction.assemble (-2000) 1 2 Opcode.transfer) m = .ok .running m' ∧
      m'.registers.a = Word.zero.negate ∧
      (executeWord (Instruction.pack Word.zero.negate 0 2 Opcode.transfer)).answer m =
        .ok .running ∧
      ((executeWord (Instruction.pack Word.zero.negate 0 2 Opcode.transfer)).after m).withoutLast =
        m'.withoutLast := by
  have reached : Reached [.setRegister .i1 (Instruction.addressOf 2000)] _ := .call _ .standard
  have decoded : Instruction.decode (Instruction.assemble (-2000) 1 2 Opcode.transfer) =
      .ok ⟨Instruction.addressOf (-2000), 1, .transfer .a .ent⟩ := rfl
  have inside : 0 < memorySize := by decide
  have run := (Performs.intro (m := (Call.setRegister .i1 (Instruction.addressOf 2000)).apply
    .standard) inside .transfer).executeWord rfl decoded
  obtain ⟨-, -, -, -, -, direct⟩ := indexing_dispensable reached decoded
  obtain ⟨-, -, answer, after⟩ := direct (by decide)
  rw [Exec.answer_ok run] at answer
  rw [Exec.after_ok run] at after
  exact ⟨_, _, reached, run, by decide, answer, after⟩

end Reached

end MixMachine
