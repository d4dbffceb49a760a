import MixMachine.Proofs.Mnemonics
import MixMachine.Proofs.Numerals

/-!
# The assembly notation determines the instruction

The notation of an instruction drops what the reader can fill in: an index of 0, a field
that is the default of the opcode, a count or unit of 0. It still determines the
instruction. The mnemonic ends at the blank and names the outline of the operation, and
the outline fixes the opcode and so the default of the field; the address ends at the
first character that is neither a sign nor a digit, and the index at the parenthesis.

* `Operation.code?_eq_of_modifierText`: an outline and what stands in parentheses.
* `Instruction.parts_of_text`: the parts of the notation determine those of the instruction.
* `Instruction.disassemble_faithful`: the notation determines the word.
* `Instruction.notates_of_mem_text`: the characters of the notation.
-/

namespace MixMachine

/-! ## What stands in parentheses -/

theorem Field.toList_text (f : Field) :
    f.text.toList =
      '(' :: (Decimal.digits f.left ++ ':' :: (Decimal.digits f.right ++ [')'])) := by
  have opening : "(".toList = ['('] := by decide
  have colon : ":".toList = [':'] := by decide
  have closing : ")".toList = [')'] := by decide
  show ("(" ++ Decimal.natural f.left ++ ":" ++ Decimal.natural f.right ++ ")").toList = _
  simp only [String.toList_append, Decimal.toList_natural, opening, colon, closing,
    List.append_assoc, List.cons_append, List.nil_append]

theorem Field.text_ne_empty (f : Field) : f.text ≠ "" := by
  intro empty
  have chars := congrArg String.toList empty
  rw [toList_text] at chars
  cases chars

theorem Field.text_injective {f g : Field} (same : f.text = g.text) : f = g := by
  have chars := congrArg String.toList same
  rw [toList_text, toList_text] at chars
  have colon := Decimal.endsNumeral_cons (c := ':') rfl
  have closing := Decimal.endsNumeral_cons (c := ')') rfl []
  obtain ⟨left, behind⟩ := Decimal.digits_append_inj (colon _) (colon _) (List.cons.inj chars).2
  obtain ⟨right, -⟩ := Decimal.digits_append_inj closing closing (List.cons.inj behind).2
  cases f
  cases g
  cases left
  cases right
  rfl

namespace Operation

variable {a b op : Operation}

/-- A count or a unit as it stands behind the address. -/
def numberText (n : Nat) : String :=
  if n = 0 then "" else s!"({Decimal.natural n})"

theorem toList_numberText (n : Nat) :
    (numberText n).toList = if n = 0 then [] else '(' :: (Decimal.digits n ++ [')']) := by
  have opening : "(".toList = ['('] := by decide
  have closing : ")".toList = [')'] := by decide
  unfold numberText
  split
  · rfl
  · show ("(" ++ Decimal.natural n ++ ")").toList = _
    simp only [String.toList_append, Decimal.toList_natural, opening, closing, List.cons_append,
      List.nil_append]

theorem numberText_injective {m n : Nat} (same : numberText m = numberText n) : m = n := by
  have chars := congrArg String.toList same
  rw [toList_numberText, toList_numberText] at chars
  have closing := Decimal.endsNumeral_cons (c := ')') rfl []
  split at chars <;> split at chars
  · omega
  · cases chars
  · cases chars
  · exact (Decimal.digits_append_inj closing closing (List.cons.inj chars).2).1

theorem modifierText_of_number? {n : Nat} (h : op.number? = some n) :
    op.modifierText = numberText n := by
  cases op <;> cases h <;> rfl

theorem modifierText_of_field? {f : Field} (h : op.field? = some f) :
    op.modifierText = if op.hasDefaultModifier then "" else f.text := by
  cases op <;> cases h <;> rfl

theorem hasDefaultModifier_iff :
    op.hasDefaultModifier = true ↔ ∃ c, op.code? = some (c, defaultModifier c) := by
  unfold hasDefaultModifier
  constructor
  · intro default
    split at default
    · rename_i c m coded
      exact ⟨c, beq_iff_eq.1 default ▸ coded⟩
    · cases default
  · rintro ⟨c, coded⟩
    rw [coded]
    exact beq_self_eq_true _

/-- Operations of one outline whose counts or units are written alike have the same. -/
theorem number?_eq_of_modifierText (outline : a.outline = b.outline)
    (same : a.modifierText = b.modifierText) : a.number? = b.number? := by
  have shape := number?_outline a
  rw [outline, number?_outline] at shape
  cases ha : a.number? with
  | none =>
      rw [ha] at shape
      exact (Option.map_eq_none_iff.1 shape).symm
  | some m =>
      rw [ha] at shape
      obtain ⟨n, hb, -⟩ := Option.map_eq_some_iff.1 shape
      rw [modifierText_of_number? ha, modifierText_of_number? hb] at same
      rw [hb, numberText_injective same]

/-- Operations of one outline whose fields are written alike have the same, unless both
fields are left out. -/
theorem field?_eq_of_modifierText (outline : a.outline = b.outline)
    (same : a.modifierText = b.modifierText) :
    a.field? = b.field? ∨ (a.hasDefaultModifier = true ∧ b.hasDefaultModifier = true) := by
  have shape := field?_outline a
  rw [outline, field?_outline] at shape
  cases ha : a.field? with
  | none =>
      rw [ha] at shape
      exact .inl (Option.map_eq_none_iff.1 shape).symm
  | some f =>
      rw [ha] at shape
      obtain ⟨g, hb, -⟩ := Option.map_eq_some_iff.1 shape
      rw [modifierText_of_field? ha, modifierText_of_field? hb] at same
      split at same <;> split at same
      · rename_i defaultA defaultB
        exact .inr ⟨defaultA, defaultB⟩
      · exact absurd same.symm g.text_ne_empty
      · exact absurd same f.text_ne_empty
      · rw [hb, Field.text_injective same]
        exact .inl rfl

/-- **An outline and what stands in parentheses determine the code.** A field is left out
only when it is the default of the opcode, which the outline fixes. -/
theorem code?_eq_of_modifierText (outline : a.outline = b.outline)
    (same : a.modifierText = b.modifierText) : a.code? = b.code? := by
  have number := number?_eq_of_modifierText outline same
  rcases field?_eq_of_modifierText outline same with field | ⟨defaultA, defaultB⟩
  · rw [eq_of_outline outline field number]
  · obtain ⟨c, codedA⟩ := hasDefaultModifier_iff.1 defaultA
    obtain ⟨d, codedB⟩ := hasDefaultModifier_iff.1 defaultB
    have opcode := opcode_outline a
    rw [outline, opcode_outline, codedA, codedB] at opcode
    cases opcode
    rw [codedA, codedB]

/-- Decoded operations with one code are equal. -/
theorem eq_of_decode_of_code? {c d m n : Nat} (ha : decode c m = .ok a) (hb : decode d n = .ok b)
    (same : a.code? = b.code?) : a = b := by
  rw [code?_of_decode ha, code?_of_decode hb, Option.some_inj, Prod.mk.injEq] at same
  obtain ⟨rfl, modifiers⟩ := same
  by_cases nop : c = 0
  · subst nop
    cases ha
    cases hb
    rfl
  · rw [if_neg nop, if_neg nop] at modifiers
    subst modifiers
    exact Except.ok.inj (ha.symm.trans hb)

/-- A text is empty or starts with a parenthesis. -/
def Parenthesized (cs : List Char) : Prop :=
  ∀ c ∈ cs.head?, c = '('

theorem parenthesized_modifierText (op : Operation) : Parenthesized op.modifierText.toList := by
  intro c head
  cases number : op.number? with
  | some n =>
      rw [modifierText_of_number? number, toList_numberText] at head
      split at head <;> cases head
      rfl
  | none =>
      cases field : op.field? with
      | some f =>
          rw [modifierText_of_field? field] at head
          split at head
          · cases head
          · rw [Field.toList_text] at head
            cases head
            rfl
      | none => cases op <;> cases number <;> cases field <;> cases head

theorem Parenthesized.endsNumeral {cs : List Char} (h : Parenthesized cs) :
    Decimal.EndsNumeral cs := by
  intro c head
  rw [h c head]
  rfl

end Operation

namespace Instruction

variable {v w : Word} {i j : Instruction}

/-! ## The parts of the notation -/

theorem toList_addressText (address : Word) :
    (addressText address).toList =
      if address.sign = .minus then '-' :: Decimal.digits address.magnitude
      else Decimal.digits address.magnitude := by
  unfold addressText Word.isZero Word.value
  cases address.sign with
  | plus =>
      have noMinus : ¬ (address.magnitude == 0 && Sign.plus.isMinus) = true := by
        rw [Sign.isMinus, Bool.and_false]
        exact Bool.false_ne_true
      have natural : ¬ Sign.plus.apply address.magnitude < 0 :=
        Int.not_lt.2 (Int.natCast_nonneg _)
      rw [if_neg noMinus, Decimal.toList_integer, if_neg natural, Sign.natAbs_apply,
        if_neg Sign.noConfusion]
  | minus =>
      rw [if_pos rfl]
      by_cases zero : address.magnitude = 0
      · rw [zero]
        rfl
      · have noZero : ¬ (address.magnitude == 0 && Sign.minus.isMinus) = true := by
          rw [Sign.isMinus, Bool.and_true, beq_iff_eq]
          exact zero
        have negative : Sign.minus.apply address.magnitude < 0 :=
          Int.neg_neg_of_pos (Int.natCast_pos.2 (Nat.pos_of_ne_zero zero))
        rw [if_neg noZero, Decimal.toList_integer, if_pos negative, Sign.natAbs_apply]

/-- An address in front of a rest that ends its numeral is told from the rest. -/
theorem addressText_append_inj {xs ys : List Char} (hv : v.Proper) (hw : w.Proper)
    (hx : Decimal.EndsNumeral xs) (hy : Decimal.EndsNumeral ys)
    (same : (addressText v).toList ++ xs = (addressText w).toList ++ ys) : v = w ∧ xs = ys := by
  rw [toList_addressText, toList_addressText] at same
  have minus : '-'.isDigit = false := rfl
  cases signV : v.sign <;> cases signW : w.sign
  all_goals
    rw [signV, signW] at same
  case plus.plus =>
    obtain ⟨magnitude, rests⟩ := Decimal.digits_append_inj hx hy same
    exact ⟨hv.ext hw (signV.trans signW.symm) magnitude, rests⟩
  case plus.minus => exact absurd same (Decimal.digits_append_ne_cons minus _ _)
  case minus.plus => exact absurd same.symm (Decimal.digits_append_ne_cons minus _ _)
  case minus.minus =>
    obtain ⟨magnitude, rests⟩ := Decimal.digits_append_inj hx hy (List.cons.inj same).2
    exact ⟨hv.ext hw (signV.trans signW.symm) magnitude, rests⟩

/-- The index as it stands behind the address. -/
def indexPart (index : Nat) : List Char :=
  if index = 0 then [] else ',' :: Decimal.digits index

/-- An index in front of a parenthesis is told from what follows. -/
theorem indexPart_append_inj {m n : Nat} {xs ys : List Char} (hx : Operation.Parenthesized xs)
    (hy : Operation.Parenthesized ys) (same : indexPart m ++ xs = indexPart n ++ ys) :
    m = n ∧ xs = ys := by
  -- a comma is no parenthesis
  have noComma : ∀ {cs rest : List Char}, Operation.Parenthesized cs → cs ≠ ',' :: rest := by
    rintro cs rest parenthesized rfl
    cases parenthesized ',' rfl
  unfold indexPart at same
  split at same <;> split at same
  · rename_i noM noN
    exact ⟨noM.trans noN.symm, same⟩
  · exact absurd same (noComma hx)
  · exact absurd same.symm (noComma hy)
  · exact Decimal.digits_append_inj hx.endsNumeral hy.endsNumeral (List.cons.inj same).2

theorem endsNumeral_indexPart (n : Nat) {cs : List Char} (h : Operation.Parenthesized cs) :
    Decimal.EndsNumeral (indexPart n ++ cs) := by
  unfold indexPart
  split
  · exact h.endsNumeral
  · exact Decimal.endsNumeral_cons rfl _

theorem toList_text (i : Instruction) :
    i.text.toList =
      i.operation.mnemonic.toList ++ ' ' :: ((addressText i.address).toList ++
        (indexPart i.index ++ i.operation.modifierText.toList)) := by
  have blank : " ".toList = [' '] := by decide
  have comma : ",".toList = [','] := by decide
  have index : (if i.index = 0 then "" else "," ++ Decimal.natural i.index).toList =
      indexPart i.index := by
    unfold indexPart
    split
    · rfl
    · rw [String.toList_append, comma, Decimal.toList_natural]
      rfl
  unfold text
  simp only [String.toList_append, index, blank, List.append_assoc, List.cons_append,
    List.nil_append]

/-- **The notation determines the address, the index and the code**, of instructions that
have a code and whose addresses are proper. -/
theorem parts_of_text (hi : i.address.Proper) (hj : j.address.Proper)
    (codedI : i.operation.code? ≠ none) (codedJ : j.operation.code? ≠ none)
    (same : i.text = j.text) :
    i.address = j.address ∧ i.index = j.index ∧ i.operation.code? = j.operation.code? := by
  have chars := congrArg String.toList same
  rw [toList_text, toList_text] at chars
  -- the mnemonic ends at the blank
  obtain ⟨mnemonics, behind⟩ := Text.append_cons_inj (Operation.notMem_mnemonic codedI)
    (Operation.notMem_mnemonic codedJ) chars
  -- then come the address, the index and the rest
  have closedI := i.operation.parenthesized_modifierText
  have closedJ := j.operation.parenthesized_modifierText
  obtain ⟨address, behind⟩ := addressText_append_inj hi hj (endsNumeral_indexPart _ closedI)
    (endsNumeral_indexPart _ closedJ) behind
  obtain ⟨index, modifiers⟩ := indexPart_append_inj closedI closedJ behind
  have outline := Operation.outline_eq_of_mnemonic codedI codedJ (String.toList_inj.1 mnemonics)
  exact ⟨address, index,
    Operation.code?_eq_of_modifierText outline (String.toList_inj.1 modifiers)⟩

/-! ## Disassembled words -/

theorem proper_of_decode (h : decode w = .ok i) : i.address.Proper := by
  obtain ⟨-, address, -, -⟩ := of_decode h
  rw [address]
  exact Word.proper_ofSignMagnitude _ _

/-- **Decoded instructions that are written alike are equal.** -/
theorem eq_of_text (hv : decode v = .ok i) (hw : decode w = .ok j) (same : i.text = j.text) :
    i = j := by
  obtain ⟨address, index, code⟩ := parts_of_text (proper_of_decode hv) (proper_of_decode hw)
    (code?_ne_none_of_decode hv) (code?_ne_none_of_decode hw) same
  obtain ⟨-, -, -, decodedV⟩ := of_decode hv
  obtain ⟨-, -, -, decodedW⟩ := of_decode hw
  have operation := Operation.eq_of_decode_of_code? decodedV decodedW code
  cases i
  cases j
  cases address
  cases index
  cases operation
  rfl

theorem disassemble_of_decode (h : decode w = .ok i) : disassemble w = i.text := by
  rw [disassemble, h]

/-- No instruction is written as question marks: there is a blank in every notation. -/
theorem text_ne_unknown (i : Instruction) : i.text ≠ "???" := by
  intro unknown
  have noBlank : ' ' ∉ "???".toList := by decide
  apply noBlank
  rw [← unknown, toList_text]
  exact List.mem_append_right _ (List.mem_cons_self ..)

/-- **Disassembly is faithful.** A word is written as question marks exactly when it is no
instruction. Two words that are instructions and are written alike are the same
instruction: they differ at most in bit 31 and, with the opcode 0, in byte 4. -/
theorem disassemble_faithful :
    (∀ w, disassemble w = "???" ↔ ∃ e, decode w = .error e) ∧
    ∀ v w i j, decode v = .ok i → decode w = .ok j → disassemble v = disassemble w →
      decode v = decode w ∧ v.byte 5 = w.byte 5 ∧
        if v.byte 5 = 0 then Field.insert ⟨4, 4⟩ v .zero = Field.insert ⟨4, 4⟩ w .zero
        else v.canonical = w.canonical := by
  constructor
  · intro w
    cases decoded : decode w with
    | error e =>
        have unknown : disassemble w = "???" := by rw [disassemble, decoded]
        exact iff_of_true unknown ⟨e, rfl⟩
    | ok i =>
        rw [disassemble_of_decode decoded]
        refine iff_of_false i.text_ne_unknown ?_
        rintro ⟨e, failed⟩
        cases failed
  · intro v w i j hv hw same
    rw [disassemble_of_decode hv, disassemble_of_decode hw] at same
    cases eq_of_text hv hw same
    have code := (code?_of_decode hv).symm.trans (code?_of_decode hw)
    have opcode : v.byte 5 = w.byte 5 := (Prod.mk.inj (Option.some.inj code)).1
    have words := significant_eq_of_decode hv hw
    refine ⟨hv.trans hw.symm, opcode, ?_⟩
    unfold significant at words
    rw [← opcode] at words
    split at words
    · rename_i nop
      rw [if_pos nop]
      exact words
    · rename_i someCode
      rw [if_neg someCode]
      exact words

/-- The index 7 makes a word no instruction, and a plain zero with bit 31 and a modifier
is written as, and is, the instruction of the plain zero. -/
theorem disassemble_faithful_nop :
    disassemble ⟨0x7008⟩ = "???" ∧ disassemble ⟨0x80000240⟩ = disassemble .zero ∧
      decode ⟨0x80000240⟩ = decode .zero ∧
      Field.insert ⟨4, 4⟩ ⟨0x80000240⟩ .zero = Field.insert ⟨4, 4⟩ .zero .zero := by
  obtain ⟨unknown, faithful⟩ := disassemble_faithful
  have alike : disassemble ⟨0x80000240⟩ = disassemble .zero := by decide +kernel
  obtain ⟨same, -, words⟩ :=
    faithful ⟨0x80000240⟩ .zero ⟨.zero, 0, .nop⟩ ⟨.zero, 0, .nop⟩ rfl rfl alike
  exact ⟨(unknown _).2 ⟨.invalidIndex 7, rfl⟩, alike, same, words⟩

/-! ## The characters of the notation -/

/-- A letter, a digit or one of the marks around the parts of the notation. -/
def Notates (c : Char) : Prop :=
  c.isAlphanum = true ∨ c ∈ [' ', '-', ',', '(', ':', ')']

instance (c : Char) : Decidable (Notates c) :=
  inferInstanceAs (Decidable (_ ∨ _))

theorem notates_of_mem_digits {n : Nat} : ∀ c ∈ Decimal.digits n, Notates c := by
  intro c member
  have digit := List.all_eq_true.1 (Decimal.all_isDigit_digits n) c member
  exact .inl (by rw [Char.isAlphanum, digit, Bool.or_true])

theorem notates_of_mem_modifierText (op : Operation) :
    ∀ c ∈ op.modifierText.toList, Notates c := by
  have opening : Notates '(' := .inr (by decide)
  have colon : Notates ':' := .inr (by decide)
  have closing : Notates ')' := .inr (by decide)
  cases number : op.number? with
  | some n =>
      rw [Operation.modifierText_of_number? number, Operation.toList_numberText]
      split
      · exact List.forall_mem_nil _
      · exact List.forall_mem_cons.2
          ⟨opening, List.forall_mem_append.2
            ⟨notates_of_mem_digits, List.forall_mem_singleton.2 closing⟩⟩
  | none =>
      cases field : op.field? with
      | some f =>
          rw [Operation.modifierText_of_field? field]
          split
          · exact List.forall_mem_nil _
          · rw [Field.toList_text]
            simp only [List.forall_mem_cons, List.forall_mem_append]
            exact ⟨opening, notates_of_mem_digits, colon, notates_of_mem_digits, closing,
              List.forall_mem_nil _⟩
      | none => cases op <;> cases number <;> cases field <;> exact List.forall_mem_nil _

/-- **The notation of an instruction that has a code is letters, digits and marks.** -/
theorem notates_of_mem_text (coded : i.operation.code? ≠ none) :
    ∀ c ∈ i.text.toList, Notates c := by
  have mnemonic : ∀ c ∈ i.operation.mnemonic.toList, Notates c :=
    fun c member => .inl (Operation.isAlphanum_of_mem_mnemonic coded member)
  have address : ∀ c ∈ (addressText i.address).toList, Notates c := by
    rw [toList_addressText]
    split
    · exact List.forall_mem_cons.2 ⟨.inr (by decide), notates_of_mem_digits⟩
    · exact notates_of_mem_digits
  have index : ∀ c ∈ indexPart i.index, Notates c := by
    unfold indexPart
    split
    · exact List.forall_mem_nil _
    · exact List.forall_mem_cons.2 ⟨.inr (by decide), notates_of_mem_digits⟩
  rw [toList_text]
  simp only [List.forall_mem_append, List.forall_mem_cons]
  exact ⟨mnemonic, .inr (by decide), address, index, notates_of_mem_modifierText _⟩

end Instruction

end MixMachine
