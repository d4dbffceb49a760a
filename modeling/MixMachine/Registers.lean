import MixMachine.Register
import MixMachine.Field
import MixMachine.Word.Text

/-!
# The register file

The nine registers together with the program counter, the overflow toggle and
the comparison indicator. `set` narrows what it stores: a half register keeps
the two low bytes and J keeps no sign, so after `set` every register holds a
word of its own width.
-/

namespace MixMachine

/-- The register file. The program counter holds the address of the next
instruction, and the comparison indicator is unset until the first comparison. -/
structure Registers where
  a : Word
  x : Word
  i : Vector Word 6
  j : Word
  pc : Nat
  overflow : Bool
  comparison : Option Ordering
  deriving DecidableEq

/-- The names of the three outcomes of a comparison. -/
instance : Variants Ordering where
  all := [.lt, .eq, .gt]
  name
    | .lt => "Less"
    | .eq => "Equal"
    | .gt => "Greater"

namespace Registers

/-- Every register zero, the toggle off and the indicator unset. -/
def initial : Registers :=
  ⟨.zero, .zero, Vector.replicate 6 .zero, .zero, 0, false, none⟩

/-- The word in a register. A half register reads as a word with zero bytes in
front. -/
def get (rs : Registers) : Register → Word
  | .a => rs.a
  | .i k => rs.i.get k
  | .x => rs.x
  | .j => rs.j

/-- The word that a register keeps of a value: the low bytes that fit, with the
value's sign, or with a plus sign in J. -/
def narrow (r : Register) (value : Word) : Word :=
  Word.ofSignMagnitude (if r = .j then .plus else value.sign)
    (value.magnitude % r.width.capacity)

/-- Stores a value in a register, narrowed to it. -/
def set (rs : Registers) (r : Register) (value : Word) : Registers :=
  let kept := narrow r value
  match r with
  | .a => { rs with a := kept }
  | .i k => { rs with i := rs.i.set k.val kept k.isLt }
  | .x => { rs with x := kept }
  | .j => { rs with j := kept }

/-- Whether a value has more bits than a register holds. -/
def exceeds (r : Register) (value : Word) : Bool :=
  decide (r.width.maxMagnitude < value.magnitude)

/-- The address that an instruction refers to: its address part plus the index
register, when it names one. A zero sum has the sign of the address part, and an
address without index is taken as it is. -/
def effectiveAddress (rs : Registers) (address : Word) : Option Register → Word
  | none => address
  | some r =>
    let sum := address.value + (rs.get r).value
    Word.ofSignMagnitude (if sum = 0 then address.sign else Sign.of sum) sum.natAbs

/-- The comparison indicator as a record shows it. -/
def comparisonRecord : Option Ordering → String
  | none => "None"
  | some c => s!"Some({Variants.name c})"

/-- Every part of the register file with its name. -/
def record (rs : Registers) : String :=
  let i := ", ".intercalate (rs.i.toList.map Word.record)
  s!"Registers \x7b a: {rs.a.record}, x: {rs.x.record}, i: [{i}], j: {rs.j.record}, " ++
    s!"pc: {Decimal.natural rs.pc}, overflow: {rs.overflow}, " ++
    s!"comparison: {comparisonRecord rs.comparison} \x7d"

/-! ## Reading after writing -/

/-- A register that was written holds the narrowed value. -/
@[simp] theorem get_set_self (rs : Registers) (r : Register) (v : Word) :
    (rs.set r v).get r = narrow r v := by
  cases r <;> simp only [set, get]
  exact Vector.getElem_set_self ..

/-- Writing a register leaves the others alone. -/
theorem get_set_of_ne (rs : Registers) {r s : Register} (h : s ≠ r) (v : Word) :
    (rs.set r v).get s = rs.get s := by
  cases r <;> cases s
  case i.i k l =>
    have hkl : k.val ≠ l.val := fun e => h (congrArg Register.i (Fin.ext e.symm))
    exact Vector.getElem_set_ne k.isLt l.isLt hkl
  all_goals first | exact absurd rfl h | rfl

end Registers

end MixMachine
