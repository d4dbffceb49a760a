import MixMachine.Instruction.Text

/-!
# Listings

A listing shows words one below the other, each with its address, its
instruction and the word itself behind a semicolon.
-/

namespace MixMachine

/-- The text with blanks behind it up to `width` characters. -/
def padRight (width : Nat) (s : String) : String :=
  s ++ String.ofList (List.replicate (width - s.length) ' ')

theorem toList_padRight (width : Nat) (s : String) :
    (padRight width s).toList = s.toList ++ List.replicate (width - s.length) ' ' := by
  rw [padRight, String.toList_append, String.toList_ofList]

/-- A text is padded to the width, or longer already. -/
theorem length_padRight (width : Nat) (s : String) :
    (padRight width s).length = max width s.length := by
  rw [← String.length_toList, toList_padRight, List.length_append, List.length_replicate,
    String.length_toList]
  omega

theorem notMem_padRight {width : Nat} {s : String} {c : Char} (other : c ∉ s.toList)
    (noBlank : c ≠ ' ') : c ∉ (padRight width s).toList := by
  rw [toList_padRight, List.mem_append]
  exact not_or_intro other fun blank => noBlank (List.eq_of_mem_replicate blank)

namespace Listing

/-- What stands above the lines. -/
def header : String :=
  "; MIX Disassembly\n; ---------------\n\n"

/-- The line of the word at an address. -/
def line (address : Nat) (w : Word) : String :=
  Decimal.padded 4 address ++ ": " ++ padRight 24 (Instruction.disassemble w) ++ " ; " ++
    w.text ++ "\n"

/-- The lines of words that stand at addresses from `origin` on. -/
def body (origin : Nat) : List Word → String
  | [] => ""
  | w :: ws => line origin w ++ body (origin + 1) ws

/-- The listing of words that stand at addresses from `origin` on. -/
def text (origin : Nat) (ws : List Word) : String :=
  header ++ body origin ws

end Listing

end MixMachine
