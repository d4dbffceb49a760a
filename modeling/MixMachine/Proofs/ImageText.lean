import MixMachine.Image.Text
import MixMachine.Proofs.WordText

/-!
# An image is read back from its written form

The written form of an image is a comment, a line with the start, and one line for each
cell. None of these holds a line feed of its own, so the text comes apart into exactly
these lines, and each of them is read as what it was written for: the comment as nothing,
the others because their numerals are solid and stand behind single blanks.

* `Image.toList_text`: the written form by its lines.
* `Image.readLine_comment`, `Image.readLine_startLine`, `Image.readLine_cellLine`: the lines.
* `Image.parse_text`: the image is read back.
-/

namespace MixMachine.Image

/-! ## The lines of the written form -/

/-- The comment that counts the words. -/
def commentLine (count : Nat) : List Char :=
  "; MIX program image, ".toList ++ Decimal.digits count ++ " cells".toList

/-- The line with the start. -/
def startLine (a : Nat) : List Char :=
  "START".toList ++ ' ' :: Decimal.digits a

/-- The line of a cell. -/
def cellLine (c : Nat × Word) : List Char :=
  (Decimal.padded 4 c.1).toList ++ ' ' :: c.2.text.toList

theorem toList_cellText (c : Nat × Word) : (cellText c).toList = cellLine c ++ ['\n'] := by
  have blank : " ".toList = [' '] := by decide
  have feed : "\n".toList = ['\n'] := by decide
  simp only [cellText, cellLine, String.toList_append, blank, feed, List.append_assoc,
    List.cons_append, List.nil_append]

theorem toList_text (image : Image) :
    image.text.toList =
      (commentLine image.cells.length :: startLine image.start ::
        image.cells.map cellLine).flatMap fun l => l ++ ['\n'] := by
  have comment : " cells\n".toList = " cells".toList ++ ['\n'] := by decide
  have start : "START ".toList = "START".toList ++ [' '] := by decide
  have feed : "\n".toList = ['\n'] := by decide
  unfold text commentLine startLine
  -- the words of the text are kept whole: only where they end matters
  generalize "; MIX program image, " = front
  generalize " cells\n" = behind, " cells" = cells at comment ⊢
  generalize "START " = opening, "START" = keyword at start ⊢
  generalize "\n" = lineFeed at feed ⊢
  simp only [String.toList_append, String.toList_join, Decimal.toList_natural, comment, start,
    feed, List.flatMap_cons, List.flatMap_map, toList_cellText, List.append_assoc,
    List.cons_append, List.nil_append]

/-- No line has a line feed of its own. -/
theorem notMem_lines (image : Image) :
    ∀ l ∈ commentLine image.cells.length :: startLine image.start :: image.cells.map cellLine,
      '\n' ∉ l := by
  have digits : ∀ n, '\n' ∉ Decimal.digits n := fun n =>
    Decimal.notMem_of_natural? (Decimal.natural?_digits n) rfl
  have blank : '\n' ≠ ' ' := by decide
  have comment : ∀ n, '\n' ∉ commentLine n := by
    intro n
    have front : '\n' ∉ "; MIX program image, ".toList := by decide
    have back : '\n' ∉ " cells".toList := by decide
    unfold commentLine
    generalize "; MIX program image, " = opening at front ⊢
    generalize " cells" = closing at back ⊢
    simp only [List.mem_append, front, digits, back, or_self, not_false_eq_true]
  have start : ∀ a, '\n' ∉ startLine a := by
    intro a
    have front : '\n' ∉ "START".toList := by decide
    unfold startLine
    generalize "START" = keyword at front ⊢
    simp only [List.mem_append, List.mem_cons, front, blank, digits, or_self, not_false_eq_true]
  have cell : ∀ c, '\n' ∉ cellLine c := by
    intro c
    have address := Decimal.notMem_of_natural? (Decimal.natural?_padded 4 c.1) (c := '\n') rfl
    have word : '\n' ∉ c.2.text.toList := c.2.notMem_text rfl blank rfl
    simp only [cellLine, List.mem_append, List.mem_cons, address, blank, word, or_self,
      not_false_eq_true]
  intro l member
  rcases List.mem_cons.1 member with rfl | member
  · exact comment _
  rcases List.mem_cons.1 member with rfl | member
  · exact start _
  obtain ⟨c, -, rfl⟩ := List.mem_map.1 member
  exact cell c

/-! ## Reading the lines -/

theorem readAddress_of_natural? {cs : List Char} {a : Nat} (h : Decimal.natural? cs = some a)
    (inside : a < memorySize) (line : Nat) : readAddress line cs = .ok a := by
  have size : memorySize = 4000 := rfl
  have range : 0 ≤ (a : Int) ∧ (a : Int) < memorySize := by omega
  rw [readAddress, Decimal.signed?_of_natural? h (by omega)]
  exact if_pos range

/-- The comment is read as a blank line. -/
theorem readLine_comment (line count : Nat) : readLine line (commentLine count) = .ok .blank := by
  have cut : Text.beforeComment (commentLine count) = [] := by
    have start : "; MIX program image, ".toList = ';' :: " MIX program image, ".toList := by
      decide
    unfold commentLine Text.beforeComment
    rw [start]
    rfl
  unfold readLine
  rw [cut]
  rfl

/-- What `readLine` does with a line of a solid piece and a trimmed rest that holds no
comment. -/
theorem readLine_of_pieces {first rest : List Char} (solid : Text.Solid first)
    (trimmed : Text.trim rest = rest)
    (whole : Text.trim (first ++ ' ' :: rest) = first ++ ' ' :: rest)
    (free : ';' ∉ first ++ ' ' :: rest) (line : Nat) :
    readLine line (first ++ ' ' :: rest) =
      if first.map Char.toUpper = ['S', 'T', 'A', 'R', 'T'] then
        Line.start <$> readAddress line rest
      else do
        let a ← readAddress line first
        let w ← readWord line rest
        return .cell a w := by
  have some : first ++ ' ' :: rest ≠ [] :=
    List.append_ne_nil_of_left_ne_nil solid.ne_nil _
  unfold readLine
  rw [Text.beforeComment_of_notMem free, whole]
  dsimp only
  rw [if_neg some, Text.headAndRest_append solid trimmed]

/-- The line with the start says where to start, when its numeral is an address. -/
theorem readLine_startLine (line a : Nat) :
    readLine line (startLine a) = Line.start <$> readAddress line (Decimal.digits a) := by
  have numeral := Decimal.natural?_digits a
  have solid := Decimal.solid_of_natural? numeral
  have keyword : Text.Solid "START".toList := by decide
  have free : ';' ∉ startLine a := by
    have front : ';' ∉ "START".toList := by decide
    have blank : ';' ≠ ' ' := by decide
    have digits := Decimal.notMem_of_natural? numeral (c := ';') rfl
    unfold startLine
    generalize "START" = keyword at front ⊢
    simp only [List.mem_append, List.mem_cons, front, blank, digits, or_self, not_false_eq_true]
  have upper : "START".toList.map Char.toUpper = ['S', 'T', 'A', 'R', 'T'] := by decide
  unfold startLine at free ⊢
  rw [readLine_of_pieces keyword solid.trim (Text.trim_between keyword solid [' ']) free,
    if_pos upper]

theorem readLine_start {a : Nat} (inside : a < memorySize) (line : Nat) :
    readLine line (startLine a) = .ok (.start a) := by
  rw [readLine_startLine, readAddress_of_natural? (Decimal.natural?_digits a) inside]
  rfl

/-- The line of a cell says its word, when its numeral is an address. -/
theorem readLine_cellLine (line : Nat) (c : Nat × Word) :
    readLine line (cellLine c) =
      (fun a => .cell a c.2.canonical) <$> readAddress line (Decimal.padded 4 c.1).toList := by
  have numeral := Decimal.natural?_padded 4 c.1
  have solid := Decimal.solid_of_natural? numeral
  have whole : Text.trim (cellLine c) = cellLine c := by
    have pieces : cellLine c = (Decimal.padded 4 c.1).toList ++
        ([c.2.sign.char] :: c.2.numerals).flatMap fun p => ' ' :: p := by
      rw [cellLine, Word.toList_text]
      rfl
    rw [pieces]
    apply Text.trim_spaced solid
    exact List.forall_mem_cons.2 ⟨Word.solid_sign _, c.2.solid_numerals⟩
  have free : ';' ∉ cellLine c := by
    have address := Decimal.notMem_of_natural? numeral (c := ';') rfl
    have blank : ';' ≠ ' ' := by decide
    have word : ';' ∉ c.2.text.toList := c.2.notMem_text rfl blank rfl
    simp only [cellLine, List.mem_append, List.mem_cons, address, blank, word, or_self,
      not_false_eq_true]
  have number : (Decimal.padded 4 c.1).toList ≠ ['S', 'T', 'A', 'R', 'T'] := by
    intro letters
    apply Decimal.notMem_of_natural? numeral (c := 'S') rfl
    rw [letters]
    exact List.mem_cons_self ..
  unfold cellLine at whole free ⊢
  rw [readLine_of_pieces solid c.2.trim_text whole free, Decimal.map_toUpper_of_natural? numeral,
    if_neg number, readWord, Word.parse_text_canonical]
  rfl

theorem readLine_cell {c : Nat × Word} (inside : c.1 < memorySize) (line : Nat) :
    readLine line (cellLine c) = .ok (.cell c.1 c.2.canonical) := by
  rw [readLine_cellLine, readAddress_of_natural? (Decimal.natural?_padded 4 c.1) inside]
  rfl

/-- Lines that are read one by one are read in a row. -/
theorem readLines_map {α : Type} {write : α → List Char} {said : α → Line} {xs : List α}
    (read : ∀ x ∈ xs, ∀ number, readLine number (write x) = .ok (said x)) (number : Nat) :
    readLines number (xs.map write) = .ok (xs.map said) := by
  induction xs generalizing number with
  | nil => rfl
  | cons x xs ih =>
      obtain ⟨head, tail⟩ := List.forall_mem_cons.1 read
      rw [List.map_cons, readLines, head, ih tail]
      rfl

/-! ## The image -/

/-- The image that the lines of the written form describe. -/
theorem ofLines_written (a : Nat) (cells : List (Nat × Word)) :
    ofLines (.blank :: .start a :: cells.map fun c => .cell c.1 c.2) = ⟨a, cells⟩ := by
  have noStart : (cells.map fun c => Line.cell c.1 c.2).filterMap Line.start? = [] := by
    rw [List.filterMap_map, List.filterMap_eq_nil_iff]
    exact fun c _ => rfl
  have allCells : (cells.map fun c => Line.cell c.1 c.2).filterMap Line.cell? = cells := by
    rw [List.filterMap_map]
    exact List.filterMap_some
  have starts : (Line.blank :: .start a :: cells.map fun c => .cell c.1 c.2).filterMap
      Line.start? = [a] := congrArg (a :: ·) noStart
  have words : (Line.blank :: .start a :: cells.map fun c => .cell c.1 c.2).filterMap
      Line.cell? = cells := allCells
  rw [ofLines, starts, words]
  rfl

/-- **An image in memory is read back from its written form**, bit 31 of its words
apart. -/
theorem parse_text_canonical {image : Image} (inside : image.InMemory) :
    parse image.text =
      .ok { image with cells := image.cells.map fun c => (c.1, c.2.canonical) } := by
  have cells : readLines 3 (image.cells.map cellLine) =
      .ok (image.cells.map fun c => .cell c.1 c.2.canonical) :=
    readLines_map (fun c member => readLine_cell (inside.2 c member)) 3
  have written := ofLines_written image.start (image.cells.map fun c => (c.1, c.2.canonical))
  rw [List.map_map] at written
  rw [parse, toList_text, Text.lines_ended (notMem_lines image), readLines, readLine_comment,
    readLines, readLine_start inside.1, cells]
  exact congrArg Except.ok written

/-- A list keeps all its items only if each of them is kept. -/
theorem map_eq_self_iff {α : Type} {f : α → α} {xs : List α} :
    xs.map f = xs ↔ ∀ x ∈ xs, f x = x := by
  have itemwise := List.map_inj_left (f := f) (g := id) (l := xs)
  rwa [List.map_id] at itemwise

/-- Proper words are canonical already. -/
theorem map_canonical {cells : List (Nat × Word)} (proper : ∀ c ∈ cells, c.2.Proper) :
    (cells.map fun c => (c.1, c.2.canonical)) = cells := by
  refine map_eq_self_iff.2 fun c member => ?_
  rw [(proper c member).canonical_eq]

/-- **An image is read back from its written form**, when its addresses are those of cells
and its words proper: the same start and the same cells, in the same order and with the
same signs. -/
theorem parse_text {image : Image} (inside : image.InMemory)
    (proper : ∀ c ∈ image.cells, c.2.Proper) : parse image.text = .ok image := by
  rw [parse_text_canonical inside, map_canonical proper]

/-- An image with a negative zero that a later word replaces. -/
def overwriting : Image :=
  ⟨3999, [(0, Word.zero.negate), (3000, ⟨0x7FFFFFFF⟩), (0, .zero)]⟩

/-- Both words of a cell are read back, in their order. -/
theorem parse_text_overwriting : parse overwriting.text = .ok overwriting :=
  parse_text ⟨by decide, by decide⟩ (by decide)

end MixMachine.Image
