import MixMachine.Image.Text
import MixMachine.Proofs.Checks
import MixMachine.Proofs.Splitting

/-!
# An image is read line by line

What a line says depends on nothing but the line: not on the lines around it, and on its
number only where an error shows it. So a text that ends with a line feed can be followed by
any other text, and each of them says what it says alone; a line can be changed wherever
reading does not look, which is behind its first semicolon and in the white space around what
stands before it; and a line that says nothing can stand anywhere.

* `Text.lines_append`: the lines of a text behind ended lines.
* `Image.readLine_congr`: a line is read by its content alone.
* `Image.readLine_later`, `Image.readLines_append`: the number of a line shows in errors only.
* `Image.parse_line_by_line`: a text is read by its lines.
-/

namespace MixMachine

/-! ## The lines of a text behind another -/

namespace Text

variable {xs ys bs l : List Char}

/-- Every line of the text is ended by a line feed. -/
def Ended (cs : List Char) : Prop :=
  cs = [] ∨ cs.getLast? = some '\n'

/-- A line feed ends the line in front of it, whatever stands behind it. -/
theorem lines_append_cons (xs ys : List Char) :
    lines (xs ++ '\n' :: ys) = splitAt (· == '\n') xs ++ lines ys := by
  have some := splitAt_ne_nil (· == '\n') ys
  unfold lines
  rw [splitAt_append_cons rfl]
  dsimp only
  rw [List.getLast?_append_of_ne_nil _ some, List.dropLast_append_of_ne_nil some]
  split
  · rfl
  · rfl

/-- **The lines of ended text and of what stands behind it.** -/
theorem lines_append (ended : Ended xs) (ys : List Char) :
    lines (xs ++ ys) = lines xs ++ lines ys := by
  rcases ended with rfl | last
  · rfl
  · obtain ⟨front, rfl⟩ := List.getLast?_eq_some_iff.1 last
    have alone := lines_append_cons front []
    rw [List.append_assoc, List.singleton_append, lines_append_cons, alone]
    exact congrArg (· ++ lines ys) (List.append_nil _).symm

/-- Only an empty piece at the end of a text is no line. -/
theorem splitAt_eq_lines_append (cs : List Char) :
    ∃ bs, splitAt (· == '\n') cs = lines cs ++ bs ∧ ∀ l ∈ bs, l = [] := by
  unfold lines
  dsimp only
  split
  · rename_i last
    obtain ⟨front, parts⟩ := List.getLast?_eq_some_iff.1 last
    refine ⟨[[]], ?_, fun l member => List.mem_singleton.1 member⟩
    rw [parts, List.dropLast_concat]
  · exact ⟨[], (List.append_nil _).symm, fun l member => absurd member List.not_mem_nil⟩

/-- A text without a line feed is one line, unless it is empty. -/
theorem lines_of_notMem (free : '\n' ∉ l) : lines l = if l = [] then [] else [l] := by
  have whole : ∀ x ∈ l, (x == '\n') = false := by
    intro x member
    exact beq_eq_false_iff_ne.2 fun same => free (same ▸ member)
  unfold lines
  rw [splitAt_of_forall whole]
  simp only [List.getLast?_singleton, Option.some.injEq]
  rfl

/-! ## White space around a text -/

theorem trim_append_left (blank : ∀ c ∈ bs, isBlank c = true) (xs : List Char) :
    trim (bs ++ xs) = trim xs := by
  unfold trim trimLeft
  rw [List.dropWhile_append_of_pos blank]

theorem trimRight_append (blank : ∀ c ∈ bs, isBlank c = true) (xs : List Char) :
    trimRight (xs ++ bs) = trimRight xs := by
  unfold trimRight
  rw [List.reverse_append, List.dropWhile_append_of_pos]
  intro c member
  exact blank c (List.mem_reverse.1 member)

theorem trim_append_right (blank : ∀ c ∈ bs, isBlank c = true) (xs : List Char) :
    trim (xs ++ bs) = trim xs := by
  unfold trim
  by_cases allBlank : ∀ c ∈ xs, isBlank c = true
  · -- nothing is left of either text
    have none : trimLeft xs = [] := List.dropWhile_eq_nil_iff.2 allBlank
    have none' : trimLeft (xs ++ bs) = [] :=
      List.dropWhile_eq_nil_iff.2 (List.forall_mem_append.2 ⟨allBlank, blank⟩)
    rw [none, none']
  · have stops : trimLeft (xs ++ bs) = trimLeft xs ++ bs := by
      unfold trimLeft
      rw [List.dropWhile_append, if_neg]
      rw [List.isEmpty_iff, List.dropWhile_eq_nil_iff]
      exact allBlank
    rw [stops, trimRight_append blank]

end Text

namespace ImageError

/-- The same error on a line further down. -/
def later (k : Nat) : ImageError → ImageError
  | .parse line message => .parse (line + k) message
  | .addressOutOfRange line address => .addressOutOfRange (line + k) address
  | e => e

/-- The line that an error shows. -/
def line? : ImageError → Option Nat
  | .parse line _ => some line
  | .addressOutOfRange line _ => some line
  | _ => none

end ImageError

namespace Image

open Text

/-! ## What a line is read by -/

/-- The part of a line that says something: what stands before its first semicolon, without
the white space around it. -/
def content (l : List Char) : List Char :=
  trim (beforeComment l)

/-- **A line is read by its content alone.** -/
theorem readLine_congr {l l' : List Char} (same : content l = content l') (number : Nat) :
    readLine number l = readLine number l' := by
  unfold content at same
  unfold readLine
  rw [same]

variable {l bs : List Char}

theorem content_beforeComment (l : List Char) : content (beforeComment l) = content l := by
  unfold content beforeComment
  rw [List.takeWhile_takeWhile]
  simp only [decide_eq_true_eq, and_self]

/-- White space is no semicolon, so it opens no comment. -/
theorem goesOn_of_blank (blank : ∀ c ∈ bs, isBlank c = true) :
    ∀ c ∈ bs, decide (c ≠ ';') = true := by
  intro c member
  apply decide_eq_true
  intro same
  rw [same] at member
  cases blank ';' member

theorem content_append_left (blank : ∀ c ∈ bs, isBlank c = true) (l : List Char) :
    content (bs ++ l) = content l := by
  unfold content beforeComment
  rw [List.takeWhile_append_of_pos (goesOn_of_blank blank), trim_append_left blank]

theorem content_append_right (blank : ∀ c ∈ bs, isBlank c = true) (l : List Char) :
    content (l ++ bs) = content l := by
  unfold content beforeComment
  rw [List.takeWhile_append]
  split
  · -- without a comment the white space is still there to be trimmed
    rename_i whole
    have all := (List.takeWhile_prefix (fun c => decide (c ≠ ';')) (l := l)).eq_of_length whole
    rw [List.takeWhile_eq_self_iff.2 (goesOn_of_blank blank), all, trim_append_right blank]
  · rfl

/-- A line that is changed where reading does not look: cut at its first semicolon, or given
more white space in front of it or behind it. -/
inductive Retouched (l : List Char) : List Char → Prop
  | cut : Retouched l (beforeComment l)
  | front {bs : List Char} :
    (∀ c ∈ bs, isBlank c = true ∧ c ≠ '\n') →
    Retouched l (bs ++ l)
  | back {bs : List Char} :
    (∀ c ∈ bs, isBlank c = true ∧ c ≠ '\n') →
    Retouched l (l ++ bs)

variable {l' : List Char}

theorem Retouched.content_eq (h : Retouched l l') : content l' = content l := by
  cases h with
  | cut => exact content_beforeComment l
  | front blank => exact content_append_left (fun c member => (blank c member).1) l
  | back blank => exact content_append_right (fun c member => (blank c member).1) l

/-- A line that is changed so is still one line. -/
theorem Retouched.notMem (h : Retouched l l') (free : '\n' ∉ l) : '\n' ∉ l' := by
  cases h with
  | cut => exact fun member => free (List.takeWhile_subset _ member)
  | front blank =>
      rw [List.mem_append]
      exact not_or_intro (fun member => (blank _ member).2 rfl) free
  | back blank =>
      rw [List.mem_append]
      exact not_or_intro free (fun member => (blank _ member).2 rfl)

/-! ## The number of a line -/

theorem readAddress_later (n k : Nat) (cs : List Char) :
    readAddress (n + k) cs = (readAddress n cs).mapError (·.later k) := by
  unfold readAddress
  split
  · rfl
  · split <;> rfl

theorem readWord_later (n k : Nat) (cs : List Char) :
    readWord (n + k) cs = (readWord n cs).mapError (·.later k) := by
  unfold readWord
  split <;> rfl

/-- **The number of a line shows in its errors only.** -/
theorem readLine_later (n k : Nat) (l : List Char) :
    readLine (n + k) l = (readLine n l).mapError (·.later k) := by
  unfold readLine
  dsimp only
  split
  · rfl
  split
  · rw [readAddress_later, mapError_map]
  · simp only [readAddress_later, readWord_later, mapError_bind]
    rfl

theorem line?_of_readAddress {n : Nat} {cs : List Char} {e : ImageError}
    (h : readAddress n cs = .error e) : e.line? = some n := by
  unfold readAddress at h
  split at h
  · cases h
    rfl
  · split at h <;> cases h
    rfl

theorem line?_of_readWord {n : Nat} {cs : List Char} {e : ImageError}
    (h : readWord n cs = .error e) : e.line? = some n := by
  unfold readWord at h
  split at h <;> cases h
  rfl

/-- An error shows the number of the line that has it. -/
theorem line?_of_readLine {n : Nat} {l : List Char} {e : ImageError}
    (h : readLine n l = .error e) : e.line? = some n := by
  unfold readLine at h
  dsimp only at h
  split at h
  · cases h
  split at h
  · exact line?_of_readAddress (map_eq_error h)
  · rcases bind_eq_error h with first | ⟨a, -, h⟩
    · exact line?_of_readAddress first
    · rcases bind_eq_error h with rest | ⟨w, -, h⟩
      · exact line?_of_readWord rest
      · cases h

/-! ## Line after line -/

variable {ls ls' : List (List Char)}

/-- Lines are read by their contents. -/
theorem readLines_congr (same : ls.map content = ls'.map content) (n : Nat) :
    readLines n ls = readLines n ls' := by
  induction ls generalizing ls' n with
  | nil => rw [List.map_eq_nil_iff.1 same.symm]
  | cons l ls ih =>
      obtain ⟨l', ls', rfl, head, tail⟩ := List.map_eq_cons_iff.1 same.symm
      rw [readLines, readLines, readLine_congr head.symm, ih tail.symm]

/-- Lines further down say the same, and the first bad one is the same. -/
theorem readLines_later (n k : Nat) (ls : List (List Char)) :
    readLines (n + k) ls = (readLines n ls).mapError (·.later k) := by
  induction ls generalizing n with
  | nil => rfl
  | cons l ls ih =>
      simp only [readLines, readLine_later, Nat.add_right_comm n k 1, ih, mapError_bind]
      rfl

/-- **Lines are read one after the other**, each with its number. -/
theorem readLines_append (n : Nat) (xs ys : List (List Char)) :
    readLines n (xs ++ ys) = do
      let front ← readLines n xs
      let back ← readLines (n + xs.length) ys
      return front ++ back := by
  induction xs generalizing n with
  | nil => exact (bind_pure (readLines n ys)).symm
  | cons l xs ih =>
      have number : n + (l :: xs).length = n + 1 + xs.length := by
        rw [List.length_cons]
        omega
      simp only [List.cons_append, readLines, ih, number, bind_assoc, pure_bind]

/-- Reading ends at the first line that is wrong. -/
theorem readLines_eq_error {n : Nat} {e : ImageError} (h : readLines n ls = .error e) :
    ∃ front l back lines, ls = front ++ l :: back ∧ readLines n front = .ok lines ∧
      readLine (n + front.length) l = .error e := by
  induction ls generalizing n with
  | nil => cases h
  | cons l ls ih =>
      rw [readLines] at h
      rcases bind_eq_error h with wrong | ⟨line, first, h⟩
      · exact ⟨[], l, ls, [], rfl, rfl, wrong⟩
      rcases bind_eq_error h with wrong | ⟨lines, -, h⟩
      · obtain ⟨front, bad, back, lines, rfl, read, wrong⟩ := ih wrong
        refine ⟨l :: front, bad, back, line :: lines, rfl, ?_, ?_⟩
        · rw [readLines, first, read]
          rfl
        · rw [List.length_cons, Nat.add_comm front.length, ← Nat.add_assoc]
          exact wrong
      · cases h

/-- Lines without contents are read as nothing, whatever their numbers. -/
theorem readLines_of_blank (blank : ∀ l ∈ ls, content l = []) (n : Nat) :
    readLines n ls = .ok (List.replicate ls.length .blank) := by
  induction ls generalizing n with
  | nil => rfl
  | cons l ls ih =>
      obtain ⟨head, tail⟩ := List.forall_mem_cons.1 blank
      have first : readLine n l = .ok .blank := if_pos head
      rw [readLines, first, ih tail]
      rfl

/-! ## The image of lines -/

/-- A line that gives the start. -/
def SaysStart (l : List Char) : Prop :=
  (headAndRest (content l)).1.map Char.toUpper = ['S', 'T', 'A', 'R', 'T']

instance : DecidablePred SaysStart :=
  fun _ => inferInstanceAs (Decidable (_ = _))

theorem start?_eq_none_iff {n : Nat} {line : Line} (h : readLine n l = .ok line) :
    line.start? = none ↔ ¬ SaysStart l := by
  unfold readLine at h
  unfold SaysStart content
  dsimp only at h
  split at h
  · rename_i blank
    cases h
    rw [blank]
    exact iff_of_true rfl (by decide)
  split at h
  · rename_i start
    obtain ⟨a, -, rfl⟩ := map_eq_ok h
    exact iff_of_false (Option.some_ne_none a) (not_not_intro start)
  · rename_i silent
    obtain ⟨a, -, h⟩ := bind_eq_ok h
    obtain ⟨w, -, h⟩ := bind_eq_ok h
    cases h
    exact iff_of_true rfl silent

theorem starts_eq_nil_iff {n : Nat} {lines : List Line} (h : readLines n ls = .ok lines) :
    lines.filterMap Line.start? = [] ↔ ¬ ∃ l ∈ ls, SaysStart l := by
  induction ls generalizing n lines with
  | nil =>
      cases h
      exact iff_of_true rfl (fun ⟨l, member, _⟩ => List.not_mem_nil member)
  | cons l ls ih =>
      rw [readLines] at h
      obtain ⟨line, first, h⟩ := bind_eq_ok h
      obtain ⟨lines, rest, h⟩ := bind_eq_ok h
      cases h
      have head := start?_eq_none_iff first
      simp only [List.exists_mem_cons_iff, not_or, ← head, ← ih rest,
        List.filterMap_eq_nil_iff, List.forall_mem_cons]

/-- The image of lines behind others: all cells in order, and the start of the last line that
gives one. -/
theorem ofLines_append (xs ys : List Line) :
    ofLines (xs ++ ys) =
      ⟨if ys.filterMap Line.start? = [] then (ofLines xs).start else (ofLines ys).start,
        (ofLines xs).cells ++ (ofLines ys).cells⟩ := by
  unfold ofLines
  rw [List.filterMap_append, List.filterMap_append]
  split
  · rename_i none
    rw [none, List.append_nil]
  · rename_i some
    rw [List.getLast?_append_of_ne_nil _ some]

/-- Blank lines at the end add nothing. -/
theorem ofLines_append_blank (xs : List Line) (k : Nat) :
    ofLines (xs ++ List.replicate k .blank) = ofLines xs := by
  have starts : (List.replicate k Line.blank).filterMap Line.start? = [] := by
    rw [List.filterMap_replicate_of_none rfl]
  have cells : (List.replicate k Line.blank).filterMap Line.cell? = [] := by
    rw [List.filterMap_replicate_of_none rfl]
  rw [ofLines_append, if_pos starts]
  unfold ofLines
  rw [cells, List.append_nil]

theorem readLines_append_blank {bs : List (List Char)} (blank : ∀ l ∈ bs, content l = [])
    (n : Nat) (ls : List (List Char)) :
    ofLines <$> readLines n (ls ++ bs) = ofLines <$> readLines n ls := by
  rw [readLines_append, readLines_of_blank blank]
  cases readLines n ls with
  | error e => rfl
  | ok lines => exact congrArg Except.ok (ofLines_append_blank lines bs.length)

/-! ## The text -/

variable {a b x y z : String}

theorem parse_append (ended : Ended a.toList) (b : String) :
    parse (a ++ b) = do
      let front ← readLines 1 (lines a.toList)
      let back ← (readLines 1 (lines b.toList)).mapError (·.later (lines a.toList).length)
      return ofLines (front ++ back) := by
  unfold parse
  rw [String.toList_append, lines_append ended, readLines_append, readLines_later,
    map_eq_pure_bind, bind_assoc]
  simp only [bind_assoc, pure_bind]

/-- The lines of a text around a line, up to a blank line at the end. -/
theorem read_lines_around {xs l ys : List Char} (ended : Ended xs) (free : '\n' ∉ l)
    (after : ys = [] ∨ ∃ zs, ys = '\n' :: zs) :
    ofLines <$> readLines 1 (lines (xs ++ (l ++ ys))) =
      ofLines <$> readLines 1 (lines xs ++ l :: lines ys.tail) := by
  rw [lines_append ended]
  rcases after with rfl | ⟨zs, rfl⟩
  · rw [List.append_nil, lines_of_notMem free]
    split
    · rename_i none
      have blank : ∀ l' ∈ [l], content l' = [] := by
        rw [none]
        decide
      exact (List.append_nil (lines xs)).symm ▸ (readLines_append_blank blank 1 (lines xs)).symm
    · rfl
  · have whole : ∀ c ∈ l, (c == '\n') = false := by
      intro c member
      exact beq_eq_false_iff_ne.2 fun same => free (same ▸ member)
    rw [lines_append_cons, splitAt_of_forall whole]
    rfl

/-- **Only the contents of a line are read.** -/
theorem read_lines_congr {xs l l' ys : List Char} (ended : Ended xs) (free : '\n' ∉ l)
    (free' : '\n' ∉ l') (same : content l' = content l)
    (after : ys = [] ∨ ∃ zs, ys = '\n' :: zs) :
    ofLines <$> readLines 1 (lines (xs ++ (l' ++ ys))) =
      ofLines <$> readLines 1 (lines (xs ++ (l ++ ys))) := by
  rw [read_lines_around ended free after, read_lines_around ended free' after]
  refine congrArg (ofLines <$> ·) (readLines_congr ?_ 1)
  rw [List.map_append, List.map_append, List.map_cons, List.map_cons, same]

/-- A text is read up to its first bad line, and the error shows the number of that line. -/
theorem first_bad_line {text : String} {e : ImageError} (h : parse text = .error e) :
    ∃ front l back said, lines text.toList = front ++ l :: back ∧
      readLines 1 front = .ok said ∧ readLine (front.length + 1) l = .error e ∧
      e.line? = some (front.length + 1) := by
  obtain ⟨front, l, back, said, parts, good, bad⟩ := readLines_eq_error (map_eq_error h)
  rw [Nat.add_comm] at bad
  exact ⟨front, l, back, said, parts, good, bad, line?_of_readLine bad⟩

theorem parse_append_of_error {e : ImageError} (ended : Ended a.toList)
    (bad : parse a = .error e) (b : String) : parse (a ++ b) = .error e := by
  rw [parse_append ended, map_eq_error bad]
  rfl

theorem parse_append_of_error_right {A : Image} {e : ImageError} (ended : Ended a.toList)
    (good : parse a = .ok A) (bad : parse b = .error e) :
    parse (a ++ b) = .error (e.later (lines a.toList).length) := by
  obtain ⟨front, read, -⟩ := map_eq_ok good
  rw [parse_append ended, read, map_eq_error bad]
  rfl

theorem parse_append_of_ok {A B : Image} (ended : Ended a.toList) (good : parse a = .ok A)
    (good' : parse b = .ok B) :
    parse (a ++ b) =
      .ok ⟨if ∃ l ∈ lines b.toList, SaysStart l then B.start else A.start,
        A.cells ++ B.cells⟩ := by
  obtain ⟨front, read, rfl⟩ := map_eq_ok good
  obtain ⟨back, read', rfl⟩ := map_eq_ok good'
  have starts := starts_eq_nil_iff read'
  rw [parse_append ended, read, read']
  refine congrArg Except.ok ((ofLines_append front back).trans ?_)
  simp only [starts, ite_not]

theorem parse_congr_line {l l' : String} (ended : Ended x.toList) (free : '\n' ∉ l.toList)
    (free' : '\n' ∉ l'.toList) (same : content l'.toList = content l.toList)
    (after : y = "" ∨ ∃ z, y = "\n" ++ z) : parse (x ++ (l' ++ y)) = parse (x ++ (l ++ y)) := by
  have after' : y.toList = [] ∨ ∃ zs, y.toList = '\n' :: zs := by
    rcases after with rfl | ⟨z, rfl⟩
    · exact .inl rfl
    · exact .inr ⟨z.toList, String.toList_append⟩
  simp only [parse, String.toList_append]
  exact read_lines_congr ended free free' same after'

theorem parse_retouched {l l' tail : String} (ended : Ended x.toList) (free : '\n' ∉ l.toList)
    (touched : Retouched l.toList l'.toList)
    (blank : ∀ c ∈ tail.toList, isBlank c = true ∧ c ≠ '\n')
    (after : y = "" ∨ ∃ z, y = "\n" ++ z) :
    parse (x ++ (l' ++ tail ++ y)) = parse (x ++ (l ++ tail ++ y)) := by
  have behind : ∀ c ∈ tail.toList, isBlank c = true := fun c member => (blank c member).1
  have one : ∀ {s : String}, '\n' ∉ s.toList → '\n' ∉ (s ++ tail).toList := by
    intro s free
    rw [String.toList_append, List.mem_append]
    exact not_or_intro free fun member => (blank _ member).2 rfl
  refine parse_congr_line ended (one free) (one (touched.notMem free)) ?_ after
  rw [String.toList_append, String.toList_append, content_append_right behind,
    content_append_right behind, touched.content_eq]

theorem parse_append_blank (ended : Ended a.toList)
    (blank : ∀ l ∈ lines z.toList, content l = []) : parse (a ++ z) = parse a := by
  unfold parse
  rw [String.toList_append, lines_append ended, readLines_append_blank blank]

/-- A line feed at the end of a text ends its last line, or a blank one. -/
theorem parse_append_newline (a : String) : parse (a ++ "\n") = parse a := by
  obtain ⟨bs, pieces, blank⟩ := splitAt_eq_lines_append a.toList
  have feed : "\n".toList = '\n' :: [] := rfl
  unfold parse
  rw [String.toList_append, feed, lines_append_cons, pieces]
  refine (congrArg (ofLines <$> readLines 1 ·) (List.append_nil _)).trans ?_
  refine readLines_append_blank ?_ 1 _
  intro l member
  rw [blank l member]
  rfl

/-- **A text is read line by line.** Behind ended lines a text says what it says alone: the
first error stands, an error behind it shows a number that is the lines in front greater, and
two images are put one behind the other, with the start of the text behind if that gives one.
An error is that of the first bad line. A line may be cut at its first semicolon or have white
space put around it, in front of a carriage return too; and lines that say nothing may be put
behind the last. -/
theorem parse_line_by_line :
    (∀ a b : String, Ended a.toList →
      (∀ e, parse a = .error e → parse (a ++ b) = .error e) ∧
      (∀ A e, parse a = .ok A → parse b = .error e →
        parse (a ++ b) = .error (e.later (lines a.toList).length)) ∧
      (∀ A B, parse a = .ok A → parse b = .ok B →
        parse (a ++ b) =
          .ok ⟨if ∃ l ∈ lines b.toList, SaysStart l then B.start else A.start,
            A.cells ++ B.cells⟩)) ∧
    (∀ text e, parse text = .error e →
      ∃ front l back said, lines text.toList = front ++ l :: back ∧
        readLines 1 front = .ok said ∧ readLine (front.length + 1) l = .error e ∧
        e.line? = some (front.length + 1)) ∧
    (∀ x l l' tail y : String, Ended x.toList → '\n' ∉ l.toList →
      Retouched l.toList l'.toList → (∀ c ∈ tail.toList, isBlank c = true ∧ c ≠ '\n') →
      (y = "" ∨ ∃ z, y = "\n" ++ z) →
      parse (x ++ (l' ++ tail ++ y)) = parse (x ++ (l ++ tail ++ y))) ∧
    (∀ a z : String, (∀ l ∈ lines z.toList, content l = []) →
      (Ended a.toList → parse (a ++ z) = parse a) ∧ parse (a ++ "\n" ++ z) = parse a) := by
  refine ⟨?_, ?_, ?_, ?_⟩
  · intro a b ended
    exact ⟨fun e bad => parse_append_of_error ended bad b,
      fun A e good bad => parse_append_of_error_right ended good bad,
      fun A B good good' => parse_append_of_ok ended good good'⟩
  · intro text e bad
    exact first_bad_line bad
  · intro x l l' tail y ended free touched blank after
    exact parse_retouched ended free touched blank after
  · intro a z blank
    refine ⟨fun ended => parse_append_blank ended blank, ?_⟩
    have ended : Ended (a ++ "\n").toList := by
      refine .inr ?_
      rw [String.toList_append]
      exact List.getLast?_concat
    rw [parse_append_blank ended blank, parse_append_newline]

/-- A program of two lines behind one that is wrong, in front of one that is wrong and of one
that starts elsewhere; with one of its lines indented, and with a comment behind it. -/
theorem parse_line_by_line_program :
    parse ("4000 1\n" ++ "START 7\r\n0 1\n") = .error (.addressOutOfRange 1 4000) ∧
      parse ("START 7\r\n0 1\n" ++ "1 -2 ; two\n4000 1") = .error (.addressOutOfRange 4 4000) ∧
      parse ("START 7\r\n0 1\n" ++ "start 9\n1 2") = .ok ⟨9, [(0, ⟨1⟩), (1, ⟨2⟩)]⟩ ∧
      parse ("" ++ ("\tSTART 7" ++ "\r" ++ "\n0 1\n")) = .ok ⟨7, [(0, ⟨1⟩)]⟩ ∧
      parse ("START 7\r\n0 1\n" ++ "\n" ++ " ; done\n") = .ok ⟨7, [(0, ⟨1⟩)]⟩ := by
  have program : parse "START 7\r\n0 1\n" = .ok ⟨7, [(0, ⟨1⟩)]⟩ := by decide +kernel
  have outside : parse "4000 1\n" = .error (.addressOutOfRange 1 4000) := by decide +kernel
  have wrong : parse "1 -2 ; two\n4000 1" = .error (.addressOutOfRange 2 4000) := by
    decide +kernel
  have elsewhere : parse "start 9\n1 2" = .ok ⟨9, [(1, ⟨2⟩)]⟩ := by decide +kernel
  obtain ⟨appended, -, edited, extended⟩ := parse_line_by_line
  have front := appended "4000 1\n" "START 7\r\n0 1\n" (.inr (by decide))
  have back := appended "START 7\r\n0 1\n" "1 -2 ; two\n4000 1" (.inr (by decide))
  have both := appended "START 7\r\n0 1\n" "start 9\n1 2" (.inr (by decide))
  have tab : Retouched "START 7".toList (['\t'] ++ "START 7".toList) :=
    .front (List.forall_mem_singleton.2 (by decide))
  have indented := edited "" "START 7" "\tSTART 7" "\r" "\n0 1\n" (.inl rfl) (by decide)
    tab (List.forall_mem_singleton.2 (by decide)) (.inr ⟨"0 1\n", by decide⟩)
  refine ⟨front.1 _ outside, back.2.1 _ _ program wrong, ?_, ?_, ?_⟩
  · exact (both.2.2 _ _ program elsewhere).trans (by decide +kernel)
  · exact indented.trans program
  · exact (extended _ " ; done\n" (by decide)).2.trans program

end Image

end MixMachine
