import Mathlib.Data.List.Basic
import Mathlib.Data.List.TakeWhile
import MixMachine.Text.Blank

/-!
# Splitting and trimming written texts

A text that was put together from pieces comes apart into these pieces when no piece has
a separator of its own. Everything about splitting follows from one equation, that of a
text around a separator; everything about trimming from the fact that a solid piece at an
end of a text stops it.

* `Text.splitAt_append_cons`: a text around a separator.
* `Text.words_spaced`: pieces behind blanks are the words of the text.
* `Text.lines_ended`, `Text.lines_join`: pieces that a line feed ends are the lines of the text.
* `Text.headAndRest_append`: the first piece of a line and what stands behind it.
* `Text.append_inj_of_stop`: a front of characters of one kind is told from the rest.
* `Text.append_cons_inj`: a text up to a character is told from what follows.
-/

namespace MixMachine.Text

variable {isSeparator : Char → Bool} {c : Char} {first last xs ys rest : List Char}

/-! ## Pieces between separators -/

theorem splitAt_ne_nil (isSeparator : Char → Bool) (cs : List Char) :
    splitAt isSeparator cs ≠ [] := by
  cases cs with
  | nil => exact List.cons_ne_nil _ _
  | cons c cs =>
      unfold splitAt
      split
      · exact List.cons_ne_nil _ _
      · cases splitAt isSeparator cs <;> exact List.cons_ne_nil _ _

theorem consFirst_append {pieces : List (List Char)} (some : pieces ≠ [])
    (more : List (List Char)) : consFirst c (pieces ++ more) = consFirst c pieces ++ more := by
  cases pieces with
  | nil => exact absurd rfl some
  | cons piece pieces => rfl

/-- **A separator parts the pieces in front of it from those behind it.** -/
theorem splitAt_append_cons (separates : isSeparator c = true) (xs ys : List Char) :
    splitAt isSeparator (xs ++ c :: ys) = splitAt isSeparator xs ++ splitAt isSeparator ys := by
  induction xs with
  | nil =>
      show (if isSeparator c then [] :: splitAt isSeparator ys else _) = _
      rw [if_pos separates]
      rfl
  | cons x xs ih =>
      rw [List.cons_append, splitAt, splitAt, ih]
      split
      · rfl
      · exact consFirst_append (splitAt_ne_nil _ _) _

/-- A text without a separator is one piece. -/
theorem splitAt_of_forall (free : ∀ x ∈ xs, isSeparator x = false) :
    splitAt isSeparator xs = [xs] := by
  induction xs with
  | nil => rfl
  | cons x xs ih =>
      obtain ⟨head, tail⟩ := List.forall_mem_cons.1 free
      rw [splitAt, if_neg (Bool.not_eq_true _ ▸ head), ih tail]
      rfl

/-! ## Words -/

/-- A text that is not empty and has no white space. -/
structure Solid (cs : List Char) : Prop where
  ne_nil : cs ≠ []
  free : ∀ c ∈ cs, isBlank c = false

theorem solid_iff :
    Solid xs ↔ (!xs.isEmpty && xs.all fun c => !isBlank c) = true := by
  rw [Bool.and_eq_true, Bool.not_eq_true', List.isEmpty_eq_false_iff, List.all_eq_true]
  simp only [Bool.not_eq_true']
  exact ⟨fun h => ⟨h.ne_nil, h.free⟩, fun h => ⟨h.1, h.2⟩⟩

instance : Decidable (Solid xs) :=
  decidable_of_iff _ solid_iff.symm

theorem words_append_cons (blank : isBlank c = true) (xs ys : List Char) :
    words (xs ++ c :: ys) = words xs ++ words ys := by
  unfold words
  rw [splitAt_append_cons blank, List.filter_append]

/-- A solid text is one word. -/
theorem Solid.words (h : Solid xs) : Text.words xs = [xs] := by
  unfold Text.words
  rw [splitAt_of_forall h.free]
  exact List.filter_cons_of_pos (decide_eq_true h.ne_nil)

/-- **Solid pieces, each behind a blank, are the words of the text**, after those of the
text in front of them. -/
theorem words_spaced {pieces : List (List Char)} (solid : ∀ p ∈ pieces, Solid p)
    (xs : List Char) :
    words (xs ++ pieces.flatMap fun p => ' ' :: p) = words xs ++ pieces := by
  induction pieces generalizing xs with
  | nil => rw [List.flatMap_nil, List.append_nil, List.append_nil]
  | cons p pieces ih =>
      obtain ⟨head, tail⟩ := List.forall_mem_cons.1 solid
      rw [List.flatMap_cons, ← List.append_assoc, ih tail, words_append_cons rfl, head.words,
        List.append_assoc, List.singleton_append]

/-! ## Trimming -/

/-- A solid front stops the trimming at the front. -/
theorem Solid.trimLeft (h : Solid first) (rest : List Char) :
    Text.trimLeft (first ++ rest) = first ++ rest := by
  obtain ⟨some, free⟩ := h
  cases first with
  | nil => exact absurd rfl some
  | cons c first =>
      have head := free c (List.mem_cons_self ..)
      exact List.dropWhile_cons_of_neg (Bool.not_eq_true _ ▸ head)

/-- A solid end stops the trimming at the end. -/
theorem Solid.trimRight (h : Solid last) (xs : List Char) :
    Text.trimRight (xs ++ last) = xs ++ last := by
  have turned : Solid last.reverse :=
    ⟨fun none => h.ne_nil (List.reverse_eq_nil_iff.1 none),
      fun c member => h.free c (List.mem_reverse.1 member)⟩
  have kept := turned.trimLeft xs.reverse
  unfold Text.trimLeft at kept
  unfold Text.trimRight
  rw [List.reverse_append, kept, List.reverse_append, List.reverse_reverse, List.reverse_reverse]

/-- A text between solid ends has nothing to trim. -/
theorem trim_between (front : Solid first) (back : Solid last) (xs : List Char) :
    trim (first ++ (xs ++ last)) = first ++ (xs ++ last) := by
  unfold trim
  rw [front.trimLeft, ← List.append_assoc, back.trimRight]

theorem Solid.trim (h : Solid xs) : Text.trim xs = xs := by
  have front := h.trimLeft []
  have back := h.trimRight []
  rw [List.append_nil] at front
  rw [List.nil_append] at back
  unfold Text.trim
  rw [front, back]

/-- Solid pieces behind a solid front have nothing to trim. -/
theorem trim_spaced {pieces : List (List Char)} (front : Solid first)
    (solid : ∀ p ∈ pieces, Solid p) :
    trim (first ++ pieces.flatMap fun p => ' ' :: p) =
      first ++ pieces.flatMap fun p => ' ' :: p := by
  rcases List.eq_nil_or_concat' pieces with rfl | ⟨others, p, rfl⟩
  · rw [List.flatMap_nil, List.append_nil, front.trim]
  · have back := solid p (List.mem_append_right _ (List.mem_singleton.2 rfl))
    have parted : (others ++ [p]).flatMap (fun p => ' ' :: p) =
        (others.flatMap (fun p => ' ' :: p) ++ [' ']) ++ p := by
      rw [List.flatMap_append, List.flatMap_singleton, List.append_assoc, List.singleton_append]
    rw [parted, trim_between front back]

theorem trim_cons (blank : isBlank c = true) (xs : List Char) : trim (c :: xs) = trim xs := by
  unfold trim trimLeft
  rw [List.dropWhile_cons_of_pos blank]

/-- The first piece of a line, and what stands behind the blank that ends it. -/
theorem headAndRest_append (front : Solid first) (trimmed : trim rest = rest) :
    headAndRest (first ++ ' ' :: rest) = (first, rest) := by
  have keep : ∀ x ∈ first, (!isBlank x) = true := by
    intro x member
    rw [front.free x member]
    rfl
  unfold headAndRest
  rw [List.takeWhile_append_of_pos keep, List.dropWhile_append_of_pos keep]
  show (first ++ [], trim (' ' :: rest)) = _
  rw [List.append_nil, trim_cons rfl, trimmed]

/-- Two texts that go on with characters of one kind, in front of rests that do not, are
equal only part by part. -/
theorem append_inj_of_stop {goesOn : Char → Bool} {as bs : List Char}
    (hx : ∀ c ∈ xs, goesOn c = true) (hy : ∀ c ∈ ys, goesOn c = true)
    (ha : ∀ c ∈ as.head?, goesOn c = false) (hb : ∀ c ∈ bs.head?, goesOn c = false)
    (same : xs ++ as = ys ++ bs) : xs = ys ∧ as = bs := by
  have front : ∀ {l r : List Char}, (∀ c ∈ l, goesOn c = true) →
      (∀ c ∈ r.head?, goesOn c = false) → (l ++ r).takeWhile goesOn = l := by
    intro l r kept stop
    rw [List.takeWhile_append_of_pos kept]
    cases r with
    | nil => exact List.append_nil l
    | cons c r =>
        rw [List.takeWhile_cons_of_neg (Bool.not_eq_true _ ▸ stop c rfl), List.append_nil]
  have fronts := front hx ha
  rw [same, front hy hb] at fronts
  subst fronts
  exact ⟨rfl, List.append_cancel_left same⟩

/-- Two texts without a character, in front of that character, are told from what follows. -/
theorem append_cons_inj {as bs : List Char} (hx : c ∉ xs) (hy : c ∉ ys)
    (same : xs ++ c :: as = ys ++ c :: bs) : xs = ys ∧ as = bs := by
  have goesOn : ∀ {l : List Char}, c ∉ l → ∀ x ∈ l, (x != c) = true :=
    fun free x member => bne_iff_ne.2 fun stop => free (stop ▸ member)
  have stops : ∀ {l : List Char}, ∀ x ∈ (c :: l).head?, (x != c) = false := by
    rintro l x ⟨⟩
    exact bne_self_eq_false c
  obtain ⟨fronts, rests⟩ := append_inj_of_stop (goesOn hx) (goesOn hy) stops stops same
  exact ⟨fronts, (List.cons.inj rests).2⟩

/-! ## Lines -/

/-- **Texts without a line feed, each ended by one, are the lines of the text.** -/
theorem lines_ended {ls : List (List Char)} (free : ∀ l ∈ ls, '\n' ∉ l) :
    lines (ls.flatMap fun l => l ++ ['\n']) = ls := by
  have pieces : splitAt (· == '\n') (ls.flatMap fun l => l ++ ['\n']) = ls ++ [[]] := by
    induction ls with
    | nil => rfl
    | cons l ls ih =>
        obtain ⟨head, tail⟩ := List.forall_mem_cons.1 free
        have whole : ∀ x ∈ l, (x == '\n') = false := by
          intro x member
          exact beq_eq_false_iff_ne.2 fun same => head (same ▸ member)
        rw [List.flatMap_cons, List.append_assoc, List.singleton_append,
          splitAt_append_cons rfl, splitAt_of_forall whole, ih tail]
        rfl
  unfold lines
  rw [pieces]
  dsimp only
  rw [List.getLast?_concat, if_pos rfl, List.dropLast_concat]

/-- A text of entries that end in line feeds has one line for each of them. -/
theorem lines_join {α : Type} {entries : List α} {entry : α → String} {line : α → List Char}
    (ended : ∀ x, (entry x).toList = line x ++ ['\n'])
    (free : ∀ x ∈ entries, '\n' ∉ line x) :
    lines (String.join (entries.map entry)).toList = entries.map line := by
  have joined : (String.join (entries.map entry)).toList =
      (entries.map line).flatMap fun l => l ++ ['\n'] := by
    rw [String.toList_join, List.flatMap_map, List.flatMap_map]
    simp only [ended]
  rw [joined, lines_ended (List.forall_mem_map.2 free)]

theorem beforeComment_of_notMem (free : ';' ∉ xs) : beforeComment xs = xs := by
  apply List.takeWhile_eq_self_iff.2
  intro x member
  exact decide_eq_true fun same => free (same ▸ member)

end MixMachine.Text
