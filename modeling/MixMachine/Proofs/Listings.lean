import MixMachine.Listing
import MixMachine.Proofs.Disassembly
import MixMachine.Proofs.WordText

/-!
# A listing loses nothing

A listing has three lines of heading and one line for each word. The line of a word comes
apart at its first colon and its last semicolon, although fields have colons of their own: the
address in front has none, and neither has the word behind a semicolon. The address and the
word are read back from their parts, so the listing determines the words, and the address of
the first of them.

* `Text.Parted.unique`: a text has one first colon and one last semicolon.
* `Listing.lines_text`: the lines of a listing.
* `Listing.shows_row`: what the line of a word shows, and in which part of it.
* `Listing.listing_loses_nothing`: the lines, what they show, and listings one behind the other.
* `Listing.text_injective`: the words from the listing.
-/

namespace MixMachine

/-- A text around its first `c` and its last `d`, which stands behind that. -/
structure Text.Parted (c d : Char) (text front middle back : List Char) : Prop where
  whole : text = front ++ c :: (middle ++ d :: back)
  first : c ∉ front
  last : d ∉ back

/-- **A text comes apart in one way.** -/
theorem Text.Parted.unique {c d : Char} {text front middle back front' middle' back' : List Char}
    (h : Parted c d text front middle back) (h' : Parted c d text front' middle' back') :
    front = front' ∧ middle = middle' ∧ back = back' := by
  obtain ⟨fronts, rests⟩ := append_cons_inj h.first h'.first (h.whole.symm.trans h'.whole)
  -- from the other end, the last `d` is the first one
  have mirrored := congrArg List.reverse rests
  simp only [List.reverse_append, List.reverse_cons, List.append_assoc, List.singleton_append]
    at mirrored
  obtain ⟨backs, middles⟩ := append_cons_inj (fun member => h.last (List.mem_reverse.1 member))
    (fun member => h'.last (List.mem_reverse.1 member)) mirrored
  exact ⟨fronts, List.reverse_injective middles, List.reverse_injective backs⟩

namespace Listing

variable {origin address : Nat} {w : Word} {ws vs : List Word}

/-! ## Lines -/

/-- The lines above those of the words. -/
def heading : List (List Char) :=
  ["; MIX Disassembly".toList, "; ---------------".toList, []]

/-- The line of the word at an address, without the line feed that ends it. -/
def row (address : Nat) (w : Word) : List Char :=
  (Decimal.padded 4 address).toList ++ ':' ::
    ((' ' :: ((padRight 24 (Instruction.disassemble w)).toList ++ [' '])) ++
      ';' :: ' ' :: w.text.toList)

/-- The lines of words that stand at addresses from `origin` on. -/
def rows (origin : Nat) : List Word → List (List Char)
  | [] => []
  | w :: ws => row origin w :: rows (origin + 1) ws

theorem toList_line (address : Nat) (w : Word) :
    (line address w).toList = row address w ++ ['\n'] := by
  have colon : ": ".toList = [':', ' '] := by decide
  have semicolon : " ; ".toList = [' ', ';', ' '] := by decide
  have ending : "\n".toList = ['\n'] := by decide
  unfold line row
  simp only [String.toList_append, colon, semicolon, ending, List.append_assoc, List.cons_append,
    List.nil_append]

theorem toList_body (origin : Nat) (ws : List Word) :
    (body origin ws).toList = (rows origin ws).flatMap fun r => r ++ ['\n'] := by
  induction ws generalizing origin with
  | nil => rfl
  | cons w ws ih => rw [body, String.toList_append, toList_line, ih, rows, List.flatMap_cons]

theorem toList_header : header.toList = heading.flatMap fun l => l ++ ['\n'] := by
  decide

theorem length_rows (origin : Nat) (ws : List Word) : (rows origin ws).length = ws.length := by
  induction ws generalizing origin with
  | nil => rfl
  | cons w ws ih => rw [rows, List.length_cons, List.length_cons, ih]

theorem getElem?_rows (origin i : Nat) (ws : List Word) :
    (rows origin ws)[i]? = ws[i]?.map (row (origin + i)) := by
  induction ws generalizing origin i with
  | nil => rfl
  | cons w ws ih =>
      cases i with
      | zero => rfl
      | succ i =>
          rw [rows, List.getElem?_cons_succ, List.getElem?_cons_succ, ih, Nat.add_right_comm,
            Nat.add_assoc]

/-- **Listings go on one behind the other.** -/
theorem body_append (origin : Nat) (ws vs : List Word) :
    body origin (ws ++ vs) = body origin ws ++ body (origin + ws.length) vs := by
  induction ws generalizing origin with
  | nil => exact String.empty_append.symm
  | cons w ws ih =>
      rw [List.cons_append, body, body, ih, String.append_assoc, List.length_cons,
        Nat.add_right_comm, Nat.add_assoc]

/-- The instruction of a word is written in one line, without a semicolon. -/
theorem notMem_disassemble {c : Char} (other : ¬ Instruction.Notates c) (known : c ≠ '?')
    (w : Word) : c ∉ (Instruction.disassemble w).toList := by
  intro member
  cases decoded : Instruction.decode w with
  | error e =>
      have unknown : "???".toList = List.replicate 3 '?' := by decide
      rw [Instruction.disassemble, decoded] at member
      dsimp only at member
      rw [unknown] at member
      exact known (List.eq_of_mem_replicate member)
  | ok i =>
      rw [Instruction.disassemble_of_decode decoded] at member
      exact other (Instruction.notates_of_mem_text (Instruction.code?_ne_none_of_decode decoded)
        c member)

theorem notMem_row (address : Nat) (w : Word) : '\n' ∉ row address w := by
  have number : '\n' ∉ (Decimal.padded 4 address).toList :=
    Decimal.notMem_of_natural? (Decimal.natural?_padded 4 address) rfl
  have shown : '\n' ∉ (padRight 24 (Instruction.disassemble w)).toList :=
    notMem_padRight (notMem_disassemble (by decide) (by decide) w) (by decide)
  have word : '\n' ∉ w.text.toList := w.notMem_text rfl (by decide) rfl
  simp [row, number, shown, word]

/-- **The lines of a listing**: the heading and one line for each word. -/
theorem lines_text (origin : Nat) (ws : List Word) :
    Text.lines (text origin ws).toList = heading ++ rows origin ws := by
  have joined : (text origin ws).toList =
      (heading ++ rows origin ws).flatMap fun l => l ++ ['\n'] := by
    rw [text, String.toList_append, toList_header, toList_body, List.flatMap_append]
  rw [joined, Text.lines_ended]
  have above : ∀ l ∈ heading, '\n' ∉ l := by decide
  refine List.forall_mem_append.2 ⟨above, fun l member => ?_⟩
  obtain ⟨i, listed⟩ := List.getElem?_of_mem member
  rw [getElem?_rows] at listed
  obtain ⟨w, -, rfl⟩ := Option.map_eq_some_iff.1 listed
  exact notMem_row _ w

/-! ## What a line shows -/

/-- **The line `row` shows the word `w` and its address**: the address in front of the first
colon, with at least four digits, then the instruction between blanks, in at least 24
characters, and behind the last semicolon a text that the word is read from. -/
structure Shows (row digits shown back : List Char) (address : Nat) (w : Word) : Prop where
  parted : Text.Parted ':' ';' row digits (' ' :: (shown ++ [' '])) back
  number : Decimal.natural? digits = some address
  length : digits.length = max 4 (Decimal.digits address).length
  instruction : ∃ k, shown = (Instruction.disassemble w).toList ++ List.replicate k ' '
  width : shown.length = max 24 (Instruction.disassemble w).length
  word : Word.parse back = .ok w

theorem shows_row (address : Nat) (proper : w.Proper) :
    Shows (row address w) (Decimal.padded 4 address).toList
      (padRight 24 (Instruction.disassemble w)).toList (' ' :: w.text.toList) address w where
  parted := {
    whole := rfl
    first := Decimal.notMem_of_natural? (Decimal.natural?_padded 4 address) rfl
    last := List.not_mem_cons_of_ne_of_not_mem (by decide) (w.notMem_text rfl (by decide) rfl) }
  number := Decimal.natural?_padded 4 address
  length := by
    unfold Decimal.padded
    rw [String.toList_ofList, List.length_append, List.length_replicate]
    omega
  instruction := ⟨_, toList_padRight 24 _⟩
  width := (String.length_toList).trans (length_padRight 24 _)
  word := by
    have read := w.parse_text_canonical
    rw [proper.canonical_eq] at read
    rw [← read, Word.parse, Word.parse, Text.trim_cons rfl]

/-- A line shows one word, at one address. -/
theorem Shows.unique {row digits shown back digits' shown' back' : List Char} {address' : Nat}
    {w' : Word} (h : Shows row digits shown back address w)
    (h' : Shows row digits' shown' back' address' w') : address = address' ∧ w = w' := by
  obtain ⟨rfl, -, rfl⟩ := h.parted.unique h'.parted
  exact ⟨Option.some.inj (h.number.symm.trans h'.number),
    Except.ok.inj (h.word.symm.trans h'.word)⟩

/-- **A listing loses nothing.** Its lines are those of the heading, in which nothing varies,
and one for each word, in their order, which shows the word and its address. The lines of words
that follow others are those of a listing of their own, from the address behind the others on. -/
theorem listing_loses_nothing (origin : Nat) (ws : List Word) (proper : ∀ w ∈ ws, w.Proper) :
    (∃ ls : List (List Char),
      (text origin ws).toList =
        "; MIX Disassembly\n; ---------------\n\n".toList ++ ls.flatMap (· ++ ['\n']) ∧
      Text.lines (text origin ws).toList =
        ["; MIX Disassembly".toList, "; ---------------".toList, []] ++ ls ∧
      ls.length = ws.length ∧
      ∀ i w, ws[i]? = some w → ∃ l digits shown back,
        ls[i]? = some l ∧ Shows l digits shown back (origin + i) w) ∧
    ∀ vs, body origin (ws ++ vs) = body origin ws ++ body (origin + ws.length) vs := by
  refine ⟨⟨rows origin ws, ?_, lines_text origin ws, length_rows origin ws, ?_⟩,
    body_append origin ws⟩
  · rw [text, String.toList_append, toList_body]
    rfl
  · intro i w listed
    have shows := shows_row (origin + i) (proper w (List.mem_of_getElem? listed))
    exact ⟨_, _, _, _, by rw [getElem?_rows, listed]; rfl, shows⟩

/-- A store whose field is written, at 9999, and behind it, at an address of five digits, a word
that is no instruction. -/
theorem listing_loses_nothing_wide :
    ∃ first second,
      Text.lines (text 9999 [Instruction.assemble 2000 3 5 32, ⟨0x7008⟩]).toList =
        ["; MIX Disassembly".toList, "; ---------------".toList, [], first, second] ∧
      (∃ digits shown back,
        Shows first digits shown back 9999 (Instruction.assemble 2000 3 5 32)) ∧
      ∃ digits shown back, Shows second digits shown back 10000 ⟨0x7008⟩ := by
  have proper : ∀ w ∈ [Instruction.assemble 2000 3 5 32, ⟨0x7008⟩], w.Proper := by decide
  obtain ⟨⟨ls, -, lines, length, shown⟩, -⟩ := listing_loses_nothing 9999 _ proper
  obtain ⟨first, second, rfl⟩ := List.length_eq_two.1 length
  obtain ⟨l₀, digits₀, shown₀, back₀, listed₀, shows₀⟩ := shown 0 _ rfl
  obtain ⟨l₁, digits₁, shown₁, back₁, listed₁, shows₁⟩ := shown 1 _ rfl
  cases listed₀
  cases listed₁
  exact ⟨first, second, lines, ⟨digits₀, shown₀, back₀, shows₀⟩, digits₁, shown₁, back₁, shows₁⟩

/-- Equal lines are lines of the same words, from the same address on. -/
theorem eq_of_rows {start : Nat} (hw : ∀ w ∈ ws, w.Proper) (hv : ∀ v ∈ vs, v.Proper)
    (same : rows origin ws = rows start vs) : ws = vs ∧ (ws ≠ [] → origin = start) := by
  induction ws generalizing origin start vs with
  | nil =>
      cases vs with
      | nil => exact ⟨rfl, fun some => absurd rfl some⟩
      | cons v vs => cases same
  | cons w ws ih =>
      cases vs with
      | nil => cases same
      | cons v vs =>
          obtain ⟨properW, restW⟩ := List.forall_mem_cons.1 hw
          obtain ⟨properV, restV⟩ := List.forall_mem_cons.1 hv
          obtain ⟨lines, rest⟩ := List.cons.inj same
          have shows := shows_row origin properW
          rw [lines] at shows
          obtain ⟨rfl, rfl⟩ := shows.unique (shows_row start properV)
          obtain ⟨rfl, -⟩ := ih restW restV rest
          exact ⟨rfl, fun _ => rfl⟩

/-- **The listing determines the words**, and where they stand. -/
theorem text_injective {start : Nat} (hw : ∀ w ∈ ws, w.Proper) (hv : ∀ v ∈ vs, v.Proper)
    (same : text origin ws = text start vs) : ws = vs ∧ (ws ≠ [] → origin = start) := by
  have lines := lines_text origin ws
  rw [same, lines_text] at lines
  exact eq_of_rows hw hv (List.append_cancel_left lines).symm

end Listing

end MixMachine
