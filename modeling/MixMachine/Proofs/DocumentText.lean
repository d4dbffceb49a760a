import Mathlib.Data.List.Forall2
import MixMachine.Json.Reader
import MixMachine.Json.Writer
import MixMachine.Proofs.Numerals

/-!
# A document is read back from its text

Reading a document takes its characters to tokens and its tokens to a value. The two halves meet
at the tokens that a document is made of, which do not depend on how it is laid out. A bare word
has no end of its own, so what is written is told from what stands behind it only when that
starts with white space or punctuation; a written document never puts anything else there.

* `Json.Textual`: the documents that can be written without loss.
* `Json.spells_write`: a written document, in any layout, spells its tokens.
* `Json.forms_tokens`: the tokens of a document form it.
* `Json.parse?_write`: a document is read back; `Json.parse?_compact` and `Json.parse?_pretty` are
  this for the two layouts that there are.
-/

namespace MixMachine.Json

/-- A document whose numbers are natural and whose strings and keys are text. -/
inductive Textual : Json → Prop
  | null : Textual .null
  | bool (b : Bool) : Textual (.bool b)
  | natural (n : Nat) : Textual (.natural n)
  | string (s : String) : Textual (.string (some s))
  | list {items : List Json} : (∀ v ∈ items, Textual v) → Textual (.list items)
  | object {members : List (Option String × Json)} :
      (∀ m ∈ members, m.1.isSome) → (∀ m ∈ members, Textual m.2) → Textual (.object members)

/-! ## The tokens of a document -/

/-- The tokens of parts between brackets, with commas between the parts. -/
def enclosed (opening closing : Token) (parts : List (List Token)) : List Token :=
  opening :: List.intercalate [.comma] parts ++ [closing]

mutual

/-- The tokens that a document is made of. -/
def tokens : Json → List Token
  | list items => enclosed .openList .closeList (itemTokens items)
  | object members => enclosed .openObject .closeObject (memberTokens members)
  | string s => [.string s]
  | v => [.scalar v]

/-- The tokens of the items of a list. -/
def itemTokens : List Json → List (List Token)
  | [] => []
  | v :: items => tokens v :: itemTokens items

/-- The tokens of the members of an object. -/
def memberTokens : List (Option String × Json) → List (List Token)
  | [] => []
  | (key, v) :: members => (.string key :: .colon :: tokens v) :: memberTokens members

end

theorem itemTokens_eq_map (items : List Json) : itemTokens items = items.map tokens := by
  induction items with
  | nil => rfl
  | cons v items ih => rw [itemTokens, ih, List.map_cons]

theorem memberTokens_eq_map (members : List (Option String × Json)) :
    memberTokens members = members.map fun m => .string m.1 :: .colon :: tokens m.2 := by
  induction members with
  | nil => rfl
  | cons m members ih => rw [memberTokens, ih, List.map_cons]

theorem writeItems_eq_map (layout : Layout) (depth : Nat) (items : List Json) :
    writeItems layout depth items = items.map (write layout depth) := by
  induction items with
  | nil => rfl
  | cons v items ih => rw [writeItems, ih, List.map_cons]

theorem writeMembers_eq_map (layout : Layout) (depth : Nat)
    (members : List (Option String × Json)) :
    writeMembers layout depth members =
      members.map fun m => writeText m.1 ++ layout.colon ++ write layout depth m.2 := by
  induction members with
  | nil => rfl
  | cons m members ih => rw [writeMembers, ih, List.map_cons]

/-! ## From characters to tokens -/

namespace TokenReader

variable {ts : List Token} {word cs rest : List Char} {c : Char}

/-- The tokens of a text from where the reader is, the last one first. -/
def scan (r : TokenReader) (cs : List Char) : Option (List Token) :=
  cs.foldlM step r >>= close

theorem scan_cons (r : TokenReader) (c : Char) (cs : List Char) :
    r.scan (c :: cs) = r.step c >>= fun r => r.scan cs := by
  rw [scan, List.foldlM_cons, bind_assoc]
  rfl

theorem scan_space (space : isSpace c = true) :
    scan ⟨ts, .between⟩ (c :: rest) = scan ⟨ts, .between⟩ rest := by
  have stay : step ⟨ts, .between⟩ c = some ⟨ts, .between⟩ := if_pos space
  rw [scan_cons, stay]
  rfl

theorem scan_spaces {spaces : List Char} (blank : ∀ c ∈ spaces, isSpace c = true) :
    scan ⟨ts, .between⟩ (spaces ++ rest) = scan ⟨ts, .between⟩ rest := by
  induction spaces with
  | nil => rfl
  | cons c spaces ih =>
      obtain ⟨head, tail⟩ := List.forall_mem_cons.1 blank
      rw [List.cons_append, scan_space head, ih tail]

theorem scan_punctuation {t : Token} (mark : punctuation? c = some t) :
    scan ⟨ts, .between⟩ (c :: rest) = scan ⟨t :: ts, .between⟩ rest := by
  unfold punctuation? at mark
  repeat' split at mark
  all_goals cases mark
  all_goals
    subst c
    rfl

/-! ### Bare words -/

/-- A character of a bare word. -/
structure Plain (c : Char) : Prop where
  space : isSpace c = false
  quote : c ≠ '"'
  punctuation : punctuation? c = none

instance (c : Char) : Decidable (Plain c) :=
  decidable_of_iff (isSpace c = false ∧ c ≠ '"' ∧ punctuation? c = none)
    ⟨fun h => ⟨h.1, h.2.1, h.2.2⟩, fun h => ⟨h.space, h.quote, h.punctuation⟩⟩

/-- What ends a bare word in front of it. -/
def Delimits (rest : List Char) : Prop :=
  ∀ c ∈ rest.head?, isSpace c = true ∨ punctuation? c ≠ none

theorem delimits_cons (ends : isSpace c = true ∨ punctuation? c ≠ none) (rest : List Char) :
    Delimits (c :: rest) := by
  intro d head
  cases head
  exact ends

/-- White space in front of what ends a bare word ends it too. -/
theorem delimits_append {spaces : List Char} (blank : ∀ c ∈ spaces, isSpace c = true)
    (ends : Delimits rest) : Delimits (spaces ++ rest) := by
  cases spaces with
  | nil => exact ends
  | cons c spaces => exact delimits_cons (Or.inl (blank c (List.mem_cons_self ..))) _

/-- A character of a bare word starts one or makes it longer. -/
theorem stepOutside_plain (plain : Plain c) (mode : TokenMode) :
    stepOutside ⟨ts, mode⟩ c =
      some ⟨ts, match mode with
        | .bare word => .bare (c :: word)
        | _ => .bare [c]⟩ := by
  simp only [stepOutside, plain.space, plain.quote, plain.punctuation, Bool.false_eq_true,
    if_false]
  cases mode <;> rfl

theorem scan_plain (plain : ∀ c ∈ cs, Plain c) :
    scan ⟨ts, .bare word⟩ (cs ++ rest) = scan ⟨ts, .bare (cs.reverse ++ word)⟩ rest := by
  induction cs generalizing word with
  | nil => rfl
  | cons c cs ih =>
      obtain ⟨head, tail⟩ := List.forall_mem_cons.1 plain
      have longer : step ⟨ts, .bare word⟩ c = some ⟨ts, .bare (c :: word)⟩ :=
        stepOutside_plain head _
      rw [List.cons_append, scan_cons, longer, List.reverse_cons, List.append_assoc]
      exact ih tail

/-- A bare word that is a value is a token when it ends. -/
theorem scan_bare {v : Json} (value : scalar? word.reverse = some v) (ends : Delimits rest) :
    scan ⟨ts, .bare word⟩ rest = scan ⟨.scalar v :: ts, .between⟩ rest := by
  have closed : close ⟨ts, .bare word⟩ = some (.scalar v :: ts) := by
    simp only [close, value, Option.map_some]
  cases rest with
  | nil => exact closed
  | cons c rest =>
      -- the two modes differ only for a character of a bare word
      have same : step ⟨ts, .bare word⟩ c = step ⟨.scalar v :: ts, .between⟩ c := by
        show stepOutside _ c = stepOutside _ c
        have other : close ⟨.scalar v :: ts, .between⟩ = some (.scalar v :: ts) := rfl
        rcases ends c rfl with space | mark
        · simp only [stepOutside, closed, other, space, if_true]
        · obtain ⟨t, token⟩ := Option.ne_none_iff_exists'.1 mark
          simp only [stepOutside, closed, other, token]
      rw [scan_cons, scan_cons, same]

end TokenReader

open TokenReader

/-- The text spells the tokens: read between two tokens, in front of what ends a bare word, it
makes exactly these. -/
def Spells (cs : List Char) (new : List Token) : Prop :=
  ∀ ts rest, Delimits rest →
    scan ⟨ts, .between⟩ (cs ++ rest) = scan ⟨new.reverse ++ ts, .between⟩ rest

theorem spells_scalar {cs : List Char} {v : Json} (nonempty : cs ≠ [])
    (plain : ∀ c ∈ cs, Plain c) (value : scalar? cs = some v) : Spells cs [.scalar v] := by
  intro ts rest ends
  obtain ⟨c, word, rfl⟩ := List.exists_cons_of_ne_nil nonempty
  obtain ⟨head, tail⟩ := List.forall_mem_cons.1 plain
  have begun : step ⟨ts, .between⟩ c = some ⟨ts, .bare [c]⟩ := stepOutside_plain head _
  have whole : (word.reverse ++ [c]).reverse = c :: word := by
    rw [List.reverse_append, List.reverse_reverse]
    rfl
  rw [← whole] at value
  rw [List.cons_append, scan_cons, begun]
  show scan ⟨ts, .bare [c]⟩ (word ++ rest) = _
  rw [scan_plain tail, scan_bare value ends]
  rfl

/-! ### Literals and numbers -/

/-- A literal is checked character by character. -/
theorem plain_of_all {cs : List Char} (all : (cs.all fun c => decide (Plain c)) = true) :
    ∀ c ∈ cs, Plain c :=
  fun c member => of_decide_eq_true (List.all_eq_true.1 all c member)

/-- The digits of a number have no superfluous zeros in front. -/
theorem isPlainDigits_digits (n : Nat) : isPlainDigits (Decimal.digits n) = true := by
  unfold isPlainDigits
  by_cases zero : n = 0
  · subst n
    rfl
  · have some := Decimal.digits_ne_nil n
    simp [Decimal.head?_digits_ne_zero zero, some]

theorem plain_of_isDigit {c : Char} (digit : c.isDigit = true) : Plain c := by
  have range := Text.toNat_of_isDigit digit
  have apart : ∀ d : Char, ¬ (48 ≤ d.toNat ∧ d.toNat ≤ 57) → c ≠ d := by
    rintro d outside rfl
    exact outside range
  refine ⟨?_, apart '"' (by decide), ?_⟩
  · simp only [isSpace, Bool.or_eq_false_iff, beq_eq_false_iff_ne]
    exact ⟨⟨⟨apart _ (by decide), apart _ (by decide)⟩, apart _ (by decide)⟩, apart _ (by decide)⟩
  · unfold punctuation?
    rw [if_neg (apart _ (by decide)), if_neg (apart _ (by decide)), if_neg (apart _ (by decide)),
      if_neg (apart _ (by decide)), if_neg (apart _ (by decide)), if_neg (apart _ (by decide))]

theorem scalar?_digits (n : Nat) : scalar? (Decimal.digits n) = some (.natural n) := by
  have digits := List.all_eq_true.1 (Decimal.all_isDigit_digits n)
  have other {c : Char} (noDigit : c.isDigit = false) := Decimal.ne_cons_of_natural?
    (Decimal.natural?_digits n) noDigit
  have noSign : (Decimal.digits n).head? ≠ some '-' := by
    intro head
    obtain ⟨cs, same⟩ := List.head?_eq_some_iff.1 head
    exact other rfl cs same
  have front : (Decimal.digits n).takeWhile Char.isDigit = Decimal.digits n :=
    List.takeWhile_eq_self_iff.2 digits
  have back : (Decimal.digits n).dropWhile Char.isDigit = [] :=
    List.dropWhile_eq_nil_iff.2 digits
  have value : Nat.ofDigitChars 10 (Decimal.digits n) 0 = n :=
    Nat.ofDigitChars_toDigits (by decide) (by decide)
  unfold scalar?
  rw [if_neg (other rfl _), if_neg (other rfl _), if_neg (other rfl _)]
  simp only [if_neg noSign, front, back, isPlainDigits_digits, value]
  rfl

/-! ### Strings -/

theorem hexDigit?_digitChar {d : Nat} (short : d < 16) : hexDigit? (Nat.digitChar d) = some d := by
  have all : ∀ d < 16, hexDigit? (Nat.digitChar d) = some d := by decide
  exact all d short

theorem scan_codePoint {c : Char} {d : Nat} (digit : hexDigit? c = some d) (ts : List Token)
    (units : List Nat) (missing value : Nat) (rest : List Char) :
    scan ⟨ts, .codePoint units missing value⟩ (c :: rest) =
      scan ⟨ts, if missing ≤ 1 then .string ((16 * value + d) :: units)
        else .codePoint units (missing - 1) (16 * value + d)⟩ rest := by
  have next : step ⟨ts, .codePoint units missing value⟩ c =
      some ⟨ts, if missing ≤ 1 then .string ((16 * value + d) :: units)
        else .codePoint units (missing - 1) (16 * value + d)⟩ := by
    simp only [step, digit, Option.map_some]
    split <;> rfl
  rw [scan_cons, next]
  rfl

/-- A character of a string is read as itself, escaped or not. -/
theorem scan_escapeChar (c : Char) (ts : List Token) (units : List Nat) (rest : List Char) :
    scan ⟨ts, .string units⟩ (escapeChar c ++ rest) =
      scan ⟨ts, .string (c.toNat :: units)⟩ rest := by
  unfold escapeChar
  by_cases quote : c = '"'
  · subst c
    rfl
  by_cases backslash : c = '\\'
  · subst c
    rfl
  rw [if_neg quote, if_neg backslash]
  -- the characters that have a letter of their own behind the backslash
  iterate 5
    split
    · subst c
      rfl
  split
  · rename_i control
    have high := hexDigit?_digitChar (d := c.toNat / 16) (by omega)
    have low := hexDigit?_digitChar (d := c.toNat % 16) (by omega)
    have value : 16 * (c.toNat / 16) + c.toNat % 16 = c.toNat := Nat.div_add_mod _ _
    show scan ⟨ts, .codePoint units 2 0⟩ (_ :: _ :: rest) = _
    rw [scan_codePoint high, if_neg (by decide), scan_codePoint low, if_pos (by decide),
      Nat.mul_zero, Nat.zero_add, value]
  · rename_i free
    have kept : step ⟨ts, .string units⟩ c = some ⟨ts, .string (c.toNat :: units)⟩ := by
      simp only [step, quote, backslash, free, if_false]
    rw [List.cons_append, scan_cons, kept]
    rfl

/-- No character of a text is half of a surrogate pair. -/
theorem decodeUnits_map_toNat (cs : List Char) : decodeUnits (cs.map Char.toNat) = some cs := by
  induction cs with
  | nil => rfl
  | cons c cs ih =>
      have whole : ¬ (0xD800 ≤ c.toNat ∧ c.toNat < 0xE000) := by
        have valid : c.toNat < 0xD800 ∨ 0xDFFF < c.toNat ∧ c.toNat < 0x110000 := c.valid
        omega
      rw [List.map_cons, decodeUnits.eq_def]
      dsimp only
      rw [if_neg whole, ih, Char.ofNat_toNat]
      rfl

theorem scan_escaped (cs : List Char) (ts : List Token) (units : List Nat) (rest : List Char) :
    scan ⟨ts, .string units⟩ (cs.flatMap escapeChar ++ rest) =
      scan ⟨ts, .string ((cs.map Char.toNat).reverse ++ units)⟩ rest := by
  induction cs generalizing units with
  | nil => rfl
  | cons c cs ih =>
      rw [List.flatMap_cons, List.append_assoc, scan_escapeChar, ih, List.map_cons,
        List.reverse_cons, List.append_assoc]
      rfl

theorem spells_writeString (s : String) : Spells (writeString s) [.string (some s)] := by
  intro ts rest _
  have text : (decodeUnits ((s.toList.map Char.toNat).reverse ++ []).reverse).map String.ofList =
      some s := by
    rw [List.append_nil, List.reverse_reverse, decodeUnits_map_toNat, Option.map_some,
      String.ofList_toList]
  have opened : step ⟨ts, .between⟩ '"' = some ⟨ts, .string []⟩ := rfl
  have closed : step ⟨ts, .string ((s.toList.map Char.toNat).reverse ++ [])⟩ '"' =
      some ⟨.string (some s) :: ts, .between⟩ := by
    rw [← text]
    rfl
  rw [writeString, List.cons_append, List.cons_append, scan_cons, opened, List.append_assoc]
  show scan ⟨ts, .string []⟩ _ = _
  rw [scan_escaped, List.cons_append, scan_cons, closed]
  rfl

/-! ### Documents -/

/-- A layout that keeps the parts of a document apart by nothing but white space. -/
structure Layout.Blank (layout : Layout) : Prop where
  lineBreak : ∀ depth, ∀ c ∈ layout.lineBreak depth, isSpace c = true
  colon : ∃ spaces, layout.colon = ':' :: spaces ∧ ∀ c ∈ spaces, isSpace c = true

theorem blank_compact : Layout.compact.Blank where
  lineBreak _ _ member := by cases member
  colon := ⟨[], rfl, fun _ member => by cases member⟩

theorem blank_lines : Layout.lines.Blank where
  lineBreak depth := by
    refine List.forall_mem_cons.2 ⟨rfl, ?_⟩
    intro c member
    rw [List.eq_of_mem_replicate member]
    rfl
  colon := ⟨[' '], rfl, List.forall_mem_singleton.2 rfl⟩

/-- Parts with separators between them are a part, and each other part behind a separator. -/
theorem intercalate_cons {α : Type} (separator part : List α) (parts : List (List α)) :
    List.intercalate separator (part :: parts) = part ++ parts.flatMap (separator ++ ·) := by
  induction parts generalizing part with
  | nil => rw [List.intercalate_singleton, List.flatMap_nil, List.append_nil]
  | cons next parts ih =>
      rw [List.intercalate_cons_cons, ih, List.flatMap_cons, List.append_assoc, List.append_assoc]

theorem delimits_parts (spaces : List Char) (parts : List (List Char)) {rest : List Char}
    (ends : Delimits rest) : Delimits (parts.flatMap ((',' :: spaces) ++ ·) ++ rest) := by
  cases parts with
  | nil => exact ends
  | cons part parts => exact delimits_cons (Or.inr (by decide)) _

/-- Each part behind a comma spells a comma and its tokens. -/
theorem spells_parts {spaces : List Char} (blank : ∀ c ∈ spaces, isSpace c = true)
    {parts : List (List Char)} {news : List (List Token)}
    (spelled : List.Forall₂ Spells parts news) :
    Spells (parts.flatMap ((',' :: spaces) ++ ·)) (news.flatMap ([.comma] ++ ·)) := by
  induction spelled with
  | nil =>
      intro ts rest _
      rfl
  | @cons part new parts news first _ ih =>
      intro ts rest ends
      rw [List.flatMap_cons, List.append_assoc, List.append_assoc, List.cons_append,
        scan_punctuation (t := .comma) rfl, scan_spaces blank,
        first _ _ (delimits_parts spaces parts ends), ih _ _ ends, List.flatMap_cons,
        List.reverse_append, List.reverse_append, List.append_assoc, List.append_assoc]
      rfl

theorem spells_bracket {layout : Layout} (blank : layout.Blank) {left right : Char}
    {opening closing : Token} (opens : punctuation? left = some opening)
    (closes : punctuation? right = some closing) (depth : Nat) {parts : List (List Char)}
    {news : List (List Token)} (spelled : List.Forall₂ Spells parts news) :
    Spells (bracket layout depth left right parts) (enclosed opening closing news) := by
  intro ts rest _
  have ends : Delimits (layout.lineBreak depth ++ right :: rest) := by
    apply delimits_append (blank.lineBreak depth)
    apply delimits_cons
    rw [closes]
    exact Or.inr (Option.some_ne_none _)
  cases spelled with
  | nil =>
      show scan _ (left :: right :: rest) = _
      rw [scan_punctuation opens, scan_punctuation closes]
      rfl
  | @cons part new parts news first others =>
      have behind := spells_parts (blank.lineBreak (depth + 1)) others
      have parted := delimits_parts (layout.lineBreak (depth + 1)) parts ends
      unfold bracket enclosed
      rw [List.isEmpty_cons, if_neg Bool.false_ne_true, intercalate_cons, intercalate_cons]
      simp only [List.append_assoc, List.cons_append, List.nil_append] at behind parted ⊢
      rw [scan_punctuation opens, scan_spaces (blank.lineBreak _), first _ _ parted,
        behind _ _ ends, scan_spaces (blank.lineBreak _), scan_punctuation closes]
      simp only [List.reverse_append, List.reverse_cons, List.reverse_nil, List.nil_append,
        List.append_assoc, List.cons_append]

theorem spells_member {layout : Layout} (blank : layout.Blank) (key : String) {part : List Char}
    {new : List Token} (spelled : Spells part new) :
    Spells (writeText (some key) ++ layout.colon ++ part) (.string key :: .colon :: new) := by
  obtain ⟨spaces, colon, free⟩ := blank.colon
  intro ts rest ends
  have mark : ∀ rest, Delimits (':' :: rest) := delimits_cons (Or.inr (by decide))
  rw [colon, List.append_assoc, List.append_assoc, List.cons_append, writeText,
    spells_writeString key _ _ (mark _), scan_punctuation (t := .colon) rfl, scan_spaces free,
    spelled _ _ ends]
  simp only [List.reverse_cons, List.reverse_nil, List.nil_append, List.append_assoc,
    List.cons_append]

/-- **A written document spells its tokens**, whatever white space it is laid out with. -/
theorem spells_write {v : Json} (textual : Textual v) {layout : Layout} (blank : layout.Blank)
    (depth : Nat) : Spells (write layout depth v) (tokens v) := by
  induction textual generalizing depth with
  | null =>
      show Spells ['n', 'u', 'l', 'l'] [.scalar .null]
      exact spells_scalar (List.cons_ne_nil _ _) (plain_of_all rfl) rfl
  | bool b =>
      cases b with
      | false =>
          show Spells ['f', 'a', 'l', 's', 'e'] [.scalar (.bool false)]
          exact spells_scalar (List.cons_ne_nil _ _) (plain_of_all rfl) rfl
      | true =>
          show Spells ['t', 'r', 'u', 'e'] [.scalar (.bool true)]
          exact spells_scalar (List.cons_ne_nil _ _) (plain_of_all rfl) rfl
  | natural n =>
      have digits := List.all_eq_true.1 (Decimal.all_isDigit_digits n)
      exact spells_scalar (Decimal.digits_ne_nil n)
        (fun c member => plain_of_isDigit (digits c member)) (scalar?_digits n)
  | string s => exact spells_writeString s
  | @list items _ ih =>
      rw [write, tokens, writeItems_eq_map, itemTokens_eq_map]
      apply spells_bracket blank rfl rfl
      rw [List.forall₂_map_left_iff, List.forall₂_map_right_iff, List.forall₂_same]
      exact fun v member => ih v member (depth + 1)
  | @object members keys _ ih =>
      rw [write, tokens, writeMembers_eq_map, memberTokens_eq_map]
      apply spells_bracket blank rfl rfl
      rw [List.forall₂_map_left_iff, List.forall₂_map_right_iff, List.forall₂_same]
      intro m member
      obtain ⟨key, same⟩ := Option.isSome_iff_exists.1 (keys m member)
      rw [same]
      exact spells_member blank key (ih m member (depth + 1))

/-! ## From tokens to a value -/

/-- What a reader makes of tokens. -/
def Reader.run (r : Reader) (ts : List Token) : Option Json :=
  ts.foldlM Reader.step r >>= finish

theorem Reader.run_cons (r : Reader) (t : Token) (ts : List Token) :
    r.run (t :: ts) = r.step t >>= fun r => r.run ts := by
  rw [run, List.foldlM_cons, bind_assoc]
  rfl

/-- The tokens form the value: where a value is expected, they are read as this one. -/
def Forms (new : List Token) (v : Json) : Prop :=
  ∀ frames rest, Reader.run ⟨frames, .value⟩ (new ++ rest) = Reader.run ⟨frames, .next v⟩ rest

/-- No value starts with the bracket that ends a list, so the first item of a list is read like
any other. -/
theorem run_firstItem (v : Json) (frames : List Frame) (rest : List Token) :
    Reader.run ⟨frames, .firstItem⟩ (tokens v ++ rest) =
      Reader.run ⟨.list [] :: frames, .value⟩ (tokens v ++ rest) := by
  have start : ∃ t ts, tokens v = t :: ts ∧ t ≠ .closeList := by
    cases v <;> exact ⟨_, _, rfl, Token.noConfusion⟩
  obtain ⟨t, ts, same, other⟩ := start
  have first : Reader.step ⟨frames, .firstItem⟩ t = Reader.step ⟨.list [] :: frames, .value⟩ t := by
    cases t with
    | closeList => exact absurd rfl other
    | _ => rfl
  rw [same, List.cons_append, Reader.run_cons, Reader.run_cons, first]

/-- The items behind a value are added to its list one after the other. -/
theorem run_items {items : List Json} (formed : ∀ v ∈ items, Forms (tokens v) v) (v : Json)
    (done : List Json) (frames : List Frame) (rest : List Token) :
    Reader.run ⟨.list done :: frames, .next v⟩
        ((items.map tokens).flatMap ([.comma] ++ ·) ++ .closeList :: rest) =
      Reader.run ⟨frames, .next (.list (done.reverse ++ v :: items))⟩ rest := by
  induction items generalizing v done with
  | nil =>
      rw [← List.reverse_cons]
      rfl
  | cons w items ih =>
      obtain ⟨head, tail⟩ := List.forall_mem_cons.1 formed
      have shifted : done.reverse ++ v :: w :: items = (v :: done).reverse ++ w :: items := by
        rw [List.reverse_cons, List.append_assoc]
        rfl
      rw [List.map_cons, List.flatMap_cons, List.append_assoc, List.append_assoc, shifted,
        ← ih tail w (v :: done)]
      exact head _ _

theorem forms_list {items : List Json} (formed : ∀ v ∈ items, Forms (tokens v) v) :
    Forms (tokens (.list items)) (.list items) := by
  intro frames rest
  rw [tokens, itemTokens_eq_map, enclosed]
  cases items with
  | nil => rfl
  | cons v items =>
      obtain ⟨head, tail⟩ := List.forall_mem_cons.1 formed
      rw [List.map_cons, intercalate_cons]
      simp only [List.append_assoc, List.cons_append, List.nil_append]
      show Reader.run ⟨frames, .firstItem⟩ _ = _
      rw [run_firstItem, head]
      exact run_items tail v [] frames rest

/-- A key, a colon and the value. -/
theorem run_member {v : Json} (formed : Forms (tokens v) v) (key : Option String)
    (members : List (Option String × Json)) (frames : List Frame) (rest : List Token) :
    Reader.run ⟨frames, .key members⟩ (.string key :: .colon :: tokens v ++ rest) =
      Reader.run ⟨.object members key :: frames, .next v⟩ rest :=
  formed _ _

theorem run_members {members : List (Option String × Json)}
    (formed : ∀ m ∈ members, Forms (tokens m.2) m.2) (m : Option String × Json)
    (done : List (Option String × Json)) (frames : List Frame) (rest : List Token) :
    Reader.run ⟨.object done m.1 :: frames, .next m.2⟩
        ((members.map fun m => .string m.1 :: .colon :: tokens m.2).flatMap ([.comma] ++ ·) ++
          .closeObject :: rest) =
      Reader.run ⟨frames, .next (.object (done.reverse ++ m :: members))⟩ rest := by
  induction members generalizing m done with
  | nil =>
      rw [← List.reverse_cons]
      rfl
  | cons next members ih =>
      obtain ⟨head, tail⟩ := List.forall_mem_cons.1 formed
      have shifted : done.reverse ++ m :: next :: members =
          (m :: done).reverse ++ next :: members := by
        rw [List.reverse_cons, List.append_assoc]
        rfl
      rw [List.map_cons, List.flatMap_cons, List.append_assoc, List.append_assoc, shifted,
        ← ih tail next (m :: done)]
      exact run_member head next.1 (m :: done) frames _

theorem forms_object {members : List (Option String × Json)}
    (formed : ∀ m ∈ members, Forms (tokens m.2) m.2) :
    Forms (tokens (.object members)) (.object members) := by
  intro frames rest
  rw [tokens, memberTokens_eq_map, enclosed]
  cases members with
  | nil => rfl
  | cons m members =>
      obtain ⟨head, tail⟩ := List.forall_mem_cons.1 formed
      rw [List.map_cons, intercalate_cons]
      simp only [List.append_assoc, List.cons_append, List.nil_append]
      have first : ∀ ts, Reader.run ⟨frames, .value⟩ (.openObject :: .string m.1 :: ts) =
          Reader.run ⟨frames, .key []⟩ (.string m.1 :: ts) := fun _ => rfl
      rw [first]
      exact (run_member head m.1 [] frames _).trans (run_members tail m [] frames rest)

/-- **The tokens of a document form it.** -/
theorem forms_tokens {v : Json} (textual : Textual v) : Forms (tokens v) v := by
  induction textual with
  | null | bool | natural | string =>
      intro frames rest
      rfl
  | list _ ih => exact forms_list ih
  | object _ _ ih => exact forms_object ih

/-! ## Reading back -/

theorem tokens?_eq_scan (cs : List Char) : tokens? cs = (start.scan cs).map List.reverse := by
  unfold tokens? scan
  cases cs.foldlM TokenReader.step start with
  | none => rfl
  | some r =>
      show (r.close >>= fun ts => some ts.reverse) = r.close.map List.reverse
      cases r.close <;> rfl

/-- **A written document is read back**, whatever white space it is laid out with. -/
theorem parse?_write {v : Json} (textual : Textual v) {layout : Layout} (blank : layout.Blank)
    (depth : Nat) : parse? (write layout depth v) = some v := by
  have spelled := spells_write textual blank depth [] [] (fun _ => nofun)
  have formed := forms_tokens textual [] []
  rw [List.append_nil, List.append_nil] at spelled
  rw [List.append_nil] at formed
  have read : tokens? (write layout depth v) = some (tokens v) := by
    rw [tokens?_eq_scan]
    show (scan ⟨[], .between⟩ _).map List.reverse = _
    rw [spelled]
    exact congrArg some (List.reverse_reverse _)
  unfold parse?
  rw [read]
  exact formed

theorem parse?_compact {v : Json} (textual : Textual v) : parse? v.compact.toList = some v := by
  unfold compact
  rw [String.toList_ofList]
  exact parse?_write textual blank_compact 0

theorem parse?_pretty {v : Json} (textual : Textual v) : parse? v.pretty.toList = some v := by
  unfold pretty
  rw [String.toList_ofList]
  exact parse?_write textual blank_lines 0

end MixMachine.Json
