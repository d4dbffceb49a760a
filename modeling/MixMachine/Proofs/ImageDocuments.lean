import MixMachine.Image.Document
import MixMachine.Proofs.DocumentText
import MixMachine.Proofs.ImageLoading
import MixMachine.Proofs.ImageText

/-!
# Images in documents

An image can be written to a document whatever it holds, and the document keeps all of it: every
bit of its words, bit 31 included, and every address. What is in memory is checked only when the
document is read, the words first and the start last, although the start is written first. The
written form keeps less: it has no place for bit 31, so it keeps the image of a document exactly
when the words are proper, and nothing in the reading of documents sees to that.

* `Image.ofJson?_toJson`: the document of an image holds the image.
* `Image.readDocument_writeDocument`, `Image.readDocument_writeDocument_outside`: the document of
  an image is read back, or its first address outside memory is named, in every format that reads
  back what it writes.
* `Image.inMemory_of_parse_text`: the written form of an image outside memory is not read.
* `Image.document_read_back`: the document of an image, and the written form beside it.
* `Image.text_of_read_document`: the written form of an image that was read from a document.
-/

namespace MixMachine

theorem Word.ofJson?_toJson (w : Word) : ofJson? w.toJson = some w := by
  have bound : w.bits.toNat < 0x100000000 := w.bits.toNat_lt
  have number : w.toJson.natural? 0xFFFFFFFF = some w.bits.toNat :=
    if_pos (Nat.le_of_lt_succ bound)
  have raw : ofRawBits? w.bits.toNat = some w := by
    rw [ofRawBits?, if_pos bound, UInt32.ofNat_toNat]
  unfold ofJson?
  rw [number]
  exact raw

/-- A format reads back every document without loss that it writes. -/
structure Json.Format.Faithful (format : Json.Format) : Prop where
  read_write {v : Json} : v.Textual → format.read? (format.write v) = some v

theorem Json.Format.faithful_lines : Json.Format.lines.Faithful :=
  ⟨Json.parse?_pretty⟩

namespace Image

variable {format : Json.Format} {image other : Image} {c : Nat × Word} {a : Nat}

/-- An image whose addresses are numbers of sixteen bits, which is all that an image has room
for. Not all of them are addresses of cells. -/
structure Short (image : Image) : Prop where
  start : image.start ≤ addressLimit
  cells : ∀ c ∈ image.cells, c.1 ≤ addressLimit

/-! ## The document of an image -/

/-- The document of a cell. -/
def cellJson (c : Nat × Word) : Json :=
  .list [.natural c.1, c.2.toJson]

theorem textual_toJson (image : Image) : image.toJson.Textual := by
  have cells : (Json.list (image.cells.map cellJson)).Textual := by
    refine .list ?_
    intro v member
    obtain ⟨c, -, rfl⟩ := List.mem_map.1 member
    exact .list (List.forall_mem_cons.2 ⟨.natural _, List.forall_mem_singleton.2 (.natural _)⟩)
  exact .object (List.forall_mem_cons.2 ⟨rfl, List.forall_mem_singleton.2 rfl⟩)
    (List.forall_mem_cons.2 ⟨.natural _, List.forall_mem_singleton.2 cells⟩)

theorem cell?_cellJson (short : c.1 ≤ addressLimit) : cell? (cellJson c) = some c := by
  have address : (Json.natural c.1).natural? addressLimit = some c.1 := if_pos short
  unfold cellJson cell?
  dsimp only
  rw [address, Word.ofJson?_toJson]
  rfl

theorem mapM_cell? {cells : List (Nat × Word)} (short : ∀ c ∈ cells, c.1 ≤ addressLimit) :
    (cells.map cellJson).mapM cell? = some cells := by
  induction cells with
  | nil => rfl
  | cons c cells ih =>
      obtain ⟨head, tail⟩ := List.forall_mem_cons.1 short
      rw [List.map_cons, List.mapM_cons, cell?_cellJson head, ih tail]
      rfl

/-- **The document of an image holds the image**, bit 31 of its words included. -/
theorem ofJson?_toJson (short : image.Short) : ofJson? image.toJson = some image := by
  have fields : image.toJson.fields? ["start", "cells"] =
      some [some (.natural image.start), some (.list (image.cells.map cellJson))] := rfl
  have start : (Json.natural image.start).natural? addressLimit = some image.start :=
    if_pos short.start
  have cells : (Json.list (image.cells.map cellJson)).list? cell? = some image.cells :=
    mapM_cell? short.cells
  unfold ofJson?
  rw [fields]
  dsimp only
  rw [start, cells]
  rfl

/-- The text of the document holds the image too, in any format that reads back what it
writes. -/
theorem read?_writeDocument (faithful : format.Faithful) (short : image.Short) :
    (format.read? (image.writeDocument format) >>= ofJson?) = some image := by
  have read : format.read? (image.writeDocument format) = some image.toJson :=
    faithful.read_write image.textual_toJson
  rw [read]
  exact ofJson?_toJson short

/-- **An image in memory is read back from its document.** -/
theorem readDocument_writeDocument (faithful : format.Faithful) (short : image.Short)
    (inside : image.InMemory) : readDocument format (image.writeDocument format) = .ok image := by
  unfold readDocument
  rw [read?_writeDocument faithful short]
  dsimp only
  rw [(firstOutside?_eq_none_iff image).2 inside]

/-- **The first address outside memory is named.** -/
theorem readDocument_writeDocument_outside (faithful : format.Faithful) (short : image.Short)
    (outside : image.firstOutside? = some a) :
    readDocument format (image.writeDocument format) = .error (.addressOutOfRange 0 a) := by
  unfold readDocument
  rw [read?_writeDocument faithful short]
  dsimp only
  rw [outside]

/-- **The document of an image outside memory is not read.** -/
theorem inMemory_of_readDocument_writeDocument (faithful : format.Faithful)
    (short : image.Short) (read : readDocument format (image.writeDocument format) = .ok other) :
    image.InMemory := by
  cases outside : image.firstOutside? with
  | none => exact (firstOutside?_eq_none_iff image).1 outside
  | some a =>
      rw [readDocument_writeDocument_outside faithful short outside] at read
      cases read

/-- The addresses of an image in the order in which they are checked: those of the words, and
then the start. -/
def addresses (image : Image) : List Nat :=
  image.cells.map (·.1) ++ [image.start]

/-- The address that is named is the first one outside memory. -/
theorem firstOutside?_of_addresses {front : List (Nat × Word)} {back : List Nat}
    (all : image.addresses = front.map (·.1) ++ a :: back)
    (inside : ∀ c ∈ front, c.1 < memorySize) (outside : memorySize ≤ a) :
    image.firstOutside? = some a := by
  refine List.find?_eq_some_iff_append.2 ⟨decide_eq_true outside, _, back, all, ?_⟩
  intro b member
  obtain ⟨c, listed, rfl⟩ := List.mem_map.1 member
  rw [decide_eq_false (Nat.not_le.2 (inside c listed))]
  rfl

theorem firstOutside?_of_cell {front back : List (Nat × Word)} {w : Word}
    (cells : image.cells = front ++ (a, w) :: back) (inside : ∀ c ∈ front, c.1 < memorySize)
    (outside : memorySize ≤ a) : image.firstOutside? = some a := by
  have all : image.addresses = front.map (·.1) ++ a :: (back.map (·.1) ++ [image.start]) := by
    rw [addresses, cells, List.map_append, List.append_assoc]
    rfl
  exact firstOutside?_of_addresses all inside outside

theorem firstOutside?_of_start (inside : ∀ c ∈ image.cells, c.1 < memorySize)
    (outside : memorySize ≤ image.start) : image.firstOutside? = some image.start :=
  firstOutside?_of_addresses rfl inside outside

/-! ## The written form of an image outside memory -/

/-- An address outside memory is named with its line. -/
theorem readAddress_of_outside {cs : List Char} (numeral : Decimal.natural? cs = some a)
    (short : a ≤ addressLimit) (outside : memorySize ≤ a) (line : Nat) :
    readAddress line cs = .error (.addressOutOfRange line a) := by
  have limit : addressLimit = 0xFFFF := rfl
  have range : ¬ (0 ≤ (a : Int) ∧ (a : Int) < memorySize) := by omega
  rw [readAddress, Decimal.signed?_of_natural? numeral (by omega)]
  exact if_neg range

theorem lt_of_written {cs : List Char} {line b : Nat} (numeral : Decimal.natural? cs = some a)
    (short : a ≤ addressLimit) (read : readAddress line cs = .ok b) : a < memorySize := by
  by_contra outside
  rw [readAddress_of_outside numeral short (Nat.not_lt.1 outside)] at read
  cases read

/-- Lines are read in a row only if each of them can be read. -/
theorem exists_readLine_of_mem {number : Nat} {texts : List (List Char)} {lines : List Line}
    (read : readLines number texts = .ok lines) {cs : List Char} (member : cs ∈ texts) :
    ∃ n line, readLine n cs = .ok line := by
  induction texts generalizing number lines with
  | nil => cases member
  | cons first texts ih =>
      rw [readLines] at read
      obtain ⟨line, head, rest⟩ := bind_eq_ok read
      obtain ⟨others, tail, -⟩ := bind_eq_ok rest
      rcases List.mem_cons.1 member with rfl | member
      · exact ⟨number, line, head⟩
      · exact ih tail member

/-- **The written form of an image outside memory is not read.** -/
theorem inMemory_of_parse_text (short : image.Short) (read : parse image.text = .ok other) :
    image.InMemory := by
  unfold parse at read
  rw [toList_text, Text.lines_ended (notMem_lines image)] at read
  obtain ⟨lines, all, -⟩ := map_eq_ok read
  constructor
  · have listed : startLine image.start ∈ commentLine image.cells.length ::
        startLine image.start :: image.cells.map cellLine :=
      List.mem_cons_of_mem _ (List.mem_cons_self ..)
    obtain ⟨n, line, first⟩ := exists_readLine_of_mem all listed
    rw [readLine_startLine] at first
    obtain ⟨b, address, -⟩ := map_eq_ok first
    exact lt_of_written (Decimal.natural?_digits _) short.start address
  · intro c member
    have listed : cellLine c ∈ commentLine image.cells.length ::
        startLine image.start :: image.cells.map cellLine :=
      List.mem_cons_of_mem _ (List.mem_cons_of_mem _ (List.mem_map_of_mem member))
    obtain ⟨n, line, first⟩ := exists_readLine_of_mem all listed
    rw [readLine_cellLine] at first
    obtain ⟨b, address, -⟩ := map_eq_ok first
    exact lt_of_written (Decimal.natural?_padded 4 _) (short.cells c member) address

/-! ## Both files of an image -/

/-- **An image is read back from its document in any faithful format**, when all its addresses
are those of cells; otherwise the first address outside memory is named, and the start only when
there is none among the cells. The written form of proper words is read exactly when the document
is, and as the same image. -/
theorem writeDocument_read_back (faithful : format.Faithful) (short : image.Short) :
    (image.InMemory → readDocument format (image.writeDocument format) = .ok image) ∧
    (∀ (front back : List (Nat × Word)) (a : Nat) (w : Word),
      image.cells = front ++ (a, w) :: back → (∀ c ∈ front, c.1 < memorySize) → memorySize ≤ a →
      readDocument format (image.writeDocument format) = .error (.addressOutOfRange 0 a)) ∧
    ((∀ c ∈ image.cells, c.1 < memorySize) → memorySize ≤ image.start →
      readDocument format (image.writeDocument format) =
        .error (.addressOutOfRange 0 image.start)) ∧
    ((∀ c ∈ image.cells, c.2.Proper) → ∀ other,
      readDocument format (image.writeDocument format) = .ok other ↔
        parse image.text = .ok other) := by
  refine ⟨readDocument_writeDocument faithful short, ?_, ?_, ?_⟩
  · intro front back a w parts inside outside
    exact readDocument_writeDocument_outside faithful short
      (firstOutside?_of_cell parts inside outside)
  · intro inside outside
    exact readDocument_writeDocument_outside faithful short
      (firstOutside?_of_start inside outside)
  · intro proper other
    by_cases inside : image.InMemory
    · rw [readDocument_writeDocument faithful short inside, parse_text_canonical inside,
        map_canonical proper]
    · exact iff_of_false
        (fun read => inside (inMemory_of_readDocument_writeDocument faithful short read))
        (fun read => inside (inMemory_of_parse_text short read))

/-- **An image is read back from its document**, bit 31 of its words included, when all its
addresses are those of cells. Otherwise the first address outside memory is named, and the start
only when there is none among the cells. For an image of proper words the written form is read
exactly when the document is, and as the same image. -/
theorem document_read_back (image : Image) (start : image.start ≤ 0xFFFF)
    (cells : ∀ c ∈ image.cells, c.1 ≤ 0xFFFF) :
    (image.start < 4000 → (∀ c ∈ image.cells, c.1 < 4000) →
      parseDocument image.document = .ok image) ∧
    (∀ (front back : List (Nat × Word)) (a : Nat) (w : Word),
      image.cells = front ++ (a, w) :: back → (∀ c ∈ front, c.1 < 4000) → 4000 ≤ a →
      parseDocument image.document = .error (.addressOutOfRange 0 a)) ∧
    ((∀ c ∈ image.cells, c.1 < 4000) → 4000 ≤ image.start →
      parseDocument image.document = .error (.addressOutOfRange 0 image.start)) ∧
    ((∀ c ∈ image.cells, c.2.bits.toNat < 0x80000000) → ∀ other,
      parseDocument image.document = .ok other ↔ parse image.text = .ok other) := by
  have short : image.Short := ⟨start, cells⟩
  obtain ⟨inMemory, outside, start, text⟩ :=
    writeDocument_read_back Json.Format.faithful_lines short
  exact ⟨fun first all => inMemory ⟨first, all⟩, outside, start, text⟩

/-- Every bit of a word comes back, with the other word of its cell; a cell outside memory is
named before the start and another cell, and a start that is outside alone is named too; proper
words come back from the written form. -/
theorem document_read_back_edges :
    parseDocument (document ⟨3999, [(0, ⟨0xFFFFFFFF⟩), (3999, ⟨0x80000000⟩), (0, ⟨1⟩)]⟩) =
      .ok ⟨3999, [(0, ⟨0xFFFFFFFF⟩), (3999, ⟨0x80000000⟩), (0, ⟨1⟩)]⟩ ∧
    parseDocument (document ⟨65535, [(3999, .zero), (4001, ⟨0x80000000⟩), (4000, .zero)]⟩) =
      .error (.addressOutOfRange 0 4001) ∧
    parseDocument (document ⟨4000, [(3999, .zero)]⟩) = .error (.addressOutOfRange 0 4000) ∧
    parse (text ⟨0, [(7, Word.zero.negate), (7, ⟨0x7FFFFFFF⟩)]⟩) =
      .ok ⟨0, [(7, Word.zero.negate), (7, ⟨0x7FFFFFFF⟩)]⟩ := by
  obtain ⟨whole, -⟩ := document_read_back
    ⟨3999, [(0, ⟨0xFFFFFFFF⟩), (3999, ⟨0x80000000⟩), (0, ⟨1⟩)]⟩ (by decide) (by decide)
  obtain ⟨-, cell, -⟩ := document_read_back
    ⟨65535, [(3999, .zero), (4001, ⟨0x80000000⟩), (4000, .zero)]⟩ (by decide) (by decide)
  obtain ⟨-, -, start, -⟩ := document_read_back ⟨4000, [(3999, .zero)]⟩ (by decide) (by decide)
  obtain ⟨both, -, -, text⟩ := document_read_back
    ⟨0, [(7, Word.zero.negate), (7, ⟨0x7FFFFFFF⟩)]⟩ (by decide) (by decide)
  refine ⟨whole (by decide) (by decide), ?_, start (by decide) (by decide), ?_⟩
  · exact cell [(3999, .zero)] [(4000, .zero)] 4001 ⟨0x80000000⟩ rfl (by decide) (by decide)
  · exact (text (by decide) _).1 (both (by decide) (by decide))

/-! ## The words of a document -/

/-- **The written form keeps the sign and the bytes of the words of an image that was read from a
document**, and so the image exactly when each word is made of these, which are the words with
bit 31 clear. When all are, words are the same exactly when their signs and bytes are. -/
theorem text_of_read_document {text : String} {image : Image}
    (read : parseDocument text = .ok image) :
    parse image.text = .ok { image with
      cells := image.cells.map fun c => (c.1, .ofBytes c.2.sign c.2.bytes) } ∧
    (parse image.text = .ok image ↔ ∀ c ∈ image.cells, c.2 = .ofBytes c.2.sign c.2.bytes) ∧
    (∀ c ∈ image.cells, c.2 = .ofBytes c.2.sign c.2.bytes ↔ c.2.bits.toNat < 0x80000000) ∧
    ((∀ c ∈ image.cells, c.2.bits.toNat < 0x80000000) →
      ∀ c ∈ image.cells, ∀ d ∈ image.cells,
        c.2 = d.2 ↔ c.2.sign = d.2.sign ∧ c.2.bytes = d.2.bytes) := by
  have kept : parse image.text = .ok { image with
      cells := image.cells.map fun c => (c.1, .ofBytes c.2.sign c.2.bytes) } := by
    rw [parse_text_canonical (inMemory_of_readDocument read)]
    simp only [Word.ofBytes_bytes]
  have same : (image.cells.map fun c => (c.1, Word.ofBytes c.2.sign c.2.bytes)) = image.cells ↔
      ∀ c ∈ image.cells, c.2 = .ofBytes c.2.sign c.2.bytes := by
    rw [map_eq_self_iff]
    refine forall₂_congr fun c _ => ?_
    exact ⟨fun made => (congrArg Prod.snd made).symm, fun made => congrArg (c.1, ·) made.symm⟩
  refine ⟨kept, ?_, fun c _ => (Word.proper_iff_eq_ofBytes c.2).symm, ?_⟩
  · rw [kept, ← same]
    exact ⟨fun back => congrArg cells (Except.ok.inj back), fun cells => by rw [cells]⟩
  · intro proper c listed d listed'
    refine ⟨fun same => by rw [same]; exact ⟨rfl, rfl⟩, ?_⟩
    rintro ⟨sign, bytes⟩
    rw [(Word.proper_iff_eq_ofBytes c.2).1 (proper c listed), sign, bytes,
      ← (Word.proper_iff_eq_ofBytes d.2).1 (proper d listed')]

/-- The written form of an image that was read with a proper word and one that is not. -/
theorem text_of_read_document_bit31 :
    parseDocument "[7, [[0, 2147483653], [1, 1073741824]]]" =
      .ok ⟨7, [(0, ⟨0x80000005⟩), (1, Word.zero.negate)]⟩ ∧
    parse (text ⟨7, [(0, ⟨0x80000005⟩), (1, Word.zero.negate)]⟩) =
      .ok ⟨7, [(0, ⟨5⟩), (1, Word.zero.negate)]⟩ ∧
    parse (text ⟨7, [(0, ⟨0x80000005⟩), (1, Word.zero.negate)]⟩) ≠
      .ok ⟨7, [(0, ⟨0x80000005⟩), (1, Word.zero.negate)]⟩ := by
  have read : parseDocument "[7, [[0, 2147483653], [1, 1073741824]]]" =
      .ok ⟨7, [(0, ⟨0x80000005⟩), (1, Word.zero.negate)]⟩ := by decide +kernel
  obtain ⟨kept, same, -⟩ := text_of_read_document read
  refine ⟨read, kept, fun back => ?_⟩
  have made := same.1 back (0, ⟨0x80000005⟩) (List.mem_cons_self ..)
  exact absurd made (by decide)

/-- Bit 31 of a word gets into an image from a document. The word has the sign and the bytes of
a zero and is none, and the written form of the image is read as another image. -/
theorem document_holds_improper_word :
    parseDocument "\x7b\"start\":0,\"cells\":[[0,2147483648]]\x7d" =
      .ok ⟨0, [(0, ⟨0x80000000⟩)]⟩ ∧
    Word.ofBytes (Word.mk 0x80000000).sign (Word.mk 0x80000000).bytes = .zero ∧
    Word.mk 0x80000000 ≠ .zero ∧
    parse (text ⟨0, [(0, ⟨0x80000000⟩)]⟩) = .ok ⟨0, [(0, .zero)]⟩ := by
  refine ⟨?_, ?_, ?_, ?_⟩ <;> decide +kernel

end Image

end MixMachine
