import MixMachine.Proofs.Buffers
import MixMachine.Proofs.CheckedWords

/-!
# Registers, memory and devices in integers of fixed width

Behind the words of `MixMachine.Proofs.CheckedWords`, here are the functions on the parts of the
machine as a program in integers of fixed width has them: what an instruction does to the
register file, the checks of addresses and blocks, and the copies of runs of words between
memory and a device.

Two of them need a fact about the machine. An effective address fits its word when the index
registers hold two bytes, and a block is checked without an overflow when its length is one that
a run of words can have in the address space of a process, less than two to the power 61.
-/

namespace MixMachine

namespace Checked

variable {α β : Type}

/-! ## The register file -/

/-- The address that an instruction refers to. The word that keeps it has room for all of it. -/
def effectiveAddress (rs : Registers) (address : Word) : Option Register → Checked Word
  | none => return address
  | some r => do
    let sum ← addI (← value address) (← value (rs.get r))
    let magnitude ← narrow 0x40000000 (← narrow u32 sum.natAbs)
    let sign := if sum = 0 then address.sign else Sign.of sum
    return Word.ofSignMagnitude sign magnitude

/-- Combines A with a word. -/
def arithmetic (rs : Registers) (kind : Arithmetic) (v : Word) : Checked Registers :=
  match kind with
  | .add => do
    let (sum, overflowed) ← addUpTo Word.maxMagnitude rs.a v
    return (rs.set .a sum).latchOverflow overflowed
  | .sub => do
    let (difference, overflowed) ← addUpTo Word.maxMagnitude rs.a v.negate
    return (rs.set .a difference).latchOverflow overflowed
  | .mul => do
    let (high, low) ← multiply rs.a v
    return (rs.set .a high).set .x low
  | .div => do
    match ← divide rs.a rs.x v with
    | some (quotient, remainder) => return (rs.set .a quotient).set .x remainder
    | none => return rs.latchOverflow true

/-- A run in two parts, the first of so many bytes. -/
def split (bytes : List Nat) (first : Nat) : Checked (List Nat × List Nat) :=
  ensure (first ≤ bytes.length) .range (bytes.take first, bytes.drop first)

/-- Shifts the bytes of A, or those of A and X packed into one run of ten. -/
def shift (rs : Registers) (kind : Shift) (count : Nat) : Checked Registers :=
  if kind.usesX then do
    let high ← copy 5 (← bytes rs.a)
    let low ← copy 5 (← bytes rs.x)
    let moved ← shiftBytes kind.direction kind.fill count (high ++ low)
    let (high, low) ← split moved 5
    let a ← ofBytes rs.a.sign (← copy 5 high)
    let x ← ofBytes rs.x.sign (← copy 5 low)
    return (rs.set .a a).set .x x
  else do
    let moved ← shiftBytes kind.direction kind.fill count (← bytes rs.a)
    return rs.set .a (← ofBytes rs.a.sign moved)

/-- Adds the effective address to a register, subtracts it, or puts it there. -/
def transfer (rs : Registers) (r : Register) (kind : Transfer) (ea : Word) : Checked Registers :=
  match kind with
  | .inc => do
    let (sum, overflowed) ← addUpTo r.width.maxMagnitude (rs.get r) ea
    return (rs.set r sum).latchOverflow overflowed
  | .dec => do
    let (sum, overflowed) ← addUpTo r.width.maxMagnitude (rs.get r) ea.negate
    return (rs.set r sum).latchOverflow overflowed
  | .ent => return (rs.set r ea).latchOverflow (Registers.exceeds r ea)
  | .enn => return (rs.set r ea.negate).latchOverflow (Registers.exceeds r ea.negate)

/-- Compares the same field of a register and of a cell. -/
def compare (rs : Registers) (r : Register) (f : Field) (cell : Word) : Checked Registers := do
  let right ← value (← extract f cell)
  let left ← value (← extract f (rs.get r))
  return { rs with comparison := some (Ord.compare left right) }

/-- Puts the address behind the running instruction into J. -/
def link (rs : Registers) : Checked Registers := do
  let behind ← add u32 rs.pc 1
  return rs.set .j (Word.ofSignMagnitude .plus behind)

section Registers

variable {rs : Registers}

/-- An address part of two bytes and an index register make an address that a word holds. -/
theorem effectiveAddress_eq (fit : rs.Fit) {address : Word} (short : address.magnitude < 0x1000)
    (index : Nat) :
    effectiveAddress rs address (Register.ofIndex? index) =
      .ok (rs.effectiveAddress address (Register.ofIndex? index)) := by
  cases named : Register.ofIndex? index with
  | none => rfl
  | some r =>
      have half : (rs.get r).magnitude < 0x1000 := by
        have low := (fit r).short
        rwa [Register.width_of_ofIndex? named] at low
      have sizeAddress := address.natAbs_value
      have sizeIndex := (rs.get r).natAbs_value
      unfold effectiveAddress
      dsimp only
      rw [value_eq, ok_bind, value_eq, ok_bind, addI_ok (by unfold InI64; omega), ok_bind,
        narrow_ok (by grind), ok_bind, narrow_ok (by omega), ok_bind]
      rfl

theorem arithmetic_eq (rs : Registers) (kind : Arithmetic) (v : Word) :
    arithmetic rs kind v = .ok (rs.arithmetic kind v) := by
  unfold arithmetic Registers.arithmetic
  cases kind with
  | add =>
      dsimp only
      rw [addUpTo_eq (by decide), ok_bind]
      rfl
  | sub =>
      dsimp only
      rw [addUpTo_eq (by decide), ok_bind]
      rfl
  | mul =>
      dsimp only
      rw [multiply_eq, ok_bind]
      rfl
  | div =>
      dsimp only
      rw [divide_eq, ok_bind]
      cases Word.divide rs.a rs.x v <;> rfl

theorem split_ok {bytes : List Nat} {first : Nat} (h : first ≤ bytes.length) :
    split bytes first = .ok (bytes.take first, bytes.drop first) := ensure_ok h

theorem shift_eq (rs : Registers) (kind : Shift) (count : Nat) :
    shift rs kind count = .ok (rs.shift kind count) := by
  have five : ∀ w : Word, w.bytes.length = 5 := fun _ => rfl
  unfold shift Registers.shift
  by_cases both : kind.usesX
  · have ten : (Word.shiftBytes kind.direction kind.fill count (rs.a.bytes ++ rs.x.bytes)).length =
        10 := Word.length_shiftBytes ..
    rw [if_pos both, bytes_eq, ok_bind, copy_ok (five _), ok_bind, bytes_eq, ok_bind,
      copy_ok (five _), ok_bind, shiftBytes_eq, ok_bind, split_ok (by omega), ok_bind]
    dsimp only
    rw [copy_ok (by rw [List.length_take, ten]; rfl), ok_bind,
      ofBytes_eq _ (by rw [List.length_take, ten]; rfl), ok_bind,
      copy_ok (by rw [List.length_drop, ten]), ok_bind,
      ofBytes_eq _ (by rw [List.length_drop, ten]), ok_bind, if_pos both, pure_eq]
  · rw [if_neg both, bytes_eq, ok_bind, shiftBytes_eq, ok_bind,
      ofBytes_eq _ ((Word.length_shiftBytes ..).trans (five _)), ok_bind, pure_eq]
    dsimp only
    rw [if_neg both]

theorem transfer_eq (rs : Registers) (r : Register) (kind : Transfer) (ea : Word) :
    transfer rs r kind ea = .ok (rs.transfer r kind ea) := by
  have small : r.width.maxMagnitude < u32 := by cases r.width <;> decide
  unfold transfer Registers.transfer
  cases kind with
  | inc =>
      dsimp only
      rw [addUpTo_eq small, ok_bind]
      rfl
  | dec =>
      dsimp only
      rw [addUpTo_eq small, ok_bind]
      rfl
  | ent => rfl
  | enn => rfl

theorem compare_eq {f : Field} (valid : f.Valid) (rs : Registers) (r : Register) (cell : Word) :
    compare rs r f cell = .ok (rs.compare r f cell) := by
  unfold compare
  rw [extract_eq valid, ok_bind, value_eq, ok_bind, extract_eq valid, ok_bind, value_eq, ok_bind]
  rfl

theorem link_eq (inside : rs.pc < memorySize) : link rs = .ok rs.link := by
  have size : memorySize = 4000 := rfl
  unfold link
  rw [add_ok (by grind), ok_bind]
  rfl

end Registers

/-! ## Memory -/

/-- The cell at a signed address. -/
def index (address : Int) : Checked (Except MemoryError Nat) := do
  if address < 0 ∨ memorySize ≤ address then return .error (.addressOutOfRange address)
  return .ok (← toUnsigned u64 address)

/-- The cells of a block, from its first up to the one behind its last. -/
def block (start : Int) (length : Nat) : Checked (Except MemoryError (Nat × Nat)) := do
  match ← index start with
  | .error e => return .error e
  | .ok first =>
    if length = 0 then return .ok (first, ← add u64 first length)
    match ← index (← subI (← addI start (← toSigned length)) 1) with
    | .error e => return .error e
    | .ok _ => return .ok (first, ← add u64 first length)

/-- The answer `x` of an access that lies in memory, or the error that shows its address. -/
def access (inside : Prop) [Decidable inside] (address : Nat) (x : α) :
    Checked (Except MemoryError α) := do
  if inside then return .ok x
  return .error (.addressOutOfRange (← toSigned address))

def read (mem : Memory) (a : Nat) : Checked (Except MemoryError Word) :=
  access (a < memorySize) a (mem.cell a)

def write (mem : Memory) (a : Nat) (w : Word) : Checked (Except MemoryError Memory) :=
  access (a < memorySize) a (mem.put a w)

def slice (mem : Memory) (first stop : Nat) : Checked (Except MemoryError (List Word)) :=
  access (first ≤ stop ∧ stop ≤ memorySize) stop (mem.words first (stop - first))

/-- Copies words into the cells from `first` up to `stop`, the end excluded. -/
def replace (mem : Memory) (first stop : Nat) (ws : List Word) :
    Checked (Except MemoryError Memory) := do
  if first ≤ stop ∧ stop ≤ memorySize then
    return .ok (mem.putWords first (← copy (stop - first) ws))
  return .error (.addressOutOfRange (← toSigned stop))

section Memory

variable {mem : Memory} {a first stop : Nat}

theorem index_eq (address : Int) : index address = .ok (Memory.index address) := by
  have size : memorySize = 4000 := rfl
  unfold index Memory.index
  by_cases inside : 0 ≤ address ∧ address < memorySize
  · rw [if_neg (by omega), if_pos inside, toUnsigned_ok ⟨inside.1, by grind⟩, ok_bind, pure_eq]
  · rw [if_pos (by omega), if_neg inside, pure_eq]

/-- A block whose length is a number of cells that a run can have. -/
theorem block_eq (start : Int) {length : Nat} (short : length < 0x2000000000000000) :
    block start length = .ok (Memory.block start length) := by
  have size : memorySize = 4000 := rfl
  unfold block Memory.block
  rw [index_eq, ok_bind]
  cases first : Memory.index start with
  | error e => rfl
  | ok a =>
      obtain ⟨rfl, inside⟩ := Memory.index_eq_ok_iff.1 first
      dsimp only
      have whole : a + length < u64 := by grind
      have stop : (a + length) % 0x10000000000000000 = a + length := Nat.mod_eq_of_lt whole
      by_cases empty : length = 0
      · subst empty
        rw [if_pos rfl, add_ok whole, ok_bind, ok_bind, if_neg (Nat.lt_irrefl 0), stop]
        rfl
      · rw [if_neg empty, toSigned_ok (by unfold InI64; omega), ok_bind,
          addI_ok (by unfold InI64; omega), ok_bind, subI_ok (by unfold InI64; omega), ok_bind,
          index_eq, ok_bind, ok_bind, if_pos (Nat.pos_of_ne_zero empty), Memory.lastAddress,
          if_pos (by omega), Memory.wrap64_of_lt (by omega) (by omega)]
        cases Memory.index ((a : Int) + length - 1) with
        | error e => rfl
        | ok last =>
            dsimp only
            rw [add_ok whole, ok_bind, ok_bind, stop]
            rfl

/-- An address in memory is far from sixty-three bits. -/
theorem small_of_lt {a : Nat} (inside : a < memorySize) : a < 0x8000000000000000 := by
  have size : memorySize = 4000 := rfl
  omega

/-- An address in memory is a program counter. -/
theorem narrow_address {a : Nat} (inside : a < memorySize) : narrow u16 a = .ok a := by
  have size : memorySize = 4000 := rfl
  exact narrow_ok (by grind)

theorem access_eq {inside : Prop} [Decidable inside] (small : a < 0x8000000000000000) (x : α) :
    access inside a x =
      .ok (if inside then .ok x else .error (.addressOutOfRange (Memory.signed64 a))) := by
  unfold access
  rw [Memory.signed64_of_lt small, toSigned_ok (by unfold InI64; omega)]
  split <;> rfl

theorem read_eq (small : a < 0x8000000000000000) : read mem a = .ok (mem.read a) := by
  unfold read
  rw [access_eq small]
  by_cases inside : a < memorySize
  · rw [if_pos inside, mem.read_eq inside]
  · rw [if_neg inside, Memory.read, dif_neg inside]

theorem write_eq (small : a < 0x8000000000000000) (w : Word) :
    write mem a w = .ok (mem.write a w) :=
  access_eq small _

theorem slice_eq (small : stop < 0x8000000000000000) :
    slice mem first stop = .ok (mem.slice first stop) :=
  access_eq small _

theorem replace_eq (small : stop < 0x8000000000000000) {ws : List Word}
    (whole : ws.length = stop - first) :
    replace mem first stop ws = .ok (mem.replace first stop ws) := by
  unfold replace Memory.replace
  rw [copy_ok whole, Memory.signed64_of_lt small, toSigned_ok (by unfold InI64; omega)]
  split <;> rfl

end Memory

/-! ## The block of a device -/

/-- Copies the block of a device into a run of so many words. -/
def input (length : Nat) (b : Buffer) :
    Checked (EStateM.Result DeviceError Buffer (Vector Word length)) := do
  if b.block.length = length then
    let _ ← copy length b.block
  return Buffer.input length b

/-- Copies a run of words into the block of a device. -/
def output (ws : List Word) (b : Buffer) : Checked (EStateM.Result DeviceError Buffer Unit) := do
  if ws.length = b.block.length then
    let _ ← copy b.block.length ws
  return Buffer.load ws b

theorem input_eq (length : Nat) (d : Buffer) : input length d = .ok (Buffer.input length d) := by
  unfold input
  by_cases same : d.block.length = length
  · rw [if_pos same, copy_ok same]
    rfl
  · rw [if_neg same]
    rfl

theorem output_eq (ws : List Word) (d : Buffer) : output ws d = .ok (Buffer.load ws d) := by
  unfold output
  by_cases same : ws.length = d.block.length
  · rw [if_pos same, copy_ok same]
    rfl
  · rw [if_neg same]
    rfl

end Checked

end MixMachine
