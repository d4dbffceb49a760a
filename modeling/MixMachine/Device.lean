import MixMachine.Word.Basic

/-!
# Devices

The machine works a peripheral only through the hooks of `Device`. A hook may
change the device and may fail; what a failing hook leaves behind is the
device's own business, so it is part of the answer.

`Buffer` is the device that holds one block and is never busy. `Devices` is the
registry: which unit has which device attached.
-/

namespace MixMachine

/-- Why a device operation failed. -/
inductive DeviceError where
  /-- No device is attached to the unit. -/
  | noSuchDevice (unit : Nat)
  /-- The device moves blocks of another size. -/
  | blockSize (expected got : Nat)
  deriving DecidableEq

namespace DeviceError

/-- What a user is told. -/
def message : DeviceError → String
  | noSuchDevice unit => s!"no device attached to unit {Decimal.natural unit}"
  | blockSize expected got =>
    s!"block size mismatch: device moves {Decimal.natural expected} words, " ++
      s!"got {Decimal.natural got}"

end DeviceError

/-- What a peripheral of type `δ` does for the machine. -/
class Device (δ : Type) where
  /-- The number of words of one block. -/
  blockSize : δ → Nat
  /-- Whether the device is still at work. -/
  isBusy : δ → Bool
  /-- Moves the device, in a way of its own that the number chooses. -/
  control : Int → EStateM DeviceError δ Unit
  /-- Gives a block of `n` words. -/
  input : (n : Nat) → EStateM DeviceError δ (Vector Word n)
  /-- Takes a block. -/
  output : List Word → EStateM DeviceError δ Unit

/-! ## The device that holds one block -/

/-- A named device that holds one block. -/
structure Buffer where
  name : String
  block : List Word
  deriving DecidableEq

namespace Buffer

/-- A device that moves `size` words and holds zeros. -/
def zeros (name : String) (size : Nat) : Buffer :=
  ⟨name, List.replicate size .zero⟩

/-- Replaces the block by one of the same size. -/
def load (ws : List Word) : EStateM DeviceError Buffer Unit := fun b =>
  if ws.length = b.block.length then .ok () { b with block := ws }
  else .error (.blockSize b.block.length ws.length) b

/-- Copies the block out, when it has `n` words. -/
def input (n : Nat) : EStateM DeviceError Buffer (Vector Word n) := fun b =>
  if h : b.block.length = n then .ok ⟨b.block.toArray, by simpa using h⟩ b
  else .error (.blockSize b.block.length n) b

instance : Device Buffer where
  blockSize b := b.block.length
  isBusy _ := false
  control _ := pure ()
  input := input
  output := load

end Buffer

/-! ## The registry -/

/-- The number of units that a registry has room for. -/
def unitCount : Nat := 256

/-- Which device each unit has. -/
structure Devices (δ : Type) where
  slots : Vector (Option δ) unitCount

namespace Devices

variable {δ : Type}

/-- No device on any unit. -/
def empty : Devices δ :=
  ⟨Vector.replicate unitCount none⟩

/-- The device on a unit. -/
def get? (ds : Devices δ) (unit : Nat) : Option δ :=
  ds.slots[unit]?.join

/-- The device on a unit, or the error that there is none. -/
def find (ds : Devices δ) (unit : Nat) : Except DeviceError δ :=
  match ds.get? unit with
  | some d => .ok d
  | none => .error (.noSuchDevice unit)

/-- Puts a device on a unit, in place of the one that was there. -/
def attach (ds : Devices δ) (unit : Nat) (d : δ) : Devices δ :=
  ⟨ds.slots.setIfInBounds unit (some d)⟩

/-- Takes the device off a unit. -/
def detach (ds : Devices δ) (unit : Nat) : Devices δ :=
  ⟨ds.slots.setIfInBounds unit none⟩

/-- The registry with these devices on these units. -/
def ofList (units : List (Nat × δ)) : Devices δ :=
  units.foldl (fun ds (unit, d) => ds.attach unit d) empty

/-- The units that have a device, in ascending order. -/
def units (ds : Devices δ) : List Nat :=
  (List.range unitCount).filter fun unit => (ds.get? unit).isSome

/-- The number of devices. -/
def size (ds : Devices δ) : Nat :=
  ds.units.length

/-- Whether no unit has a device. -/
def isEmpty (ds : Devices δ) : Bool :=
  ds.units.isEmpty

/-- The devices of the standard configuration, all of them buffers: eight tapes,
eight disks, a card reader, a card punch, a line printer, a terminal and a paper
tape. -/
def standardUnits : List (Nat × Buffer) :=
  (List.range 8).map (fun k => (k, Buffer.zeros "tape" 100)) ++
    (List.range 8).map (fun k => (8 + k, Buffer.zeros "disk" 100)) ++
    [(16, .zeros "card reader" 16), (17, .zeros "card punch" 16),
      (18, .zeros "line printer" 24), (19, .zeros "terminal" 14), (20, .zeros "paper tape" 14)]

/-- The standard configuration. -/
def standard : Devices Buffer :=
  ofList standardUnits

/-! ## Looking up -/

theorem find_eq_ok_iff {ds : Devices δ} {unit : Nat} {d : δ} :
    ds.find unit = .ok d ↔ ds.get? unit = some d := by
  unfold find
  cases ds.get? unit <;> simp only [reduceCtorEq, Except.ok.injEq, Option.some.injEq]

theorem find_eq_error_iff {ds : Devices δ} {unit : Nat} {e : DeviceError} :
    ds.find unit = .error e ↔ ds.get? unit = none ∧ e = .noSuchDevice unit := by
  unfold find
  cases ds.get? unit with
  | none => simp only [Except.error.injEq, true_and, eq_comm]
  | some d => simp only [reduceCtorEq, false_and]


@[simp] theorem get?_attach_self (ds : Devices δ) {unit : Nat} (h : unit < unitCount) (d : δ) :
    (ds.attach unit d).get? unit = some d := by
  simp only [get?, attach, Vector.getElem?_setIfInBounds_self_of_lt h, Option.join_some]

theorem get?_attach_of_ne (ds : Devices δ) {u v : Nat} (h : u ≠ v) (d : δ) :
    (ds.attach u d).get? v = ds.get? v := by
  simp only [get?, attach, Vector.getElem?_setIfInBounds_ne h]

/-- Attaching the device that is on the unit changes nothing. -/
theorem attach_get? (ds : Devices δ) {unit : Nat} {d : δ} (h : ds.get? unit = some d) :
    ds.attach unit d = ds := by
  have hs : ds.slots[unit]? = some (some d) := by
    simpa only [get?, Option.join_eq_some_iff] using h
  obtain ⟨hlt, he⟩ := Vector.getElem?_eq_some_iff.1 hs
  obtain ⟨slots⟩ := ds
  simp only [attach, mk.injEq]
  ext1 k hk
  rw [Vector.getElem_setIfInBounds hk]
  split
  · subst_vars; exact he.symm
  · rfl

end Devices

end MixMachine
