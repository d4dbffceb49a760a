/-!
# Checks one after the other

Decoders, readers and accesses to memory are chains of checks, each of which may answer
with an error. A chain that passes has passed each of its checks, so what a reader accepts
is taken apart from its last check to its first; a chain that fails, up to the check that
failed.
-/

namespace MixMachine

variable {ε α β γ : Type}

/-! ## One check -/

section Check

variable {p : Prop} [Decidable p] {a b : α} {e e' : ε}

theorem check_eq_ok_iff : (if p then Except.ok a else .error e) = .ok b ↔ p ∧ b = a := by
  by_cases h : p
  · rw [if_pos h, Except.ok.injEq]
    exact ⟨fun same => ⟨h, same.symm⟩, fun passed => passed.2.symm⟩
  · rw [if_neg h]
    constructor
    · intro answer
      cases answer
    · intro passed
      exact absurd passed.1 h

theorem check_eq_error_iff :
    (if p then Except.ok a else .error e) = .error e' ↔ ¬ p ∧ e' = e := by
  by_cases h : p
  · rw [if_pos h]
    constructor
    · intro answer
      cases answer
    · intro failed
      exact absurd h failed.1
  · rw [if_neg h, Except.error.injEq]
    exact ⟨fun same => ⟨h, same.symm⟩, fun failed => failed.2.symm⟩

end Check

/-! ## Chains -/

theorem bind_eq_ok {x : Except ε α} {f : α → Except ε β} {b : β} (h : (x >>= f) = .ok b) :
    ∃ a, x = .ok a ∧ f a = .ok b := by
  cases x with
  | error e => cases h
  | ok a => exact ⟨a, rfl, h⟩

theorem map_eq_ok {f : α → β} {x : Except ε α} {b : β} (h : f <$> x = .ok b) :
    ∃ a, x = .ok a ∧ f a = b := by
  cases x with
  | error e => cases h
  | ok a => exact ⟨a, rfl, Except.ok.inj h⟩

theorem map_seq_eq_ok {f : α → β → γ} {x : Except ε α} {y : Except ε β} {c : γ}
    (h : f <$> x <*> y = .ok c) : ∃ a b, x = .ok a ∧ y = .ok b ∧ f a b = c := by
  cases x with
  | error e => cases h
  | ok a =>
      cases y with
      | error e => cases h
      | ok b => exact ⟨a, b, rfl, rfl, Except.ok.inj h⟩

/-- A chain that fails has failed one of its checks. -/
theorem bind_eq_error {x : Except ε α} {f : α → Except ε β} {e : ε}
    (h : (x >>= f) = .error e) : x = .error e ∨ ∃ a, x = .ok a ∧ f a = .error e := by
  cases x with
  | error e' => exact .inl (congrArg Except.error (Except.error.inj h))
  | ok a => exact .inr ⟨a, rfl, h⟩

theorem map_eq_error {f : α → β} {x : Except ε α} {e : ε} (h : f <$> x = .error e) :
    x = .error e := by
  cases x with
  | error e' => exact congrArg Except.error (Except.error.inj h)
  | ok a => cases h

/-! ## Errors in other words -/

variable {ε' : Type} (g : ε → ε')

theorem mapError_bind (x : Except ε α) (f : α → Except ε β) :
    (x >>= f).mapError g = x.mapError g >>= fun a => (f a).mapError g := by
  cases x <;> rfl

theorem mapError_map (f : α → β) (x : Except ε α) :
    (f <$> x).mapError g = f <$> x.mapError g := by
  cases x <;> rfl

end MixMachine
