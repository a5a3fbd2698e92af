import Mathlib.Init

/-!
# Results that may be errors

What is known of the parts of a computation from what it ends in.
-/

namespace TodoRust.Lib

section Inversion
variable {ε α β : Type} {x : Except ε α}

theorem bind_ok {f : α → Except ε β} {b : β} (h : x.bind f = .ok b) :
    ∃ a, x = .ok a ∧ f a = .ok b := by
  cases x with
  | error e => cases h
  | ok a => exact ⟨a, rfl, h⟩

theorem map_ok {f : α → β} {b : β} (h : x.map f = .ok b) : ∃ a, x = .ok a ∧ f a = b := by
  cases x with
  | error e => cases h
  | ok a => exact ⟨a, rfl, Except.ok.inj h⟩

end Inversion

end TodoRust.Lib
