import TodoRust.Lib.Run

/-!
# Nested brackets

A sequence of enters and exits in which every exit is of the bracket entered last.
The open brackets are kept beside the state; entering one changes the state by what
was found there, and an exit is meant to undo this.
-/

namespace TodoRust.Lib

variable {ι φ σ : Type}

inductive NestedEvent (ι φ : Type)
  | enter (id : ι) (found : φ)
  | exit (id : ι)
  deriving DecidableEq

/-- An open bracket, with the state it was entered in. -/
structure Frame (ι φ σ : Type) where
  id : ι
  found : φ
  before : σ

/-- One event of a nested sequence; the frames are the open brackets, innermost first. -/
def nestedStep [DecidableEq ι] (enter : φ → σ → σ) (exit : σ → σ)
    (s : σ × List (Frame ι φ σ)) (e : NestedEvent ι φ) : Option (σ × List (Frame ι φ σ)) :=
  match e, s with
  | .enter id found, (s, frames) => some (enter found s, ⟨id, found, s⟩ :: frames)
  | .exit id, (s, frame :: frames) => if frame.id = id then some (exit s, frames) else none
  | .exit _, (_, []) => none

/-- The state is what entering the open brackets, and nothing else, makes of `s₀`. -/
inductive Opened (enter : φ → σ → σ) (s₀ : σ) : List (Frame ι φ σ) → σ → Prop
  | nil : Opened enter s₀ [] s₀
  | cons {frames s} (id found) (h : Opened enter s₀ frames s) :
      Opened enter s₀ (⟨id, found, s⟩ :: frames) (enter found s)

/-- Every exit that happens in such a state gives back the state before the enter. -/
def Undone (enter : φ → σ → σ) (exit : σ → σ) (s₀ : σ)
    (h : List ((σ × List (Frame ι φ σ)) × NestedEvent ι φ)) : Prop :=
  ∀ s frame frames id, ((s, frame :: frames), NestedEvent.exit id) ∈ h →
    Opened enter s₀ (frame :: frames) s → exit s = frame.before

variable {enter : φ → σ → σ} {exit : σ → σ} {s₀ : σ}

theorem Opened.before {frame : Frame ι φ σ} {frames : List (Frame ι φ σ)} {s : σ}
    (hopened : Opened enter s₀ (frame :: frames) s) :
    Opened enter s₀ frames frame.before ∧ s = enter frame.found frame.before := by
  cases hopened with
  | cons id found h => exact ⟨h, rfl⟩

variable [DecidableEq ι]
  {h : List ((σ × List (Frame ι φ σ)) × NestedEvent ι φ)} {s : σ × List (Frame ι φ σ)}

theorem Opened.step {e : NestedEvent ι φ} {s' : σ × List (Frame ι φ σ)}
    (hopened : Opened enter s₀ s.2 s.1) (hundone : Undone enter exit s₀ [(s, e)])
    (hs : nestedStep enter exit s e = some s') : Opened enter s₀ s'.2 s'.1 := by
  obtain ⟨s, frames⟩ := s
  cases e with
  | enter id found =>
      obtain rfl := Option.some.inj hs
      exact .cons id found hopened
  | exit id =>
      cases frames with
      | nil => cases hs
      | cons frame frames =>
          have hexit := hundone s frame frames id (by simp) hopened
          obtain ⟨_, hs⟩ := Option.ite_none_right_eq_some.mp hs
          obtain rfl := Option.some.inj hs
          rw [hexit]
          exact hopened.before.1

/-- While exits undo their enters, the state is that of the open brackets. -/
theorem Run.opened (run : Run (nestedStep enter exit) (s₀, []) h s)
    (hundone : Undone enter exit s₀ h) : Opened enter s₀ s.2 s.1 := by
  induction run with
  | nil => exact .nil
  | @snoc h s e s' _ hs ih =>
      refine (ih fun s frame frames id hx => ?_).step (fun s frame frames id hx => ?_) hs
      · exact hundone s frame frames id (List.mem_append_left _ hx)
      · exact hundone s frame frames id (List.mem_append_right _ hx)

/-- And so it is in every state that was passed. -/
theorem Run.opened_at (run : Run (nestedStep enter exit) (s₀, []) h s)
    (hundone : Undone enter exit s₀ h) {k : Nat} (hk : k ≤ h.length) :
    Opened enter s₀ (stateAt h s k).2 (stateAt h s k).1 := by
  rcases Nat.lt_or_eq_of_le hk with hlt | rfl
  · have hx : h[k]? = some h[k] := List.getElem?_eq_getElem hlt
    rw [stateAt_of_getElem? hx]
    exact (run.split hx).1.opened fun s frame frames id hmem =>
      hundone s frame frames id (List.mem_of_mem_take hmem)
  · rw [stateAt_length]
    exact run.opened hundone

theorem Run.opened_of_mem (run : Run (nestedStep enter exit) (s₀, []) h s)
    (hundone : Undone enter exit s₀ h) {x : (σ × List (Frame ι φ σ)) × NestedEvent ι φ}
    (hx : x ∈ h) : Opened enter s₀ x.1.2 x.1.1 := by
  obtain ⟨k, hk⟩ := List.mem_iff_getElem?.mp hx
  have hopened := run.opened_at hundone (Nat.le_of_lt (lt_length_of_getElem? hk))
  rwa [stateAt_of_getElem? hk] at hopened

end TodoRust.Lib
