import TodoRust.Lib.Prog

/-!
# Programs that do the same from many states

A program is uniform over a kind of states if, with the same choices, it gives one result
from all of them, performs effects that look alike, and leaves the state as it was. Whoever
sees the result and the look of the effects cannot tell such states apart.
-/

namespace TodoRust.Lib.Prog

variable {E O : Type} {R : E → Type} {C σ α β : Type}

/-- A sequence, with as many choices used up as effects were performed. -/
theorem run_bind_performed (act : C → (e : E) → σ → R e × σ) (p : Prog E R α)
    (f : α → Prog E R β) (cs : Nat → C) (s : σ) :
    let later := fun n => cs ((p.performed act cs s).length + n)
    let done := p.run act cs s
    (p >>= f).run act cs s = (f done.1).run act later done.2 ∧
      (p >>= f).performed act cs s =
        p.performed act cs s ++ (f done.1).performed act later done.2 := by
  induction p generalizing cs s with
  | ret a =>
      simp only [performed, List.length_nil, Nat.zero_add]
      exact ⟨rfl, rfl⟩
  | op e k ih =>
      obtain ⟨hrun, hperformed⟩ := ih (act (cs 0) e s).1 (fun n => cs (n + 1)) (act (cs 0) e s).2
      have hlater : ∀ l : List E, (fun n => cs (l.length + n + 1)) =
          fun n => cs ((e :: l).length + n) := by
        intro l
        funext n
        rw [List.length_cons, Nat.add_right_comm]
      rw [hlater] at hrun hperformed
      exact ⟨hrun, congrArg (e :: ·) hperformed⟩

/-- From all states of the kind, one result, which is as `post` says, and one look. -/
def Uniform (act : C → (e : E) → σ → R e × σ) (look : E → O) (kind : σ → Prop)
    (post : α → Prop) (p : Prog E R α) : Prop :=
  ∀ cs, ∃ a l, post a ∧ ∀ s, kind s →
    p.run act cs s = (a, s) ∧ (p.performed act cs s).map look = l

namespace Uniform
variable {act : C → (e : E) → σ → R e × σ} {look : E → O} {kind : σ → Prop}
variable {post : α → Prop} {fin : β → Prop}

theorem ret {a : α} (h : post a) : Uniform act look kind post (.ret a) :=
  fun _ => ⟨a, [], h, fun _ _ => ⟨rfl, rfl⟩⟩

/-- An effect that is answered from the choice alone. -/
theorem op {e : E} {k : R e → Prog E R α}
    (hact : ∀ c, ∃ r, ∀ s, kind s → act c e s = (r, s))
    (hk : ∀ r, Uniform act look kind post (k r)) : Uniform act look kind post (.op e k) := by
  intro cs
  obtain ⟨r, hr⟩ := hact (cs 0)
  obtain ⟨a, l, ha, hrest⟩ := hk r fun n => cs (n + 1)
  refine ⟨a, look e :: l, ha, fun s hs => ?_⟩
  obtain ⟨hrun, hlook⟩ := hrest s hs
  simp only [run_op, performed, List.map_cons, hr s hs]
  exact ⟨hrun, congrArg (look e :: ·) hlook⟩

theorem bind {p : Prog E R α} {f : α → Prog E R β} (hp : Uniform act look kind post p)
    (hf : ∀ a, post a → Uniform act look kind fin (f a)) :
    Uniform act look kind fin (p >>= f) := by
  intro cs
  obtain ⟨a, l, ha, hfirst⟩ := hp cs
  obtain ⟨b, l', hb, hsecond⟩ := hf a ha fun n => cs (l.length + n)
  refine ⟨b, l ++ l', hb, fun s hs => ?_⟩
  obtain ⟨hrun, hlook⟩ := hfirst s hs
  obtain ⟨hrun', hlook'⟩ := hsecond s hs
  have hlength : (p.performed act cs s).length = l.length := by rw [← hlook, List.length_map]
  obtain ⟨hboth, hperformed⟩ := run_bind_performed act p f cs s
  simp only [hrun, hlength] at hboth hperformed
  rw [hboth, hperformed, List.map_append, hlook, hlook']
  exact ⟨hrun', rfl⟩

end Uniform

end TodoRust.Lib.Prog
