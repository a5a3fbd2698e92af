import TodoRust.Lib.Simulation

/-!
# Preconditions and postconditions

What every execution of a program leaves behind, when it begins in a state with the
precondition and the environment makes no choice but those that are allowed for.
-/

namespace TodoRust.Lib.Prog

variable {E : Type} {R : E → Type} {C σ α β : Type}

/-- Every execution of `p` from a state with `pre`, all of whose steps are `ok`, ends with
a result and a state that `post` relates. -/
def Ensures (act : C → (e : E) → σ → R e × σ) (ok : E → C → Prop) (pre : σ → Prop)
    (p : Prog E R α) (post : α → σ → Prop) : Prop :=
  ∀ s l a s', pre s → Exec act p s l a s' → (∀ x ∈ l, ok x.1 x.2) → post a s'

namespace Ensures
variable {act : C → (e : E) → σ → R e × σ} {ok : E → C → Prop} {pre : σ → Prop}
variable {p : Prog E R α} {post : α → σ → Prop}

theorem ret {a : α} (h : ∀ s, pre s → post a s) : Ensures act ok pre (.ret a) post := by
  intro s l a' s' hpre hexec _
  cases hexec with
  | ret => exact h s hpre

/-- A stronger precondition. -/
theorem of_pre {pre' : σ → Prop} (h : Ensures act ok pre p post) (hpre : ∀ s, pre' s → pre s) :
    Ensures act ok pre' p post :=
  fun s l a s' hs => h s l a s' (hpre s hs)

/-- Sequencing. -/
theorem bind {fin : β → σ → Prop} {f : α → Prog E R β} (h : Ensures act ok pre p post)
    (hf : ∀ a, Ensures act ok (post a) (f a) fin) : Ensures act ok pre (p >>= f) fin := by
  intro s l b s'' hpre hexec hok
  obtain ⟨l₁, l₂, a, s', rfl, hp, hrest⟩ := hexec.bind_inv
  have hmid := h s l₁ a s' hpre hp fun x hx => hok x (List.mem_append_left _ hx)
  exact hf a s' l₂ b s'' hmid hrest fun x hx => hok x (List.mem_append_right _ hx)

/-- One step, and what follows it. -/
theorem op {e : E} {k : R e → Prog E R α} (mid : R e → σ → Prop)
    (hstep : ∀ c s, ok e c → pre s → mid (act c e s).1 (act c e s).2)
    (hk : ∀ r, Ensures act ok (mid r) (k r) post) : Ensures act ok pre (.op e k) post := by
  intro s l a s' hpre hexec hok
  cases hexec with
  | @op _ _ _ _ c l _ hexec =>
      have hmid := hstep c s (hok (e, c) (List.mem_cons_self ..)) hpre
      exact hk _ _ l a s' hmid hexec fun x hx => hok x (List.mem_cons_of_mem _ hx)

/-- What each permitted step keeps, a program that obeys keeps. -/
theorem keeps {allowed : E → Prop} {done : α → Unit → Prop} {I : σ → Prop}
    (hp : Obeys (.permitting allowed) done () p)
    (hstep : ∀ e c s, allowed e → ok e c → I s → I (act c e s).2) :
    Ensures act ok I p fun _ => I := by
  intro s l a s' hI hexec hok
  apply hexec.invariant _ hI
  exact fun x hx s hs => hstep x.1 x.2 s (hexec.permitted hp x hx) (hok x hx) hs

/-- A run whose steps are `ok` ends so. -/
theorem run (h : Ensures act ok pre p post) {s : σ} (hpre : pre s) (cs : Nat → C)
    (hok : ∀ x ∈ p.steps act cs s, ok x.1 x.2) : post (p.run act cs s).1 (p.run act cs s).2 :=
  h s _ _ _ hpre (exec_run act p cs s) hok

end Ensures

end TodoRust.Lib.Prog
