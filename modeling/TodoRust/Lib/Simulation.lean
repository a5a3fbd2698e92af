import TodoRust.Lib.Prog

/-!
# Executions and simulation

An execution of a program lists the effects it performs, each with the choice that was
made for it. One program simulates another when every execution of the other is matched
by one of its own with the same result; the two may perform different effects, in worlds
of different kinds.
-/

namespace TodoRust.Lib.Prog

variable {E : Type} {R : E → Type} {C σ τ α β ε : Type}

/-- What a program can do from a state: its steps, its result and its last state. -/
inductive Exec (act : C → (e : E) → σ → R e × σ) :
    Prog E R α → σ → List (E × C) → α → σ → Prop
  | ret (a : α) (s : σ) : Exec act (.ret a) s [] a s
  | op {e : E} {k : R e → Prog E R α} {s s' : σ} {c : C} {steps : List (E × C)} {a : α}
      (h : Exec act (k (act c e s).1) (act c e s).2 steps a s') :
      Exec act (.op e k) s ((e, c) :: steps) a s'

/-- The steps of one program alone: the effects of `performed`, with their choices. -/
def steps (act : C → (e : E) → σ → R e × σ) : Prog E R α → (Nat → C) → σ → List (E × C)
  | .ret _, _, _ => []
  | .op e k, cs, s =>
      let done := act (cs 0) e s
      (e, cs 0) :: steps act (k done.1) (fun n => cs (n + 1)) done.2

section Exec
variable {act : C → (e : E) → σ → R e × σ}

/-- The effects of the steps are the effects performed. -/
theorem steps_performed (p : Prog E R α) (cs : Nat → C) (s : σ) :
    (p.steps act cs s).map Prod.fst = p.performed act cs s := by
  induction p generalizing cs s with
  | ret a => rfl
  | op e k ih => exact congrArg (e :: ·) (ih _ _ _)

/-- Every choice comes from the given ones. -/
theorem steps_choice (p : Prog E R α) (cs : Nat → C) (s : σ) :
    ∀ x ∈ p.steps act cs s, ∃ n, x.2 = cs n := by
  induction p generalizing cs s with
  | ret a => exact fun x hx => by cases hx
  | op e k ih =>
      intro x hx
      rcases List.mem_cons.mp hx with rfl | hx
      · exact ⟨0, rfl⟩
      · obtain ⟨n, hn⟩ := ih _ _ _ x hx
        exact ⟨n + 1, hn⟩

/-- A run is an execution. -/
theorem exec_run (act : C → (e : E) → σ → R e × σ) (p : Prog E R α) (cs : Nat → C) (s : σ) :
    Exec act p s (p.steps act cs s) (p.run act cs s).1 (p.run act cs s).2 := by
  induction p generalizing cs s with
  | ret a => exact .ret a s
  | op e k ih => exact .op (ih _ _ _)

/-- An execution is a run; what is chosen after its last step does not matter. -/
theorem Exec.run {p : Prog E R α} {s s' : σ} {l : List (E × C)} {a : α}
    (h : Exec act p s l a s') (later : Nat → C) :
    ∃ cs, p.run act cs s = (a, s') ∧ p.steps act cs s = l := by
  induction h with
  | ret a s => exact ⟨later, rfl, rfl⟩
  | @op e k s s' c l a _ ih =>
      obtain ⟨cs, hrun, hsteps⟩ := ih
      let choices : Nat → C
        | 0 => c
        | n + 1 => cs n
      exact ⟨choices, hrun, congrArg ((e, c) :: ·) hsteps⟩

/-- The parts of a sequence, one after the other. -/
theorem Exec.bind {p : Prog E R α} {f : α → Prog E R β} {s s' s'' : σ} {l l' : List (E × C)}
    {a : α} {b : β} (hp : Exec act p s l a s') (hf : Exec act (f a) s' l' b s'') :
    Exec act (p >>= f) s (l ++ l') b s'' := by
  induction hp with
  | ret a s => exact hf
  | op _ ih => exact .op (ih hf)

/-- An execution of a sequence is made of executions of its parts. -/
theorem Exec.bind_inv {p : Prog E R α} {f : α → Prog E R β} {s s'' : σ} {l : List (E × C)} {b : β}
    (h : Exec act (p >>= f) s l b s'') :
    ∃ l₁ l₂ a s', l = l₁ ++ l₂ ∧ Exec act p s l₁ a s' ∧ Exec act (f a) s' l₂ b s'' := by
  induction p generalizing s l with
  | ret a => exact ⟨[], l, a, s, rfl, .ret a s, h⟩
  | op e k ih =>
      cases h with
      | @op _ _ _ _ c l _ h =>
          obtain ⟨l₁, l₂, a, s', rfl, hk, hf⟩ := ih _ h
          exact ⟨(e, c) :: l₁, l₂, a, s', rfl, .op hk, hf⟩

/-- What each of its steps keeps, an execution keeps. -/
theorem Exec.invariant {I : σ → Prop} {p : Prog E R α} {s s' : σ} {l : List (E × C)} {a : α}
    (h : Exec act p s l a s') (hstep : ∀ x ∈ l, ∀ s, I s → I (act x.2 x.1 s).2) (hI : I s) :
    I s' := by
  induction h with
  | ret a s => exact hI
  | @op e k s s' c l a _ ih =>
      apply ih
      · exact fun x hx => hstep x (List.mem_cons_of_mem _ hx)
      · exact hstep (e, c) (List.mem_cons_self ..) s hI

/-- Every step of a program that obeys is one of the permitted. -/
theorem Exec.permitted {allowed : E → Prop} {p : Prog E R α} {s s' : σ} {l : List (E × C)} {a : α}
    {post : α → Unit → Prop} (h : Exec act p s l a s')
    (hp : Obeys (.permitting allowed) post () p) : ∀ x ∈ l, allowed x.1 := by
  induction h with
  | ret a s => exact fun x hx => by cases hx
  | op _ ih => exact List.forall_mem_cons.mpr ⟨hp.1, ih (hp.2 _ trivial)⟩

end Exec

/-- Every execution of `p` from states related by `pre`, all of whose steps are `ok`, is
matched by an execution of `q` with the same result, and `post` relates the last states. -/
def Simulates (act : C → (e : E) → σ → R e × σ) (act' : C → (e : E) → τ → R e × τ)
    (ok : E → C → Prop) (pre : σ → τ → Prop) (p q : Prog E R α)
    (post : α → σ → τ → Prop) : Prop :=
  ∀ s t l a s', pre s t → Exec act p s l a s' → (∀ x ∈ l, ok x.1 x.2) →
    ∃ l' t', Exec act' q t l' a t' ∧ post a s' t'

namespace Simulates
variable {act : C → (e : E) → σ → R e × σ} {act' : C → (e : E) → τ → R e × τ}
variable {ok : E → C → Prop} {pre : σ → τ → Prop} {p q : Prog E R α}

theorem ret {post : α → σ → τ → Prop} {a b : α} (h : ∀ s t, pre s t → b = a ∧ post a s t) :
    Simulates act act' ok pre (.ret a) (.ret b) post := by
  intro s t l a' s' hpre hexec _
  cases hexec with
  | ret =>
      obtain ⟨rfl, hpost⟩ := h s t hpre
      exact ⟨[], t, .ret _ t, hpost⟩

/-- Consequence. -/
theorem mono {pre' : σ → τ → Prop} {post post' : α → σ → τ → Prop}
    (h : Simulates act act' ok pre p q post) (hpre : ∀ s t, pre' s t → pre s t)
    (hpost : ∀ a s t, post a s t → post' a s t) : Simulates act act' ok pre' p q post' := by
  intro s t l a s' hrel hexec hok
  obtain ⟨l', t', hexec', hdone⟩ := h s t l a s' (hpre s t hrel) hexec hok
  exact ⟨l', t', hexec', hpost a s' t' hdone⟩

/-- Sequencing. -/
theorem bind {post : α → σ → τ → Prop} {fin : β → σ → τ → Prop} {f g : α → Prog E R β}
    (h : Simulates act act' ok pre p q post)
    (hf : ∀ a, Simulates act act' ok (post a) (f a) (g a) fin) :
    Simulates act act' ok pre (p >>= f) (q >>= g) fin := by
  intro s t l b s'' hpre hexec hok
  obtain ⟨l₁, l₂, a, s', rfl, hp, hrest⟩ := hexec.bind_inv
  obtain ⟨l₁', t', hq, hmid⟩ :=
    h s t l₁ a s' hpre hp fun x hx => hok x (List.mem_append_left _ hx)
  obtain ⟨l₂', t'', hg, hfin⟩ :=
    hf a s' t' l₂ b s'' hmid hrest fun x hx => hok x (List.mem_append_right _ hx)
  exact ⟨l₁' ++ l₂', t'', hq.bind hg, hfin⟩

/-- A step of `p` alone. -/
theorem left {post : α → σ → τ → Prop} {e : E} {k : R e → Prog E R α}
    (mid : R e → σ → τ → Prop)
    (hstep : ∀ c s t, ok e c → pre s t → mid (act c e s).1 (act c e s).2 t)
    (hk : ∀ r, Simulates act act' ok (mid r) (k r) q post) :
    Simulates act act' ok pre (.op e k) q post := by
  intro s t l a s' hpre hexec hok
  cases hexec with
  | @op _ _ _ _ c l _ hexec =>
      have hmid := hstep c s t (hok (e, c) (List.mem_cons_self ..)) hpre
      exact hk _ _ t l a s' hmid hexec fun x hx => hok x (List.mem_cons_of_mem _ hx)

/-- A step of `q` alone, for which a choice is found. -/
theorem right {post : α → σ → τ → Prop} {e : E} {k : R e → Prog E R α}
    (mid : R e → σ → τ → Prop)
    (hstep : ∀ s t, pre s t → ∃ c, mid (act' c e t).1 s (act' c e t).2)
    (hk : ∀ r, Simulates act act' ok (mid r) p (k r) post) :
    Simulates act act' ok pre p (.op e k) post := by
  intro s t l a s' hpre hexec hok
  obtain ⟨c, hmid⟩ := hstep s t hpre
  obtain ⟨l', t', hexec', hpost⟩ := hk _ s _ l a s' hmid hexec hok
  exact ⟨(e, c) :: l', t', .op hexec', hpost⟩

/-- A step that both take, with the same reply. -/
theorem both {post : α → σ → τ → Prop} {e : E} {k k' : R e → Prog E R α}
    (mid : R e → σ → τ → Prop)
    (hstep : ∀ c s t, ok e c → pre s t →
      ∃ c', (act' c' e t).1 = (act c e s).1 ∧ mid (act c e s).1 (act c e s).2 (act' c' e t).2)
    (hk : ∀ r, Simulates act act' ok (mid r) (k r) (k' r) post) :
    Simulates act act' ok pre (.op e k) (.op e k') post := by
  intro s t l a s' hpre hexec hok
  cases hexec with
  | @op _ _ _ _ c l _ hexec =>
      obtain ⟨c', hreply, hmid⟩ := hstep c s t (hok (e, c) (List.mem_cons_self ..)) hpre
      obtain ⟨l', t', hexec', hpost⟩ :=
        hk _ _ _ l a s' hmid hexec fun x hx => hok x (List.mem_cons_of_mem _ hx)
      refine ⟨(e, c') :: l', t', .op ?_, hpost⟩
      rw [hreply]
      exact hexec'

/-- A program simulates itself across a relation that each of its steps keeps, with the
same replies on both sides. -/
theorem refl_of_obeys {M : Type} {mon : Monitor E R M} {post : α → M → Prop} {m : M}
    {rel : σ → τ → Prop} (hp : Obeys mon post m p)
    (hreplies : ∀ m e r, mon.answers m e r)
    (hstep : ∀ m e c s t, mon.allows m e → ok e c → rel s t →
      ∃ c', (act' c' e t).1 = (act c e s).1 ∧ rel (act c e s).2 (act' c' e t).2) :
    Simulates act act' ok rel p p fun _ => rel := by
  induction p generalizing m with
  | ret a => exact ret fun _ _ h => ⟨rfl, h⟩
  | op e k ih =>
      apply both (fun _ => rel)
      · exact fun c s t hok hrel => hstep m e c s t hp.1 hok hrel
      · exact fun r => ih r (hp.2 r (hreplies m e r))

/-- A run of `p` whose steps are `ok` is matched by a run of `q`. -/
theorem run {post : α → σ → τ → Prop} (h : Simulates act act' ok pre p q post) {s : σ} {t : τ}
    (hpre : pre s t) (cs : Nat → C) (hok : ∀ x ∈ p.steps act cs s, ok x.1 x.2) :
    ∃ cs', (q.run act' cs' t).1 = (p.run act cs s).1 ∧
      post (p.run act cs s).1 (p.run act cs s).2 (q.run act' cs' t).2 := by
  obtain ⟨l', t', hexec, hpost⟩ := h s t _ _ _ hpre (exec_run act p cs s) hok
  obtain ⟨cs', hrun, -⟩ := hexec.run cs
  refine ⟨cs', ?_⟩
  rw [hrun]
  exact ⟨rfl, hpost⟩

end Simulates

end TodoRust.Lib.Prog
