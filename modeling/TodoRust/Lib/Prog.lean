import Mathlib.Logic.Function.Basic

/-!
# Programs over atomic effects

A program either returns or performs one atomic effect and continues with its
reply. A monitor is a local automaton that reads the effects of a program; the
`Obeys` judgement is a Hoare rule for it, with the monitor state in place of an
assertion. What a program obeys, every execution of it obeys.
-/

namespace TodoRust.Lib

/-- A program performing effects `e : E`, each answered by an `R e`. -/
inductive Prog (E : Type) (R : E → Type) (α : Type) : Type
  | ret (a : α)
  | op (e : E) (k : R e → Prog E R α)

namespace Prog

variable {E : Type} {R : E → Type} {α β : Type}

def bind : Prog E R α → (α → Prog E R β) → Prog E R β
  | .ret a, f => f a
  | .op e k, f => .op e fun r => (k r).bind f

instance : Monad (Prog E R) where
  pure := .ret
  bind := bind

/-- The program that performs one effect and returns its reply. -/
def perform (e : E) : Prog E R (R e) := .op e .ret

@[simp] theorem pure_eq (a : α) : (pure a : Prog E R α) = .ret a := rfl

@[simp] theorem ret_bind (a : α) (f : α → Prog E R β) : (Prog.ret a >>= f) = f a := rfl

@[simp] theorem op_bind (e : E) (k : R e → Prog E R α) (f : α → Prog E R β) :
    (Prog.op e k >>= f) = .op e fun r => k r >>= f := rfl

theorem bind_ret_id (p : Prog E R α) : p.bind (fun a => .ret a) = p := by
  induction p with
  | ret a => rfl
  | op e k ih => exact congrArg (Prog.op e) (funext ih)

theorem bind_bind {γ : Type} (p : Prog E R α) (f : α → Prog E R β) (g : β → Prog E R γ) :
    (p.bind f).bind g = p.bind fun a => (f a).bind g := by
  induction p with
  | ret a => rfl
  | op e k ih => exact congrArg (Prog.op e) (funext ih)

instance : LawfulMonad (Prog E R) :=
  LawfulMonad.mk' _ bind_ret_id (fun _ _ => rfl) bind_bind

/-- The next effect of a program, if it has not returned. -/
def next? : Prog E R α → Option E
  | .ret _ => none
  | .op e _ => some e

variable {C σ : Type}

/-- One program alone: `act c e s` performs `e` in `s`, where `c` is the
environment's choice at that step (a clock reading, a fault). -/
def run (act : C → (e : E) → σ → R e × σ) : Prog E R α → (Nat → C) → σ → α × σ
  | .ret a, _, s => (a, s)
  | .op e k, cs, s =>
      let done := act (cs 0) e s
      run act (k done.1) (fun n => cs (n + 1)) done.2

@[simp] theorem run_ret (act : C → (e : E) → σ → R e × σ) (a : α) (cs : Nat → C) (s : σ) :
    run act (.ret a : Prog E R α) cs s = (a, s) := rfl

@[simp] theorem run_op (act : C → (e : E) → σ → R e × σ) (e : E) (k : R e → Prog E R α)
    (cs : Nat → C) (s : σ) :
    run act (.op e k) cs s =
      run act (k (act (cs 0) e s).1) (fun n => cs (n + 1)) (act (cs 0) e s).2 := rfl

/-- Computing on the result changes neither the steps nor the end state. -/
theorem run_bind_ret (act : C → (e : E) → σ → R e × σ) (p : Prog E R α) (f : α → β)
    (cs : Nat → C) (s : σ) :
    run act (p >>= fun a => .ret (f a)) cs s = (f (run act p cs s).1, (run act p cs s).2) := by
  induction p generalizing cs s with
  | ret a => rfl
  | op e k ih => exact ih _ _ _

/-- A sequence runs the first part, and the second from where the first ended;
`n` choices are used up by then. -/
theorem run_bind (act : C → (e : E) → σ → R e × σ) (p : Prog E R α) (f : α → Prog E R β)
    (cs : Nat → C) (s : σ) :
    ∃ n, run act (p >>= f) cs s =
      run act (f (run act p cs s).1) (fun k => cs (n + k)) (run act p cs s).2 := by
  induction p generalizing cs s with
  | ret a => exact ⟨0, by simp⟩
  | op e k ih =>
      obtain ⟨n, hn⟩ := ih _ (fun n => cs (n + 1)) (act (cs 0) e s).2
      refine ⟨n + 1, ?_⟩
      rw [op_bind, run_op, hn, run_op]
      simp only [Nat.add_right_comm]

/-- A program runs alike in two interpretations of the effects, of which one keeps
more than the other sees. -/
theorem run_map {τ : Type} {act : C → (e : E) → σ → R e × σ} {act' : C → (e : E) → τ → R e × τ}
    (f : τ → σ) (h : ∀ c e t, act c e (f t) = ((act' c e t).1, f (act' c e t).2))
    (p : Prog E R α) (cs : Nat → C) (t : τ) :
    run act p cs (f t) = ((run act' p cs t).1, f (run act' p cs t).2) := by
  induction p generalizing cs t with
  | ret a => rfl
  | op e k ih =>
      rw [run_op, h, ih]
      rfl

/-- The effects one program alone performs. -/
def performed (act : C → (e : E) → σ → R e × σ) : Prog E R α → (Nat → C) → σ → List E
  | .ret _, _, _ => []
  | .op e k, cs, s =>
      let done := act (cs 0) e s
      e :: performed act (k done.1) (fun n => cs (n + 1)) done.2

/-- A sequence performs the effects of its parts, with the choices of `run_bind`. -/
theorem performed_bind (act : C → (e : E) → σ → R e × σ) (p : Prog E R α)
    (f : α → Prog E R β) (cs : Nat → C) (s : σ) :
    ∃ n, performed act (p >>= f) cs s = performed act p cs s ++
      performed act (f (run act p cs s).1) (fun k => cs (n + k)) (run act p cs s).2 := by
  induction p generalizing cs s with
  | ret a => exact ⟨0, by simp [performed]⟩
  | op e k ih =>
      obtain ⟨n, hn⟩ := ih (act (cs 0) e s).1 (fun n => cs (n + 1)) (act (cs 0) e s).2
      refine ⟨n + 1, ?_⟩
      simp only [op_bind, performed, hn, run_op, List.cons_append, Nat.add_right_comm]

end Prog

/-- A local automaton over effects: which effects it permits in a state, which
replies it expects there, and the state after a reply. -/
structure Monitor (E : Type) (R : E → Type) (M : Type) where
  allows : M → E → Prop
  answers : M → (e : E) → R e → Prop
  next : M → (e : E) → R e → M

/-- The monitor that permits some effects, and expects every reply. -/
def Monitor.permitting {E : Type} {R : E → Type} (allowed : E → Prop) : Monitor E R Unit where
  allows _ e := allowed e
  answers _ _ _ := True
  next _ _ _ := ()

namespace Prog

variable {E : Type} {R : E → Type} {M α β ε : Type}

/-- From monitor state `m` every effect of the program is permitted, whatever
the expected replies are, and the result satisfies `post` at the end. -/
def Obeys (mon : Monitor E R M) (post : α → M → Prop) : M → Prog E R α → Prop
  | m, .ret a => post a m
  | m, .op e k => mon.allows m e ∧
      ∀ r, mon.answers m e r → Obeys mon post (mon.next m e r) (k r)

variable {mon : Monitor E R M}

/-- Where everything is permitted, a program obeys. -/
theorem Obeys.of_allows (h : ∀ m e, mon.allows m e) (m : M) (p : Prog E R α) :
    Obeys mon (fun _ _ => True) m p := by
  induction p generalizing m with
  | ret a => trivial
  | op e k ih => exact ⟨h m e, fun r _ => ih r _⟩

/-- A weaker postcondition. -/
theorem Obeys.mono {post post' : α → M → Prop} {m : M} {p : Prog E R α}
    (hp : Obeys mon post m p) (h : ∀ a m, post a m → post' a m) : Obeys mon post' m p := by
  induction p generalizing m with
  | ret a => exact h a m hp
  | op e k ih => exact ⟨hp.1, fun r hr => ih r (hp.2 r hr)⟩

/-- A monitor that stays in one state as long as only such effects are performed. -/
theorem Obeys.stays {allowed : E → Prop} {post : α → Unit → Prop} {m : M} {u : Unit}
    {p : Prog E R α} (h : ∀ e, allowed e → mon.allows m e ∧ ∀ r, mon.next m e r = m)
    (hp : Obeys (.permitting allowed) post u p) : Obeys mon (fun _ m' => m' = m) m p := by
  induction p with
  | ret a => rfl
  | op e k ih =>
      refine ⟨(h e hp.1).1, fun r _ => ?_⟩
      rw [(h e hp.1).2 r]
      exact ih r (hp.2 r trivial)

/-- Sequencing: the first part's postcondition is the second part's precondition. -/
theorem Obeys.bind {mid : α → M → Prop} {post : β → M → Prop} {m : M} {p : Prog E R α}
    {f : α → Prog E R β} (hp : Obeys mon mid m p)
    (hf : ∀ a m, mid a m → Obeys mon post m (f a)) : Obeys mon post m (p >>= f) := by
  induction p generalizing m with
  | ret a => exact hf a m hp
  | op e k ih => exact ⟨hp.1, fun r hr => ih r (hp.2 r hr)⟩

/-- Sequencing under `?`: an error skips the rest and must already satisfy the
final postcondition. -/
theorem Obeys.bindExcept {mid : Except ε α → M → Prop} {fin : Except ε β → M → Prop} {m : M}
    {p : ExceptT ε (Prog E R) α} {f : α → ExceptT ε (Prog E R) β}
    (hp : Obeys mon mid m p.run)
    (hok : ∀ a m, mid (.ok a) m → Obeys mon fin m (f a).run)
    (herr : ∀ e m, mid (.error e) m → fin (.error e) m) :
    Obeys mon fin m (p >>= f).run := by
  rw [ExceptT.run_bind]
  refine hp.bind fun a m hm => ?_
  cases a with
  | error e => exact herr e m hm
  | ok a => exact hok a m hm

/-- Sequencing after a step that cannot fail. -/
theorem Obeys.bindLift {mid : α → M → Prop} {fin : Except ε β → M → Prop} {m : M}
    {p : Prog E R α} {f : α → ExceptT ε (Prog E R) β} (hp : Obeys mon mid m p)
    (hf : ∀ a m, mid a m → Obeys mon fin m (f a).run) :
    Obeys mon fin m (ExceptT.lift p >>= f).run := by
  rw [ExceptT.run_bind_lift]
  exact hp.bind hf

/-- Sequential soundness: a relation between monitor state and world that every
permitted effect preserves relates the final ones. -/
theorem Obeys.run {C σ : Type} {act : C → (e : E) → σ → R e × σ} {I : M → σ → Prop}
    (sound : ∀ c e m s, I m s → mon.allows m e → mon.answers m e (act c e s).1 ∧
      I (mon.next m e (act c e s).1) (act c e s).2)
    {post : α → M → Prop} {m : M} {p : Prog E R α} (hp : Obeys mon post m p)
    (cs : Nat → C) {s : σ} (hI : I m s) :
    ∃ m', post (p.run act cs s).1 m' ∧ I m' (p.run act cs s).2 := by
  induction p generalizing m cs s with
  | ret a => exact ⟨m, hp, hI⟩
  | op e k ih =>
      obtain ⟨hr, hI'⟩ := sound (cs 0) e m s hI hp.1
      exact ih _ (hp.2 _ hr) _ hI'

/-- The result of a run, whatever becomes of the world. -/
theorem Obeys.result {C σ : Type} {act : C → (e : E) → σ → R e × σ}
    (sound : ∀ c e m s, mon.allows m e → mon.answers m e (act c e s).1)
    {post : α → M → Prop} {m : M} {p : Prog E R α} (hp : Obeys mon post m p)
    (cs : Nat → C) (s : σ) : ∃ m', post (p.run act cs s).1 m' := by
  have hsound (c : C) (e : E) (m : M) (s : σ) (_ : True) (h : mon.allows m e) :
      mon.answers m e (act c e s).1 ∧ True := ⟨sound c e m s h, trivial⟩
  obtain ⟨m', hpost, -⟩ := hp.run (I := fun _ _ => True) hsound cs trivial
  exact ⟨m', hpost⟩

/-- Every effect that is performed is one the monitor permits. -/
theorem Obeys.performed {C σ : Type} {act : C → (e : E) → σ → R e × σ}
    (sound : ∀ c e m s, mon.allows m e → mon.answers m e (act c e s).1)
    {post : α → M → Prop} {m : M} {p : Prog E R α} (hp : Obeys mon post m p)
    (cs : Nat → C) (s : σ) : ∀ e ∈ p.performed act cs s, ∃ m, mon.allows m e := by
  induction p generalizing m cs s with
  | ret a => simp [Prog.performed]
  | op e k ih =>
      intro e' he'
      rcases List.mem_cons.mp he' with rfl | he'
      · exact ⟨m, hp.1⟩
      · exact ih _ (hp.2 _ (sound (cs 0) e m s hp.1)) _ _ e' he'

end Prog

end TodoRust.Lib
