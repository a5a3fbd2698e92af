import TodoRust.Lib.Prog
import TodoRust.Lib.Run

/-!
# Interleaved programs

A pool runs any number of programs over one shared world, one atomic effect at
a time and in any order. Tasks can be started and cancelled, and the environment
can act in between. The rule at the end carries the monitor of every task
through a run, together with an invariant of the whole history.
-/

namespace TodoRust.Lib

/-- A task that was not started, runs what is left of its program, or was
cancelled. A task whose program has returned has finished. -/
inductive Task (E : Type) (R : E → Type) (α : Type)
  | idle
  | running (p : Prog E R α)
  | cancelled

structure Pool (ι E : Type) (R : E → Type) (α σ : Type) where
  world : σ
  task : ι → Task E R α

/-- What happens next: a task starts with a job, performs its next effect, is
cancelled, or the environment acts. -/
inductive Event (ι J C X : Type)
  | start (i : ι) (job : J)
  | step (i : ι) (choice : C)
  | cancel (i : ι)
  | env (x : X)
  deriving DecidableEq

/-- What a pool runs: the program of each job, the effects, and the acts of the
environment. -/
structure System (ι J C X E : Type) (R : E → Type) (α σ : Type) where
  prog : ι → J → Prog E R α
  act : C → (e : E) → σ → R e × σ
  env : X → σ → σ

section
variable {ι J C X E : Type} {R : E → Type} {α σ M : Type}

namespace Pool

/-- The result of a finished task. -/
def result (s : Pool ι E R α σ) (i : ι) : Option α :=
  match s.task i with
  | .running (.ret a) => some a
  | _ => none

theorem result_eq_some {s : Pool ι E R α σ} {i : ι} {a : α} :
    s.result i = some a ↔ s.task i = .running (.ret a) := by
  unfold result
  match s.task i with
  | .running (.ret b) => simp
  | .running (.op e k) => simp
  | .idle => simp
  | .cancelled => simp

/-- The effect a task performs next. -/
def nextEffect (s : Pool ι E R α σ) (i : ι) : Option E :=
  match s.task i with
  | .running p => p.next?
  | _ => none

theorem nextEffect_eq_some {s : Pool ι E R α σ} {i : ι} {e : E} :
    s.nextEffect i = some e ↔ ∃ k, s.task i = .running (.op e k) := by
  unfold nextEffect
  match s.task i with
  | .running (.ret b) => simp [Prog.next?]
  | .running (.op e' k) =>
      simp only [Prog.next?, Option.some.injEq, Task.running.injEq]
      constructor
      · rintro rfl
        exact ⟨k, rfl⟩
      · rintro ⟨k', h⟩
        cases h
        rfl
  | .idle => simp
  | .cancelled => simp

variable [DecidableEq ι]

def setTask (s : Pool ι E R α σ) (i : ι) (t : Task E R α) : Pool ι E R α σ :=
  { s with task := Function.update s.task i t }

@[simp] theorem setTask_world (s : Pool ι E R α σ) (i : ι) (t : Task E R α) :
    (s.setTask i t).world = s.world := rfl

@[simp] theorem setTask_self (s : Pool ι E R α σ) (i : ι) (t : Task E R α) :
    (s.setTask i t).task i = t := by
  simp [setTask]

theorem setTask_of_ne (s : Pool ι E R α σ) {i j : ι} (t : Task E R α) (h : j ≠ i) :
    (s.setTask i t).task j = s.task j := by
  simp [setTask, h]

end Pool

/-- The task starts with the job at this position of the history. -/
def StartedAt (h : List (Pool ι E R α σ × Event ι J C X)) (k : Nat) (i : ι) (job : J) : Prop :=
  ∃ t, h[k]? = some (t, .start i job)

theorem StartedAt.of_snoc {h : List (Pool ι E R α σ × Event ι J C X)}
    {x : Pool ι E R α σ × Event ι J C X} {k : Nat} {i : ι} {job : J}
    (hk : StartedAt (h ++ [x]) k i job) : StartedAt h k i job ∨ ∃ t, x = (t, .start i job) := by
  obtain ⟨t, hk⟩ := hk
  rcases getElem?_snoc hk with hold | ⟨_, hx⟩
  · exact Or.inl ⟨t, hold⟩
  · exact Or.inr ⟨t, hx.symm⟩

namespace System
variable [DecidableEq ι] (sys : System ι J C X E R α σ)

def step (s : Pool ι E R α σ) : Event ι J C X → Option (Pool ι E R α σ)
  | .start i job =>
      match s.task i with
      | .idle => some (s.setTask i (.running (sys.prog i job)))
      | _ => none
  | .step i c =>
      match s.task i with
      | .running (.op e k) =>
          some ({ s with world := (sys.act c e s.world).2 }.setTask i
            (.running (k (sys.act c e s.world).1)))
      | _ => none
  | .cancel i =>
      match s.task i with
      | .running (.op _ _) => some (s.setTask i .cancelled)
      | _ => none
  | .env x => some { s with world := sys.env x s.world }

variable {sys} {s s' : Pool ι E R α σ}

theorem step_start {i : ι} {job : J} :
    sys.step s (.start i job) = some s' ↔
      s.task i = .idle ∧ s' = s.setTask i (.running (sys.prog i job)) := by
  simp only [step]
  cases s.task i with
  | idle => simp [eq_comm]
  | running p => simp
  | cancelled => simp

theorem step_step {i : ι} {c : C} :
    sys.step s (.step i c) = some s' ↔
      ∃ e k, s.task i = .running (.op e k) ∧
        s' = { s with world := (sys.act c e s.world).2 }.setTask i
          (.running (k (sys.act c e s.world).1)) := by
  simp only [step]
  cases s.task i with
  | idle => simp
  | cancelled => simp
  | running p =>
      cases p with
      | ret a => simp
      | op e k =>
          simp only [Option.some.injEq, Task.running.injEq]
          constructor
          · rintro rfl
            exact ⟨e, k, rfl, rfl⟩
          · rintro ⟨e', k', hop, rfl⟩
            cases hop
            rfl

theorem step_cancel {i : ι} :
    sys.step s (.cancel i) = some s' ↔
      (∃ e k, s.task i = .running (.op e k)) ∧ s' = s.setTask i .cancelled := by
  simp only [step]
  cases s.task i with
  | idle => simp
  | cancelled => simp
  | running p =>
      cases p with
      | ret a => simp
      | op e k => simp [eq_comm]

theorem step_env {x : X} :
    sys.step s (.env x) = some s' ↔ s' = { s with world := sys.env x s.world } := by
  simp [step, eq_comm]

/-- A task that has finished stays finished. -/
theorem done_of_step {e : Event ι J C X} {i : ι} {a : α} (hs : sys.step s e = some s')
    (h : s.task i = .running (.ret a)) : s'.task i = .running (.ret a) := by
  cases e with
  | env x =>
      rw [step_env] at hs
      rwa [hs]
  | start j job =>
      obtain ⟨hidle, rfl⟩ := step_start.mp hs
      rw [Pool.setTask_of_ne, h]
      rintro rfl
      rw [h] at hidle
      cases hidle
  | step j c =>
      obtain ⟨e, k, hrun, rfl⟩ := step_step.mp hs
      rw [Pool.setTask_of_ne, h]
      rintro rfl
      rw [h] at hrun
      cases hrun
  | cancel j =>
      obtain ⟨⟨e, k, hrun⟩, rfl⟩ := step_cancel.mp hs
      rw [Pool.setTask_of_ne, h]
      rintro rfl
      rw [h] at hrun
      cases hrun

/-- A task that is idle after a step was idle before. -/
theorem idle_of_step {e : Event ι J C X} {i : ι} (hs : sys.step s e = some s')
    (h : s'.task i = .idle) : s.task i = .idle := by
  cases e with
  | env x =>
      rw [step_env] at hs
      rwa [hs] at h
  | start j job =>
      obtain ⟨hidle, rfl⟩ := step_start.mp hs
      by_cases hij : i = j
      · exact hij ▸ hidle
      · rwa [Pool.setTask_of_ne _ _ hij] at h
  | step j c =>
      obtain ⟨e, k, hrun, rfl⟩ := step_step.mp hs
      by_cases hij : i = j
      · subst hij
        simp at h
      · rwa [Pool.setTask_of_ne _ _ hij] at h
  | cancel j =>
      obtain ⟨hrun, rfl⟩ := step_cancel.mp hs
      by_cases hij : i = j
      · subst hij
        simp at h
      · rwa [Pool.setTask_of_ne _ _ hij] at h

variable {s₀ : Pool ι E R α σ} {h : List (Pool ι E R α σ × Event ι J C X)}

theorem idle_of_run {i : ι} (run : Run sys.step s₀ h s) (hidle : s.task i = .idle) :
    ∀ x ∈ h, x.1.task i = .idle := by
  induction run with
  | nil => simp
  | snoc run hs ih =>
      intro x hx
      have hlast := idle_of_step hs hidle
      rcases List.mem_append.mp hx with hx | hx
      · exact ih hlast x hx
      · rw [List.mem_singleton.mp hx]
        exact hlast

/-- A task that is idle has not acted. -/
theorem not_step_of_idle {i : ι} (run : Run sys.step s₀ h s) (hidle : s.task i = .idle)
    {k : Nat} {t : Pool ι E R α σ} {c : C} : h[k]? ≠ some (t, .step i c) := by
  intro hk
  obtain ⟨e, p, hrun, _⟩ := step_step.mp (run.split hk).2
  have htask := idle_of_run run hidle _ (List.mem_of_getElem? hk)
  rw [hrun] at htask
  cases htask

/-- A task that is idle has not started. -/
theorem not_start_of_idle {i : ι} (run : Run sys.step s₀ h s) (hidle : s.task i = .idle)
    {k : Nat} {t : Pool ι E R α σ} {job : J} : h[k]? ≠ some (t, .start i job) := by
  intro hk
  have hafter := (step_start.mp (run.split hk).2).2
  have htask : (stateAt h s (k + 1)).task i = .idle := by
    cases hx : h[k + 1]? with
    | none =>
        rw [stateAt, hx]
        exact hidle
    | some x =>
        rw [stateAt_of_getElem? hx]
        exact idle_of_run run hidle _ (List.mem_of_getElem? hx)
  rw [hafter, Pool.setTask_self] at htask
  cases htask

/-- A task acts only after it has started. -/
theorem start_lt_step {i : ι} {job : J} {c : C} {t t' : Pool ι E R α σ} {k q : Nat}
    (run : Run sys.step s₀ h s) (hk : h[k]? = some (t, .start i job))
    (hq : h[q]? = some (t', .step i c)) : k < q := by
  obtain ⟨runk, hstart⟩ := run.split hk
  rcases Nat.lt_trichotomy k q with hlt | rfl | hgt
  · exact hlt
  · rw [hk] at hq
    cases hq
  · have hbefore : (h.take k)[q]? = some (t', .step i c) := by
      rw [List.getElem?_take_of_lt hgt, hq]
    exact absurd hbefore (not_step_of_idle runk (step_start.mp hstart).1)

/-- A task starts at most once. -/
theorem start_unique {i : ι} {job job' : J} {t t' : Pool ι E R α σ} {k q : Nat}
    (run : Run sys.step s₀ h s) (hk : h[k]? = some (t, .start i job))
    (hq : h[q]? = some (t', .start i job')) : job = job' := by
  have hle : ∀ {k q : Nat} {job job' : J} {t t' : Pool ι E R α σ},
      h[k]? = some (t, .start i job) → h[q]? = some (t', .start i job') → k ≤ q := by
    intro k q job job' t t' hk hq
    obtain ⟨runk, hstart⟩ := run.split hk
    by_contra hlt
    have hbefore : (h.take k)[q]? = some (t', .start i job') := by
      rw [List.getElem?_take_of_lt (by omega), hq]
    exact absurd hbefore (not_start_of_idle runk (step_start.mp hstart).1)
  obtain rfl : k = q := Nat.le_antisymm (hle hk hq) (hle hq hk)
  rw [hk] at hq
  cases hq
  rfl

/-- A task that has finished acts no more. -/
theorem step_lt_done {i : ι} {a : α} {c : C} {t : Pool ι E R α σ} {k q : Nat}
    (run : Run sys.step s₀ h s) (hk : (stateAt h s k).task i = .running (.ret a))
    (hq : h[q]? = some (t, .step i c)) : q < k := by
  by_contra hle
  have hdone : (stateAt h s q).task i = .running (.ret a) :=
    run.stable (fun _ _ _ h hs => done_of_step hs h) hk (by omega)
      (Nat.le_of_lt (lt_length_of_getElem? hq))
  obtain ⟨e, p, hrun, _⟩ := step_step.mp (run.split hq).2
  rw [stateAt_of_getElem? hq, hrun] at hdone
  cases hdone

section PerformedAt
variable {i : ι} {e : E} {c : C} {t : Pool ι E R α σ} {k n : Nat}
variable {x : Pool ι E R α σ × Event ι J C X}

/-- At position `k` task `i` performs `e`, from the state `t` and with the choice `c`. -/
def PerformedAt (h : List (Pool ι E R α σ × Event ι J C X)) (k : Nat) (i : ι) (e : E)
    (t : Pool ι E R α σ) (c : C) : Prop :=
  h[k]? = some (t, .step i c) ∧ t.nextEffect i = some e

/-- The effect performed in a recorded event. -/
def performed : Pool ι E R α σ × Event ι J C X → Option E
  | (s, .step i _) => s.nextEffect i
  | _ => none

omit [DecidableEq ι] in
theorem PerformedAt.performed (hk : PerformedAt h k i e t c) : h[k]?.bind performed = some e := by
  rw [hk.1]
  exact hk.2

omit [DecidableEq ι] in
theorem PerformedAt.lt_length (hk : PerformedAt h k i e t c) : k < h.length :=
  lt_length_of_getElem? hk.1

omit [DecidableEq ι] in
theorem PerformedAt.snoc (hk : PerformedAt h k i e t c) : PerformedAt (h ++ [x]) k i e t c :=
  ⟨getElem?_snoc_of_some hk.1, hk.2⟩

omit [DecidableEq ι] in
theorem PerformedAt.of_snoc (hk : PerformedAt (h ++ [x]) k i e t c) :
    PerformedAt h k i e t c ∨ k = h.length ∧ x = (t, .step i c) ∧ t.nextEffect i = some e := by
  rcases getElem?_snoc hk.1 with hx | ⟨hlen, hx⟩
  · exact Or.inl ⟨hx, hk.2⟩
  · exact Or.inr ⟨hlen, hx.symm, hk.2⟩

omit [DecidableEq ι] in
/-- The positions of a shorter history are the earlier ones. -/
theorem performedAt_take :
    PerformedAt (h.take n) k i e t c ↔ k < n ∧ PerformedAt h k i e t c := by
  constructor
  · intro hk
    have hlt : k < n := by
      have hlen := hk.lt_length
      rw [List.length_take] at hlen
      omega
    exact ⟨hlt, by rw [← hk.1, List.getElem?_take_of_lt hlt], hk.2⟩
  · rintro ⟨hlt, hk⟩
    exact ⟨by rw [List.getElem?_take_of_lt hlt, hk.1], hk.2⟩

theorem PerformedAt.world (run : Run sys.step s₀ h s) (hk : PerformedAt h k i e t c) :
    (stateAt h s (k + 1)).world = (sys.act c e t.world).2 := by
  obtain ⟨e', p, hrun, hs⟩ := step_step.mp (run.split hk.1).2
  have he := (Pool.nextEffect_eq_some.mpr ⟨p, hrun⟩).symm.trans hk.2
  obtain rfl := Option.some.inj he
  rw [hs, Pool.setTask_world]

end PerformedAt

/-- Each task's monitor is followed through a run, from where its program is. `I`
relates the history, the world and the monitor states; it has to survive every event
that is `ok`, and may use that the monitor permits the effect performed. -/
theorem monitored_from {mon : ι → Monitor E R M} {m₀ : ι → J → M} {post : ι → α → M → Prop}
    (ok : Pool ι E R α σ → Event ι J C X → Prop)
    (I : List (Pool ι E R α σ × Event ι J C X) → σ → (ι → M) → Prop) (m : ι → M)
    (hprog : ∀ i job, Prog.Obeys (mon i) (post i) (m₀ i job) (sys.prog i job))
    (hrunning : ∀ i p, s₀.task i = .running p → Prog.Obeys (mon i) (post i) (m i) p)
    (hinit : I [] s₀.world m)
    (hstart : ∀ h s m i job, Run sys.step s₀ h s → I h s.world m → s.task i = .idle →
      I (h ++ [(s, .start i job)]) s.world (Function.update m i (m₀ i job)))
    (hstep : ∀ h s m i c e k, I h s.world m → s.task i = .running (.op e k) →
      ok s (.step i c) → (mon i).allows (m i) e →
      (mon i).answers (m i) e (sys.act c e s.world).1 ∧
      I (h ++ [(s, .step i c)]) (sys.act c e s.world).2
        (Function.update m i ((mon i).next (m i) e (sys.act c e s.world).1)))
    (hcancel : ∀ h s m i, I h s.world m → I (h ++ [(s, .cancel i)]) s.world m)
    (henv : ∀ h s m x, I h s.world m → ok s (.env x) →
      I (h ++ [(s, .env x)]) (sys.env x s.world) m)
    (run : Run sys.step s₀ h s) (hok : ∀ x ∈ h, ok x.1 x.2) :
    ∃ m, I h s.world m ∧ ∀ i p, s.task i = .running p → Prog.Obeys (mon i) (post i) (m i) p := by
  induction run with
  | nil => exact ⟨m, hinit, hrunning⟩
  | @snoc h s e s' run hs ih =>
      obtain ⟨m, hI, hobeys⟩ := ih fun x hx => hok x (by simp [hx])
      have hlast : ok s e := hok (s, e) (by simp)
      cases e with
      | start i job =>
          obtain ⟨hi, rfl⟩ := step_start.mp hs
          refine ⟨_, hstart h s m i job run hI hi, fun j p hp => ?_⟩
          by_cases hij : j = i
          · subst hij
            rw [Pool.setTask_self, Task.running.injEq] at hp
            rw [Function.update_self, ← hp]
            exact hprog j job
          · rw [Pool.setTask_of_ne _ _ hij] at hp
            rw [Function.update_of_ne hij]
            exact hobeys j p hp
      | step i c =>
          obtain ⟨e, k, hi, rfl⟩ := step_step.mp hs
          have hop := hobeys i _ hi
          obtain ⟨hans, hI'⟩ := hstep h s m i c e k hI hi hlast hop.1
          refine ⟨_, hI', fun j p hp => ?_⟩
          by_cases hij : j = i
          · subst hij
            rw [Pool.setTask_self, Task.running.injEq] at hp
            rw [Function.update_self, ← hp]
            exact hop.2 _ hans
          · rw [Pool.setTask_of_ne _ _ hij] at hp
            rw [Function.update_of_ne hij]
            exact hobeys j p hp
      | cancel i =>
          obtain ⟨_, rfl⟩ := step_cancel.mp hs
          refine ⟨m, hcancel h s m i hI, fun j p hp => ?_⟩
          by_cases hij : j = i
          · subst hij
            simp at hp
          · rw [Pool.setTask_of_ne _ _ hij] at hp
            exact hobeys j p hp
      | env x =>
          rw [step_env] at hs
          subst hs
          exact ⟨m, henv h s m x hI hlast, hobeys⟩

/-- No task has started yet. -/
theorem monitored {mon : ι → Monitor E R M} {m₀ : ι → J → M} {post : ι → α → M → Prop}
    (ok : Pool ι E R α σ → Event ι J C X → Prop)
    (I : List (Pool ι E R α σ × Event ι J C X) → σ → (ι → M) → Prop) (m : ι → M)
    (hprog : ∀ i job, Prog.Obeys (mon i) (post i) (m₀ i job) (sys.prog i job))
    (hidle : ∀ i, s₀.task i = .idle) (hinit : I [] s₀.world m)
    (hstart : ∀ h s m i job, Run sys.step s₀ h s → I h s.world m → s.task i = .idle →
      I (h ++ [(s, .start i job)]) s.world (Function.update m i (m₀ i job)))
    (hstep : ∀ h s m i c e k, I h s.world m → s.task i = .running (.op e k) →
      ok s (.step i c) → (mon i).allows (m i) e →
      (mon i).answers (m i) e (sys.act c e s.world).1 ∧
      I (h ++ [(s, .step i c)]) (sys.act c e s.world).2
        (Function.update m i ((mon i).next (m i) e (sys.act c e s.world).1)))
    (hcancel : ∀ h s m i, I h s.world m → I (h ++ [(s, .cancel i)]) s.world m)
    (henv : ∀ h s m x, I h s.world m → ok s (.env x) →
      I (h ++ [(s, .env x)]) (sys.env x s.world) m)
    (run : Run sys.step s₀ h s) (hok : ∀ x ∈ h, ok x.1 x.2) :
    ∃ m, I h s.world m ∧ ∀ i p, s.task i = .running p → Prog.Obeys (mon i) (post i) (m i) p := by
  refine monitored_from ok I m hprog (fun i p hp => ?_) hinit hstart hstep hcancel henv run hok
  rw [hidle] at hp
  cases hp

end System
end

end TodoRust.Lib
