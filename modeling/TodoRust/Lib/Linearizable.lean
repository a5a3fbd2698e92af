import TodoRust.Lib.Pool

/-!
# Calls that take effect at once

When each call of a pool acts on the shared world at one of its effects only, the calls are
atomic. In every interleaving those that have taken effect can be put into one order, each
at a point between its start and its end, in which an abstract object gives the replies that
they gave.
-/

namespace TodoRust.Lib

/-- How far a call has come. -/
inductive Phase (J α : Type)
  | idle
  | before (job : J)
  | after (job : J) (reply : α)

/-- A call that took effect: where in the history it did, and with what reply. -/
structure Point (ι J α : Type) where
  position : Nat
  task : ι
  job : J
  reply : α

/-- What calls and their replies do to an abstract object. -/
abbrev Object (A J α : Type) := A → J → α → A → Prop

/-- What a step of a call does: it decides the reply, or leaves the object alone. -/
def Object.Acts {A J α : Type} (object : Object A J α) (x : A) (job : J) : Option α → A → Prop
  | some a, y => object x job a y
  | none, y => y = x

section
variable {ι J C X E : Type} {R : E → Type} {α σ A : Type}

/-- Effects that a call may perform, until one of them decides its reply. -/
def phases (may : J → E → Prop) (decides : J → (e : E) → R e → Option α) :
    Monitor E R (Phase J α) where
  allows m e :=
    match m with
    | .before job => may job e
    | .idle | .after _ _ => False
  answers _ _ _ := True
  next m e r :=
    match m with
    | .before job =>
        match decides job e r with
        | some reply => .after job reply
        | none => .before job
    | m => m

/-- The object goes through the calls in their order. -/
inductive Object.Runs (object : Object A J α) : A → List (Point ι J α) → A → Prop
  | nil (x : A) : Runs object x [] x
  | snoc {x y z : A} {l : List (Point ι J α)} {p : Point ι J α} (h : Runs object x l y)
      (hp : object y p.job p.reply z) : Runs object x (l ++ [p]) z

/-- The task performs an effect at this position of the history. -/
def SteppedAt (h : List (Pool ι E R α σ × Event ι J C X)) (k : Nat) (i : ι) : Prop :=
  ∃ t c, h[k]? = some (t, .step i c)

/-- The calls of the list are those that took effect, in the order in which they did, and
the object gives their replies in that order. -/
structure Linearizes (object : Object A J α) (abs : σ → A) (s₀ : Pool ι E R α σ)
    (h : List (Pool ι E R α σ × Event ι J C X)) (s : Pool ι E R α σ)
    (l : List (Point ι J α)) : Prop where
  once : (l.map Point.task).Nodup
  ordered : (l.map Point.position).Pairwise (· < ·)
  /-- A call takes effect at one of its own steps, after it started. -/
  within : ∀ p ∈ l, ∃ q < p.position, StartedAt h q p.task p.job ∧ SteppedAt h p.position p.task
  /-- What has returned has taken effect, and returned the reply. -/
  returned : ∀ i a, s.result i = some a → ∃ p ∈ l, p.task = i ∧ p.reply = a
  /-- A call that returned before another started took effect before it. -/
  realTime : ∀ p ∈ l, ∀ q ∈ l, ∀ k n a, (stateAt h s k).result p.task = some a → k ≤ n →
    StartedAt h n q.task q.job → p.position < q.position
  runs : object.Runs (abs s₀.world) l (abs s.world)

variable [DecidableEq ι] {sys : System ι J C X E R α σ} {s₀ s : Pool ι E R α σ}
variable {h : List (Pool ι E R α σ × Event ι J C X)}
variable {may : J → E → Prop} {decides : J → (e : E) → R e → Option α}

/-- What holds of the calls so far, with the phase each of them is in. -/
structure Linearized (object : Object A J α) (abs : σ → A) (x : A)
    (h : List (Pool ι E R α σ × Event ι J C X)) (w : σ) (m : ι → Phase J α)
    (l : List (Point ι J α)) : Prop where
  once : (l.map Point.task).Nodup
  ordered : (l.map Point.position).Pairwise (· < ·)
  decided : ∀ p ∈ l, m p.task = .after p.job p.reply ∧ SteppedAt h p.position p.task
  listed : ∀ i job a, m i = .after job a → ∃ p ∈ l, p.task = i ∧ p.reply = a
  started : ∀ i job, (m i = .before job ∨ ∃ a, m i = .after job a) →
    ∃ q, StartedAt h q i job
  runs : object.Runs x l (abs w)

namespace Linearized
variable {object : Object A J α} {abs : σ → A} {x : A} {w w' : σ} {m : ι → Phase J α}
variable {l : List (Point ι J α)}

omit [DecidableEq ι] in
/-- An event that changes neither the object nor a phase. -/
theorem snoc (hl : Linearized object abs x h w m l) (hw : abs w' = abs w)
    (e : Pool ι E R α σ × Event ι J C X) : Linearized object abs x (h ++ [e]) w' m l where
  once := hl.once
  ordered := hl.ordered
  decided p hp := by
    obtain ⟨hphase, t, c, hstep⟩ := hl.decided p hp
    exact ⟨hphase, t, c, getElem?_snoc_of_some hstep⟩
  listed := hl.listed
  started i job hi := by
    obtain ⟨q, t, hq⟩ := hl.started i job hi
    exact ⟨q, t, getElem?_snoc_of_some hq⟩
  runs := by
    rw [hw]
    exact hl.runs

theorem start (hl : Linearized object abs x h s.world m l) (run : Run sys.step s₀ h s) {i : ι}
    {job : J} (hidle : s.task i = .idle) :
    Linearized object abs x (h ++ [(s, .start i job)]) s.world
      (Function.update m i (.before job)) l := by
  have hnew : ∀ p ∈ l, p.task ≠ i := by
    rintro p hp rfl
    obtain ⟨_, t, c, hstep⟩ := hl.decided p hp
    exact System.not_step_of_idle run hidle hstep
  have hkept := hl.snoc rfl (s, .start i job)
  refine ⟨hl.once, hl.ordered, ?_, ?_, ?_, hl.runs⟩
  · intro p hp
    rw [Function.update_of_ne (hnew p hp)]
    exact hkept.decided p hp
  · intro j job' a hj
    by_cases hij : j = i
    · subst hij
      rw [Function.update_self] at hj
      cases hj
    · rw [Function.update_of_ne hij] at hj
      exact hl.listed j job' a hj
  · intro j job' hj
    by_cases hij : j = i
    · subst hij
      rw [Function.update_self] at hj
      rcases hj with hj | ⟨a, hj⟩
      · cases hj
        exact ⟨h.length, s, List.getElem?_concat_length⟩
      · cases hj
    · rw [Function.update_of_ne hij] at hj
      exact hkept.started j job' hj

/-- The effect that decides the reply. -/
theorem decide (hl : Linearized object abs x h w m l) {i : ι} {job : J} {a : α} {c : C}
    {t : Pool ι E R α σ} (hi : m i = .before job) (hobject : object (abs w) job a (abs w')) :
    Linearized object abs x (h ++ [(t, .step i c)]) w' (Function.update m i (.after job a))
      (l ++ [⟨h.length, i, job, a⟩]) := by
  have hnew : ∀ p ∈ l, p.task ≠ i := by
    rintro p hp rfl
    have hafter := (hl.decided p hp).1
    rw [hi] at hafter
    cases hafter
  refine ⟨?_, ?_, ?_, ?_, ?_, hl.runs.snoc hobject⟩
  · rw [List.map_append, List.map_singleton, List.nodup_append]
    refine ⟨hl.once, List.pairwise_singleton .., ?_⟩
    intro j hj i' hi' heq
    obtain ⟨p, hp, rfl⟩ := List.mem_map.mp hj
    exact hnew p hp (heq.trans (List.mem_singleton.mp hi'))
  · rw [List.map_append, List.pairwise_append]
    refine ⟨hl.ordered, List.pairwise_singleton .., ?_⟩
    intro k hk n hn
    obtain ⟨p, hp, rfl⟩ := List.mem_map.mp hk
    obtain rfl := List.mem_singleton.mp hn
    obtain ⟨_, t', c', hstep⟩ := hl.decided p hp
    exact lt_length_of_getElem? hstep
  · intro p hp
    rcases List.mem_append.mp hp with hp | hp
    · rw [Function.update_of_ne (hnew p hp)]
      obtain ⟨hphase, t', c', hstep⟩ := hl.decided p hp
      exact ⟨hphase, t', c', getElem?_snoc_of_some hstep⟩
    · obtain rfl := List.mem_singleton.mp hp
      rw [Function.update_self]
      exact ⟨rfl, t, c, List.getElem?_concat_length⟩
  · intro j job' a' hj
    by_cases hij : j = i
    · subst hij
      rw [Function.update_self] at hj
      cases hj
      exact ⟨_, List.mem_append_right _ (List.mem_singleton.mpr rfl), rfl, rfl⟩
    · rw [Function.update_of_ne hij] at hj
      obtain ⟨p, hp, htask, hreply⟩ := hl.listed j job' a' hj
      exact ⟨p, List.mem_append_left _ hp, htask, hreply⟩
  · intro j job' hj
    by_cases hij : j = i
    · subst hij
      rw [Function.update_self] at hj
      rcases hj with hj | ⟨a', hj⟩
      · cases hj
      · cases hj
        obtain ⟨q, t', hq⟩ := hl.started j job (Or.inl hi)
        exact ⟨q, t', getElem?_snoc_of_some hq⟩
    · rw [Function.update_of_ne hij] at hj
      obtain ⟨q, t', hq⟩ := hl.started j job' hj
      exact ⟨q, t', getElem?_snoc_of_some hq⟩

end Linearized

/-- If the effect that decides the reply of a call does to the object what the call means,
and its other effects leave the object alone, then every run is linearized. -/
theorem linearizable (object : Object A J α) (abs : σ → A) (I : σ → Prop)
    (hprog : ∀ i job, Prog.Obeys (phases may decides) (fun a m => ∃ job, m = .after job a)
      (.before job) (sys.prog i job))
    (hact : ∀ c e w job, I w → may job e → I (sys.act c e w).2 ∧
      object.Acts (abs w) job (decides job e (sys.act c e w).1) (abs (sys.act c e w).2))
    (henv : ∀ x w, I w → I (sys.env x w) ∧ abs (sys.env x w) = abs w)
    (hidle : ∀ i, s₀.task i = .idle) (hinit : I s₀.world) (run : Run sys.step s₀ h s) :
    ∃ l, Linearizes object abs s₀ h s l := by
  have hobeys : ∀ i job, Prog.Obeys (phases may decides) ((fun _ a m => ∃ job, m = .after job a :
      ι → α → Phase J α → Prop) i) (.before job) (sys.prog i job) := hprog
  obtain ⟨m, ⟨-, l, hl⟩, hobeys⟩ := System.monitored (fun _ _ => True)
    (fun h w m => I w ∧ ∃ l, Linearized object abs (abs s₀.world) h w m l) (fun _ => .idle)
    hobeys hidle
    ⟨hinit, [], List.nodup_nil, List.Pairwise.nil, nofun, nofun,
      (by rintro i job (hi | ⟨a, hi⟩) <;> cases hi), .nil _⟩
    (by
      rintro h s m i job run ⟨hI, l, hl⟩ hi
      exact ⟨hI, l, hl.start run hi⟩)
    (by
      rintro h s m i c e k ⟨hI, l, hl⟩ hi - hallows
      refine ⟨trivial, ?_⟩
      cases hphase : m i with
      | idle | after =>
          rw [hphase] at hallows
          exact absurd hallows id
      | before job =>
          rw [hphase] at hallows
          obtain ⟨hkept, hdecides⟩ := hact c e s.world job hI hallows
          refine ⟨hkept, ?_⟩
          simp only [phases]
          cases hreply : decides job e (sys.act c e s.world).1 with
          | some a =>
              rw [hreply] at hdecides
              exact ⟨_, hl.decide hphase hdecides⟩
          | none =>
              rw [hreply] at hdecides
              rw [← hphase, Function.update_eq_self]
              exact ⟨l, hl.snoc hdecides _⟩)
    (by
      rintro h s m i ⟨hI, l, hl⟩
      exact ⟨hI, l, hl.snoc rfl _⟩)
    (by
      rintro h s m x ⟨hI, l, hl⟩ -
      exact ⟨(henv x s.world hI).1, l, hl.snoc (henv x s.world hI).2 _⟩)
    run (fun _ _ => trivial)
  refine ⟨l, hl.once, hl.ordered, ?_, ?_, ?_, hl.runs⟩
  · intro p hp
    obtain ⟨hphase, t', c, hstep⟩ := hl.decided p hp
    obtain ⟨q, t, hq⟩ := hl.started p.task p.job (Or.inr ⟨_, hphase⟩)
    exact ⟨q, System.start_lt_step run hq hstep, ⟨t, hq⟩, ⟨t', c, hstep⟩⟩
  · intro i a hresult
    obtain ⟨job, hphase⟩ := hobeys i _ (Pool.result_eq_some.mp hresult)
    exact hl.listed i job a hphase
  · intro p hp q hq k n a hdone hkn ⟨t, hstart⟩
    obtain ⟨_, _, _, hp⟩ := hl.decided p hp
    obtain ⟨_, _, _, hq⟩ := hl.decided q hq
    calc p.position < k := System.step_lt_done run (Pool.result_eq_some.mp hdone) hp
      _ ≤ n := hkn
      _ < q.position := System.start_lt_step run hstart hq

end

end TodoRust.Lib
