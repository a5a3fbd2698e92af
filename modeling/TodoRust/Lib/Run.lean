import Mathlib.Data.List.Basic
import Mathlib.Data.Nat.Init

/-!
# Runs of a labelled step function

A run keeps, for every event, the state it was taken in, so that statements
about a whole run can speak of positions: what happened at position `k`, and
the state before it. The unwinding theorem compares two runs that agree on the
events one observer takes part in.
-/

namespace TodoRust.Lib

variable {σ ε V : Type}

/-- The runs of `step` from `s₀`: the states passed with the events taken in
them, oldest first, and the state reached. -/
inductive Run (step : σ → ε → Option σ) (s₀ : σ) : List (σ × ε) → σ → Prop
  | nil : Run step s₀ [] s₀
  | snoc {h s e s'} (run : Run step s₀ h s) (hs : step s e = some s') :
      Run step s₀ (h ++ [(s, e)]) s'

/-- The state at position `k` of a run that reached `s`: the one its `k`-th
event was taken in, and `s` itself at the end. -/
def stateAt (h : List (σ × ε)) (s : σ) (k : Nat) : σ :=
  (h[k]?.map Prod.fst).getD s

@[simp] theorem stateAt_length (h : List (σ × ε)) (s : σ) : stateAt h s h.length = s := by
  simp [stateAt]

theorem stateAt_of_getElem? {h : List (σ × ε)} {s : σ} {k : Nat} {x : σ × ε}
    (hx : h[k]? = some x) : stateAt h s k = x.1 := by
  simp [stateAt, hx]

theorem stateAt_snoc {h : List (σ × ε)} {s s' : σ} {e : ε} {k : Nat} (hk : k ≤ h.length) :
    stateAt (h ++ [(s, e)]) s' k = stateAt h s k := by
  rcases Nat.lt_or_eq_of_le hk with hlt | rfl
  · simp [stateAt, List.getElem?_append_left hlt, List.getElem?_eq_getElem hlt]
  · simp [stateAt]

section Snoc
variable {α : Type}

/-- Positions of a longer history are those of the shorter one and the new one. -/
theorem getElem?_snoc {h : List α} {x y : α} {k : Nat}
    (hk : (h ++ [x])[k]? = some y) : h[k]? = some y ∨ k = h.length ∧ y = x := by
  rcases Nat.lt_trichotomy k h.length with hlt | rfl | hgt
  · exact Or.inl (by rwa [List.getElem?_append_left hlt] at hk)
  · simp only [List.getElem?_concat_length, Option.some.injEq] at hk
    exact Or.inr ⟨rfl, hk.symm⟩
  · rw [List.getElem?_eq_none (by simp; omega)] at hk
    cases hk

theorem getElem?_snoc_of_some {h : List α} {x y : α} {k : Nat}
    (hk : h[k]? = some y) : (h ++ [x])[k]? = some y := by
  rw [List.getElem?_append_left (List.getElem?_eq_some_iff.mp hk).1]
  exact hk

theorem lt_length_of_getElem? {h : List α} {y : α} {k : Nat}
    (hk : h[k]? = some y) : k < h.length := (List.getElem?_eq_some_iff.mp hk).1

end Snoc

namespace Run

variable {step : σ → ε → Option σ} {s₀ : σ}

/-- In runs whose events all meet a condition, what holds at the start and is kept by
every step that meets it holds in every state reached. -/
theorem invariant_under {Inv : σ → Prop} (ok : ε → Prop) (h₀ : Inv s₀)
    (hstep : ∀ s e s', Inv s → ok e → step s e = some s' → Inv s') {h s}
    (run : Run step s₀ h s) (hok : ∀ x ∈ h, ok x.2) : Inv s := by
  induction run with
  | nil => exact h₀
  | @snoc h s e s' _ hs ih =>
      exact hstep _ _ _ (ih fun x hx => hok x (by simp [hx])) (hok (s, e) (by simp)) hs

/-- Every recorded event was taken by the step function, from a state reached
by the shorter run. -/
theorem split {h s} (run : Run step s₀ h s) {k : Nat} {x : σ × ε} (hx : h[k]? = some x) :
    Run step s₀ (h.take k) x.1 ∧ step x.1 x.2 = some (stateAt h s (k + 1)) := by
  induction run with
  | nil => simp at hx
  | @snoc h s e s' run hs ih =>
      rcases getElem?_snoc hx with hx | ⟨rfl, rfl⟩
      · have hlt := lt_length_of_getElem? hx
        rw [stateAt_snoc (by omega), List.take_append_of_le_length (by omega)]
        exact ih hx
      · refine ⟨by simpa using run, ?_⟩
        rw [hs, show h.length + 1 = (h ++ [(s, e)]).length by simp, stateAt_length]

/-- What every step keeps holds from one position of a run on. -/
theorem stable {Inv : σ → Prop} (hstep : ∀ s e s', Inv s → step s e = some s' → Inv s') {h s}
    (run : Run step s₀ h s) {k n : Nat} (hk : Inv (stateAt h s k)) (hkn : k ≤ n)
    (hn : n ≤ h.length) : Inv (stateAt h s n) := by
  induction n, hkn using Nat.le_induction with
  | base => exact hk
  | succ n hkn ih =>
      have hx : h[n]? = some h[n] := List.getElem?_eq_getElem (by omega)
      have hbefore : Inv h[n].1 := by
        rw [← stateAt_of_getElem? hx]
        exact ih (by omega)
      exact hstep _ _ _ hbefore (run.split hx).2

/-- What does not hold at one position and holds at a later one was brought about
by a step in between. -/
theorem appears {P : σ → Prop} {h : List (σ × ε)} {s : σ} {a b : Nat}
    (ha : ¬ P (stateAt h s a)) (hb : P (stateAt h s b)) (hab : a ≤ b) (hlen : b ≤ h.length) :
    ∃ p x, a ≤ p ∧ p < b ∧ h[p]? = some x ∧ ¬ P x.1 ∧ P (stateAt h s (p + 1)) := by
  induction b, hab using Nat.le_induction with
  | base => exact absurd hb ha
  | succ b hab ih =>
      have hx : h[b]? = some h[b] := List.getElem?_eq_getElem (by omega)
      by_cases hP : P (stateAt h s b)
      · obtain ⟨p, x, hap, hpb, hrest⟩ := ih hP (by omega)
        exact ⟨p, x, hap, by omega, hrest⟩
      · rw [stateAt_of_getElem? hx] at hP
        exact ⟨b, h[b], hab, by omega, hx, hP, hb⟩

/-- A first step in front of a run. -/
theorem cons {s : σ} {e : ε} {s' : σ} {h t} (hs : step s e = some s') (run : Run step s' h t) :
    Run step s ((s, e) :: h) t := by
  induction run with
  | nil => exact snoc nil hs
  | snoc _ ht ih => exact snoc ih ht

/-- The run of a given list of events, when each of them can be taken. -/
def record (step : σ → ε → Option σ) : σ → List ε → Option (List (σ × ε) × σ)
  | s, [] => some ([], s)
  | s, e :: es => do
      let s' ← step s e
      let (h, t) ← record step s' es
      return ((s, e) :: h, t)

theorem of_record {s : σ} (es : List ε) {h t} (hr : record step s es = some (h, t)) :
    Run step s h t := by
  induction es generalizing s h t with
  | nil =>
      obtain ⟨rfl, rfl⟩ : [] = h ∧ s = t := by simpa [record] using hr
      exact nil
  | cons e es ih =>
      simp only [record, Option.bind_eq_bind, Option.bind_eq_some_iff, Option.pure_def,
        Option.some.injEq, Prod.mk.injEq, Prod.exists] at hr
      obtain ⟨s', hs, h', t', hrec, rfl, rfl⟩ := hr
      exact cons hs (ih hrec)

/-- The events of a history. -/
def events (h : List (σ × ε)) : List ε := h.map Prod.snd

/-- A recorded run has the given events. -/
theorem events_record {s : σ} (es : List ε) {h t} (hr : record step s es = some (h, t)) :
    events h = es := by
  induction es generalizing s h t with
  | nil =>
      obtain ⟨rfl, _⟩ : [] = h ∧ s = t := by simpa [record] using hr
      rfl
  | cons e es ih =>
      simp only [record, Option.bind_eq_bind, Option.bind_eq_some_iff, Option.pure_def,
        Option.some.injEq, Prod.mk.injEq, Prod.exists] at hr
      obtain ⟨s', _, h', t', hrec, rfl, rfl⟩ := hr
      exact congrArg (e :: ·) (ih hrec)

/-- A condition on the given events holds along the recorded run. -/
theorem forall_record {P : ε → Prop} {s : σ} {es : List ε} {h t}
    (hr : record step s es = some (h, t)) (hes : ∀ e ∈ es, P e) : ∀ x ∈ h, P x.2 := by
  intro x hx
  apply hes
  rw [← events_record es hr]
  exact List.mem_map_of_mem hx

@[simp] theorem events_snoc (h : List (σ × ε)) (s : σ) (e : ε) :
    events (h ++ [(s, e)]) = events h ++ [e] := by
  simp [events]

/-- Unwinding. Events outside `low` leave the view alone and events in `low`
act on it alone; then two runs with the same `low` events, from states with the
same view, reach states with the same view. -/
theorem view_eq {view : σ → V} {low : ε → Bool} {ok : σ → ε → Prop}
    (silent : ∀ s e s', low e = false → ok s e → step s e = some s' → view s' = view s)
    (consistent : ∀ s t e s' t', low e = true → ok s e → ok t e → view s = view t →
      step s e = some s' → step t e = some t' → view s' = view t')
    {t₀ : σ} {h g s t} (run : Run step s₀ h s) (hok : ∀ x ∈ h, ok x.1 x.2)
    (run' : Run step t₀ g t) (gok : ∀ x ∈ g, ok x.1 x.2) (h₀ : view s₀ = view t₀)
    (hlow : (events h).filter low = (events g).filter low) : view s = view t := by
  induction run generalizing g t with
  | nil =>
      induction run' with
      | nil => exact h₀
      | @snoc g t e t' run' hs ih =>
          have he : low e = false := by
            by_contra hne
            simp [events, List.filter_append, hne] at hlow
          rw [silent _ _ _ he (gok (t, e) (by simp)) hs]
          refine ih (fun x hx => gok x (by simp [hx])) ?_
          simpa [List.filter_append, he] using hlow
  | @snoc h s e s' run hs ih =>
      have hokh : ∀ x ∈ h, ok x.1 x.2 := fun x hx => hok x (by simp [hx])
      cases he : low e with
      | false =>
          rw [silent _ _ _ he (hok (s, e) (by simp)) hs]
          exact ih hokh run' gok (by simpa [List.filter_append, he] using hlow)
      | true =>
          -- The other run may end in silent events; they are peeled first.
          induction run' with
          | nil => simp [events, List.filter_append, he] at hlow
          | @snoc g t e' t' run' ht ih' =>
              have gok' : ∀ x ∈ g, ok x.1 x.2 := fun x hx => gok x (by simp [hx])
              cases he' : low e' with
              | false =>
                  rw [silent _ _ _ he' (gok (t, e') (by simp)) ht]
                  exact ih' gok' (by simpa [List.filter_append, he'] using hlow)
              | true =>
                  simp only [events_snoc, List.filter_append, List.filter_cons, he, he',
                    if_true, List.filter_nil] at hlow
                  obtain ⟨hinit, hlast⟩ := List.append_inj' hlow rfl
                  obtain rfl : e = e' := by simpa using hlast
                  exact consistent s t e s' t' he (hok (s, e) (by simp)) (gok (t, e) (by simp))
                    (ih hokh run' gok' hinit) hs ht

end Run

end TodoRust.Lib
