import TodoRust.RateLimit.Limiter

/-!
# Concurrent calls

A call of `check` reads the clock before it takes the mutex. It is therefore two
steps, the sample and the critical section, and critical sections may run out of
clock order. In order, the limiter keeps the burst-plus-rate bound on every time
window; out of order, `last` moves back and the same time is credited twice.
-/

namespace TodoRust.RateLimit
open Rust Lib Lib.TokenBucket

inductive CallEvent
  | sample (call : Nat) (ip : IpAddr) (now : Instant)
  | enter (call : Nat)

/-- The calls that hold a sample and wait for the mutex, and the limiter. -/
structure Concurrent where
  clock : Instant
  waiting : Nat → Option (IpAddr × Instant)
  state : State

/-- One step of some call. The clock never runs back between samples. -/
def Concurrent.step (self : RateLimiter) (s : Concurrent) : CallEvent → Option Concurrent
  | .sample call ip now =>
      match s.waiting call with
      | some _ => none
      | none =>
          if s.clock ≤ now then
            some { s with clock := now, waiting := Function.update s.waiting call (some (ip, now)) }
          else none
  | .enter call =>
      match s.waiting call with
      | none => none
      | some (ip, now) =>
          some { s with
            waiting := Function.update s.waiting call none
            state := s.state.serve self ip now }

/-- No call has sampled the clock yet. -/
def Concurrent.start (clock : Instant) : Concurrent where
  clock := clock
  waiting := fun _ => none
  state := .empty

/-- A step samples the clock and leaves the limiter alone, or answers one call. -/
theorem step_cases {self : RateLimiter} {s s' : Concurrent} {e : CallEvent}
    (h : s.step self e = some s') :
    (∃ call ip now, e = .sample call ip now ∧ s.clock ≤ now ∧ s'.state = s.state) ∨
    ∃ call ip now, e = .enter call ∧ s.waiting call = some (ip, now) ∧
      s'.state = s.state.serve self ip now := by
  cases e with
  | sample call ip now =>
      cases hw : s.waiting call with
      | some x => simp [Concurrent.step, hw] at h
      | none =>
          by_cases hc : s.clock ≤ now
          · simp only [Concurrent.step, hw, if_pos hc, Option.some.injEq] at h
            exact Or.inl ⟨call, ip, now, rfl, hc, by rw [← h]⟩
          · simp [Concurrent.step, hw, hc] at h
  | enter call =>
      cases hw : s.waiting call with
      | none => simp [Concurrent.step, hw] at h
      | some x =>
          simp only [Concurrent.step, hw, Option.some.injEq] at h
          exact Or.inr ⟨call, x.1, x.2, rfl, hw, by rw [← h]⟩

/-- A critical section runs with a sample not older than the one stored for its
client, or with nothing to refill. -/
def EntersInOrder (self : RateLimiter) (s : Concurrent) : CallEvent → Prop
  | .sample _ _ _ => True
  | .enter call => ∀ w ∈ s.waiting call, InOrder self s.state.inner w.1 w.2

instance (self : RateLimiter) (s : Concurrent) : DecidablePred (EntersInOrder self s)
  | .sample _ _ _ => isTrue trivial
  | .enter call => inferInstanceAs
      (Decidable (∀ w ∈ s.waiting call, InOrder self s.state.inner w.1 w.2))

/-- At most `burst + rate * w` calls of one client sampled in a window of length
`w` are admitted, in every state the run passes. -/
def BoundedWindows (self : RateLimiter) (s : Concurrent) : Prop :=
  ∀ ip t w, 0 ≤ w → (inWindow s.state.log ip t w : ℚ) ≤ self.burst + self.ratePerSec * w

theorem run_lawful {self : RateLimiter} {clock : Instant} {h : List (Concurrent × CallEvent)}
    {s : Concurrent} (run : Run (Concurrent.step self) (.start clock) h s)
    (ho : ∀ x ∈ h, EntersInOrder self x.1 x.2) :
    Represents self s.state ∧ Lawful self.ratePerSec self.burst s.state.log := by
  induction run with
  | nil => exact ⟨represents_empty self, lawful_nil⟩
  | @snoc h s e s' run hs ih =>
      obtain ⟨hrep, hlaw⟩ := ih fun x hx => ho x (by simp [hx])
      have hin := ho (s, e) (by simp)
      rcases step_cases hs with ⟨_, _, _, _, _, hstate⟩ | ⟨call, ip, now, rfl, hw, hstate⟩
      · rw [hstate]
        exact ⟨hrep, hlaw⟩
      · rw [hstate]
        exact ⟨(serve_represents hrep (hin (ip, now) hw)).1,
          serve_lawful hrep (hin (ip, now) hw) hlaw⟩

/-- In every run whose critical sections run in order, every window is bounded. -/
theorem windows_bounded_in_order (rate burst : ℚ) (hr : 0 ≤ rate) (hb : 1 ≤ burst)
    (clock : Instant) (h : List (Concurrent × CallEvent)) (s : Concurrent)
    (run : Run (Concurrent.step (.new rate burst)) (.start clock) h s)
    (ho : ∀ x ∈ h, EntersInOrder (.new rate burst) x.1 x.2) :
    BoundedWindows (.new rate burst) s := by
  intro ip t w hw
  have hb' : (0 : ℚ) ≤ burst := by linarith
  exact (run_lawful run ho).2.inWindow_le hr hb' hw

/-- Two calls of one client, at rate one and burst one, answered in the order
they were sampled. -/
def twoCalls : List CallEvent :=
  [.sample 0 (.v4 1) 0, .enter 0, .sample 1 (.v4 1) 1, .enter 1]

theorem windows_bounded_two_calls : ∃ h s,
    Run.record (Concurrent.step (.new 1 1)) (.start 0) twoCalls = some (h, s) ∧
    BoundedWindows (.new 1 1) s := by
  exact ⟨_, _, rfl, windows_bounded_in_order 1 1 (by norm_num) le_rfl 0 _ _
    (Run.of_record twoCalls rfl) (by decide +kernel)⟩

/-- The production limiter: five per minute, burst five. A call samples at time
0 and is delayed; a minute later a burst drains the bucket, the delayed call is
refused but moves `last` back to 0, and the next call is paid for the same
minute again. -/
def delayedCall : List CallEvent :=
  [.sample 0 (.v4 1) 0,
   .sample 1 (.v4 1) 60, .enter 1, .sample 2 (.v4 1) 60, .enter 2,
   .sample 3 (.v4 1) 60, .enter 3, .sample 4 (.v4 1) 60, .enter 4,
   .sample 5 (.v4 1) 60, .enter 5,
   .enter 0, .sample 6 (.v4 1) 60, .enter 6]

theorem windows_exceeded_out_of_order :
    ¬ ∀ rate burst : ℚ, 0 ≤ rate → 1 ≤ burst → ∀ clock h s,
      Run (Concurrent.step (.new rate burst)) (.start clock) h s →
        BoundedWindows (.new rate burst) s := by
  intro hall
  have hbound := hall (5 / 60) 5 (by norm_num) (by norm_num) 0 _ _
    (Run.of_record delayedCall rfl) (.v4 1) 60 0 le_rfl
  exact absurd hbound (by decide +kernel)

end TodoRust.RateLimit
