import TodoRust.Lib.TokenBucket
import TodoRust.Rust.IpAddr
import Mathlib.Algebra.Order.Field.Rat
import Mathlib.Algebra.Order.Group.MinMax

/-!
# The per-IP token bucket

`RateLimiter::check` with exact rational arithmetic: a clock reading is a number
of seconds, and the mutex-guarded map is passed in and out. Calls are answered
one after another here; how their clock samples interleave is a separate matter.
-/

namespace TodoRust.RateLimit
open Rust Lib Lib.TokenBucket

/-- `std::time::Instant`, in seconds from an arbitrary origin. -/
abbrev Instant := ℚ

/-- `Instant::duration_since`, which saturates to zero. -/
def durationSince (now earlier : Instant) : ℚ := max (now - earlier) 0

structure Bucket where
  tokens : ℚ
  last : Instant

structure RateLimiter where
  ratePerSec : ℚ
  burst : ℚ
  trustForwardedFor : Bool
  enabled : Bool

/-- The guarded `HashMap<IpAddr, Bucket>`. -/
abbrev Buckets := IpAddr → Option Bucket

/-- `RateLimiter::new` -/
def RateLimiter.new (ratePerSec burst : ℚ) : RateLimiter where
  ratePerSec := ratePerSec
  burst := burst
  trustForwardedFor := false
  enabled := true

/-- The refill of `check`, before the token is taken. -/
def RateLimiter.refill (self : RateLimiter) (bucket : Bucket) (now : Instant) : ℚ :=
  min (bucket.tokens + durationSince now bucket.last * self.ratePerSec) self.burst

/-- `RateLimiter::check`, from the lock on: `now` was sampled before. -/
def RateLimiter.check (self : RateLimiter) (inner : Buckets) (ip : IpAddr) (now : Instant) :
    Bool × Buckets :=
  let bucket := (inner ip).getD { tokens := self.burst, last := now }
  let tokens := self.refill bucket now
  if 1 ≤ tokens then
    (true, Function.update inner ip (some { tokens := tokens - 1, last := now }))
  else
    (false, Function.update inner ip (some { tokens := tokens, last := now }))

/-- The log entry of one call. -/
def RateLimiter.answer (self : RateLimiter) (inner : Buckets) (ip : IpAddr) (now : Instant) :
    Entry IpAddr ℚ where
  key := ip
  time := now
  admitted := (self.check inner ip now).1

/-- The limiter between two calls, with the calls answered so far. -/
structure State where
  inner : Buckets
  log : List (Entry IpAddr ℚ)

/-- One call answered: its critical section, and its entry in the log. -/
def State.serve (self : RateLimiter) (s : State) (ip : IpAddr) (now : Instant) : State where
  inner := (self.check s.inner ip now).2
  log := s.log ++ [self.answer s.inner ip now]

def State.empty : State where
  inner := fun _ => none
  log := []

variable {self : RateLimiter} {inner : Buckets} {ip : IpAddr} {now : Instant}

/-- What one call does: it answers by the refilled level and stores what is left. -/
theorem check_spec (self : RateLimiter) (inner : Buckets) (ip : IpAddr) (now : Instant) :
    let tokens := self.refill ((inner ip).getD { tokens := self.burst, last := now }) now
    ((self.check inner ip now).1 = true ↔ 1 ≤ tokens) ∧
    (self.check inner ip now).2 = Function.update inner ip
      (some { tokens := tokens - price (self.answer inner ip now), last := now }) := by
  intro tokens
  by_cases h : 1 ≤ tokens
  · have hc : self.check inner ip now =
        (true, Function.update inner ip (some { tokens := tokens - 1, last := now })) := if_pos h
    simp [hc, h, price, RateLimiter.answer]
  · have hc : self.check inner ip now =
        (false, Function.update inner ip (some { tokens := tokens, last := now })) := if_neg h
    simp [hc, h, price, RateLimiter.answer]

theorem check_other {ip' : IpAddr} (h : ip' ≠ ip) :
    (self.check inner ip now).2 ip' = inner ip' := by
  rw [(check_spec self inner ip now).2, Function.update_of_ne h]

/-- The answer and the stored bucket depend on the caller's own bucket only. -/
theorem check_congr {inner' : Buckets} (h : inner ip = inner' ip) :
    self.answer inner ip now = self.answer inner' ip now ∧
    (self.check inner ip now).2 ip = (self.check inner' ip now).2 ip := by
  obtain ⟨hadm, hstore⟩ := check_spec self inner ip now
  obtain ⟨hadm', hstore'⟩ := check_spec self inner' ip now
  rw [h] at hadm hstore
  have hans : self.answer inner ip now = self.answer inner' ip now := by
    simp only [RateLimiter.answer, Entry.mk.injEq, true_and]
    exact Bool.eq_iff_iff.mpr (hadm.trans hadm'.symm)
  refine ⟨hans, ?_⟩
  rw [hstore, hstore', Function.update_self, Function.update_self, hans]

/-! ## Tokens stay within the burst -/

/-- Every stored bucket holds between zero and `burst` tokens. -/
def InRange (self : RateLimiter) (inner : Buckets) : Prop :=
  ∀ ip b, inner ip = some b → 0 ≤ b.tokens ∧ b.tokens ≤ self.burst

theorem durationSince_nonneg (now earlier : Instant) : 0 ≤ durationSince now earlier :=
  le_max_right _ _

theorem refill_mem {b : Bucket} (hr : 0 ≤ self.ratePerSec) (hb : 0 ≤ self.burst)
    (h : 0 ≤ b.tokens) : 0 ≤ self.refill b now ∧ self.refill b now ≤ self.burst := by
  have hgain := mul_nonneg (durationSince_nonneg now b.last) hr
  exact ⟨le_min (by linarith) hb, min_le_right _ _⟩

theorem check_inRange (hr : 0 ≤ self.ratePerSec) (hb : 0 ≤ self.burst) (h : InRange self inner)
    (ip : IpAddr) (now : Instant) : InRange self (self.check inner ip now).2 := by
  intro ip' b hget
  by_cases hip : ip' = ip
  · subst hip
    have hown : 0 ≤ ((inner ip').getD { tokens := self.burst, last := now }).tokens := by
      cases hi : inner ip' with
      | none => exact hb
      | some b => exact (h ip' b hi).1
    obtain ⟨hlo, hhi⟩ := refill_mem hr hb hown
    obtain ⟨hadm, hstore⟩ := check_spec self inner ip' now
    rw [hstore, Function.update_self, Option.some.injEq] at hget
    subst hget
    by_cases ha : (self.check inner ip' now).1 = true
    · have hone := hadm.mp ha
      have hprice : price (self.answer inner ip' now) = 1 := if_pos ha
      simp only [hprice]
      exact ⟨by linarith, by linarith⟩
    · have hprice : price (self.answer inner ip' now) = 0 := if_neg ha
      simp only [hprice, sub_zero]
      exact ⟨hlo, hhi⟩
  · rw [check_other hip] at hget
    exact h ip' b hget

/-! ## The stored bucket is the level of the log -/

/-- What a map entry says of its client's log: no bucket, no calls; a bucket
holds the level. -/
def Holds (self : RateLimiter) (log : List (Entry IpAddr ℚ)) (ip : IpAddr) : Option Bucket → Prop
  | none => ∀ e ∈ log, e.key ≠ ip
  | some b => IsLevel self.ratePerSec self.burst log ip (b.tokens - self.ratePerSec * b.last)

def Represents (self : RateLimiter) (s : State) : Prop :=
  ∀ ip, Holds self s.log ip (s.inner ip)

theorem represents_empty (self : RateLimiter) : Represents self .empty := by
  intro ip e he
  simp [State.empty] at he

/-- Another client's call leaves what an entry says alone. -/
theorem Holds.other {log : List (Entry IpAddr ℚ)} {e : Entry IpAddr ℚ} (he : e.key ≠ ip) :
    ∀ {entry : Option Bucket}, Holds self log ip entry → Holds self (log ++ [e]) ip entry
  | none, h => by
      intro x hx
      rcases List.mem_append.mp hx with hx | hx
      · exact h x hx
      · rw [List.mem_singleton.mp hx]
        exact he
  | some _, h => IsLevel.other h e he

/-- The sample is not older than the one stored, or there is nothing to refill. -/
def InOrder (self : RateLimiter) (inner : Buckets) (ip : IpAddr) (now : Instant) : Prop :=
  ∀ b ∈ inner ip, b.last ≤ now ∨ self.ratePerSec = 0

instance : Decidable (InOrder self inner ip now) :=
  inferInstanceAs (Decidable (∀ b ∈ inner ip, b.last ≤ now ∨ self.ratePerSec = 0))

theorem refill_inOrder {b : Bucket} (h : b.last ≤ now ∨ self.ratePerSec = 0) :
    self.refill b now =
      min (b.tokens - self.ratePerSec * b.last + self.ratePerSec * now) self.burst := by
  unfold RateLimiter.refill durationSince
  rcases h with h | h
  · rw [max_eq_left (by linarith)]
    ring_nf
  · simp [h]

theorem refill_full (self : RateLimiter) (now : Instant) :
    self.refill { tokens := self.burst, last := now } now = self.burst := by
  simp [RateLimiter.refill, durationSince]

/-- One call answered in order: it is admitted exactly within budget, and the
log stays represented. -/
theorem serve_represents {s : State} (h : Represents self s) (ho : InOrder self s.inner ip now) :
    Represents self (s.serve self ip now) ∧
    ((self.check s.inner ip now).1 = true ↔
      Within self.ratePerSec self.burst s.log ip now) := by
  obtain ⟨hadm, hstore⟩ := check_spec self s.inner ip now
  have hip := h ip
  constructor
  · intro ip'
    by_cases hne : ip' = ip
    · subst hne
      simp only [State.serve]
      rw [hstore, Function.update_self]
      cases hi : s.inner ip' with
      | none =>
          rw [hi] at hip
          have hfirst := IsLevel.first self.ratePerSec self.burst hip
            (self.answer s.inner ip' now) rfl
          rw [Option.getD_none, refill_full, Holds, sub_right_comm]
          exact hfirst
      | some b =>
          rw [hi] at hip
          have hself := IsLevel.self hip (self.answer s.inner ip' now) rfl
          rw [Option.getD_some, refill_inOrder (ho b hi), Holds, sub_right_comm,
            ← min_sub_sub_right, add_sub_cancel_right]
          exact hself
    · simp only [State.serve, check_other hne]
      exact (h ip').other fun hk => hne hk.symm
  · rw [hadm]
    cases hi : s.inner ip with
    | none =>
        rw [hi] at hip
        rw [Option.getD_none, refill_full, within_first hip]
    | some b =>
        rw [hi] at hip
        rw [Option.getD_some, refill_inOrder (ho b hi), IsLevel.one_le_iff hip]

theorem serve_lawful {s : State} (h : Represents self s) (ho : InOrder self s.inner ip now)
    (hl : Lawful self.ratePerSec self.burst s.log) :
    Lawful self.ratePerSec self.burst (s.serve self ip now).log :=
  hl.snoc (serve_represents h ho).2

end TodoRust.RateLimit
