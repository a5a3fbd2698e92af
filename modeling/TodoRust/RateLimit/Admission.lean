import TodoRust.RateLimit.Limiter

/-!
# Calls answered in clock order

A sequence of calls whose clock samples do not decrease. The incremental
refill, cap and consume of `check` then decides by the closed form: a call is
admitted exactly when no earlier call of its client starts a window in which
one more admission would exceed burst and rate.
-/

namespace TodoRust.RateLimit
open Rust Lib Lib.TokenBucket

/-- Every call answered in turn, from an empty map. -/
def serveAll (self : RateLimiter) (calls : List (IpAddr × Instant)) : State :=
  calls.foldl (fun s call => s.serve self call.1 call.2) .empty

@[simp] theorem serveAll_snoc (self : RateLimiter) (calls : List (IpAddr × Instant))
    (call : IpAddr × Instant) :
    serveAll self (calls ++ [call]) = (serveAll self calls).serve self call.1 call.2 := by
  simp [serveAll]

variable {self : RateLimiter}

/-- The log lists the calls in order. -/
theorem serveAll_log (self : RateLimiter) (calls : List (IpAddr × Instant)) :
    (serveAll self calls).log.map (fun e => (e.key, e.time)) = calls := by
  induction calls using List.reverseRecOn with
  | nil => rfl
  | append_singleton calls call ih => simp [State.serve, RateLimiter.answer, ih]

/-- The stored sample of a client is that of one of its calls. -/
theorem serveAll_last_mem {calls : List (IpAddr × Instant)} {ip : IpAddr} {b : Bucket}
    (h : (serveAll self calls).inner ip = some b) : (ip, b.last) ∈ calls := by
  induction calls using List.reverseRecOn generalizing b with
  | nil => simp [serveAll, State.empty] at h
  | append_singleton calls call ih =>
      rw [serveAll_snoc] at h
      by_cases hip : ip = call.1
      · subst hip
        simp only [State.serve, (check_spec self _ _ _).2, Function.update_self,
          Option.some.injEq] at h
        simp [← h]
      · simp only [State.serve, check_other hip] at h
        exact List.mem_append_left _ (ih h)

/-- In clock order every call is answered in order. -/
theorem inOrder_of_sorted {calls : List (IpAddr × Instant)} {call : IpAddr × Instant}
    (hs : (calls ++ [call]).Pairwise fun c d => c.2 ≤ d.2) :
    InOrder self (serveAll self calls).inner call.1 call.2 := by
  intro b hb
  rw [List.pairwise_append] at hs
  exact Or.inl (hs.2.2 _ (serveAll_last_mem hb) call (by simp))

theorem serveAll_lawful {calls : List (IpAddr × Instant)}
    (hs : calls.Pairwise fun c d => c.2 ≤ d.2) :
    Represents self (serveAll self calls) ∧
      Lawful self.ratePerSec self.burst (serveAll self calls).log := by
  induction calls using List.reverseRecOn with
  | nil => exact ⟨represents_empty self, lawful_nil⟩
  | append_singleton calls call ih =>
      have hinit : calls.Pairwise fun c d => c.2 ≤ d.2 := (List.pairwise_append.mp hs).1
      obtain ⟨hrep, hlaw⟩ := ih hinit
      rw [serveAll_snoc]
      exact ⟨(serve_represents hrep (inOrder_of_sorted hs)).1,
        serve_lawful hrep (inOrder_of_sorted hs) hlaw⟩

theorem serveAll_inRange (hr : 0 ≤ self.ratePerSec) (hb : 0 ≤ self.burst)
    (calls : List (IpAddr × Instant)) : InRange self (serveAll self calls).inner := by
  induction calls using List.reverseRecOn with
  | nil =>
      intro ip b h
      cases h
  | append_singleton calls call ih =>
      rw [serveAll_snoc]
      exact check_inRange hr hb ih call.1 call.2

/-- A client's bucket and answers are those of its own calls alone. -/
theorem serveAll_filter (self : RateLimiter) (ip : IpAddr) (calls : List (IpAddr × Instant)) :
    (serveAll self calls).inner ip = (serveAll self (calls.filter fun c => c.1 = ip)).inner ip ∧
    (serveAll self calls).log.filter (fun e => e.key = ip) =
      (serveAll self (calls.filter fun c => c.1 = ip)).log := by
  induction calls using List.reverseRecOn with
  | nil => exact ⟨rfl, rfl⟩
  | append_singleton calls call ih =>
      obtain ⟨hinner, hlog⟩ := ih
      by_cases hip : call.1 = ip
      · subst hip
        obtain ⟨hans, hstore⟩ : self.answer _ call.1 call.2 = _ ∧ _ := check_congr hinner
        simp only [List.filter_append, List.filter_cons_of_pos, decide_true, List.filter_nil,
          serveAll_snoc, State.serve, hlog]
        exact ⟨hstore, by rw [hans]; simp [RateLimiter.answer]⟩
      · have hcall : [call].filter (fun c => decide (c.1 = ip)) = [] := by simp [hip]
        rw [List.filter_append, hcall, List.append_nil, serveAll_snoc, ← hinner, ← hlog]
        simp only [State.serve, check_other (Ne.symm hip), List.filter_append, true_and]
        simp [RateLimiter.answer, hip]

/-- The number of calls of `a` admitted at positions `j` to `n - 1`. -/
def admittedBetween (log : List (Entry IpAddr ℚ)) (a : IpAddr) (j n : Nat) : Nat :=
  ((log.take n).drop j).countP fun e => e.key = a ∧ e.admitted = true

/-- Reading the law by positions: call `n` itself starts the window that asks
for one whole token of burst. -/
theorem within_take_iff {rate burst : ℚ} {log : List (Entry IpAddr ℚ)} {n : Nat}
    {e : Entry IpAddr ℚ} (he : log[n]? = some e) :
    Within rate burst (log.take n) e.key e.time ↔
      ∀ j f, j ≤ n → log[j]? = some f → f.key = e.key →
        (admittedBetween log e.key j n : ℚ) + 1 ≤ burst + rate * (e.time - f.time) := by
  constructor
  · rintro ⟨hb, h⟩ j f hj hf hk
    rcases Nat.lt_or_eq_of_le hj with hlt | rfl
    · exact h j f (by rw [List.getElem?_take_of_lt hlt]; exact hf) hk
    · rw [he, Option.some.injEq] at hf
      subst hf
      simpa [admittedBetween] using hb
  · intro h
    refine ⟨by simpa [admittedBetween] using h n e le_rfl he rfl, fun j f hf hk => ?_⟩
    have hlt : j < n := by
      by_contra hge
      simp [hge] at hf
    rw [List.getElem?_take_of_lt hlt] at hf
    exact h j f hlt.le hf hk

/-- The exact admission law, the independence of clients, and the token range. -/
theorem admission_law (rate burst : ℚ) (hr : 0 ≤ rate) (hb : 1 ≤ burst)
    (calls : List (IpAddr × Instant)) (hs : calls.Pairwise fun c d => c.2 ≤ d.2) :
    let self := RateLimiter.new rate burst
    let log := (serveAll self calls).log
    log.map (fun e => (e.key, e.time)) = calls ∧
    (∀ n e, log[n]? = some e →
      (e.admitted = true ↔ ∀ j f, j ≤ n → log[j]? = some f → f.key = e.key →
        (admittedBetween log e.key j n : ℚ) + 1 ≤ burst + rate * (e.time - f.time))) ∧
    (∀ ip, log.filter (fun e => e.key = ip) =
      (serveAll self (calls.filter fun c => c.1 = ip)).log) ∧
    (∀ k ip b, (serveAll self (calls.take k)).inner ip = some b →
      0 ≤ b.tokens ∧ b.tokens ≤ burst) := by
  intro self log
  refine ⟨serveAll_log self calls, ?_, fun ip => (serveAll_filter self ip calls).2, ?_⟩
  · intro n e he
    rw [(serveAll_lawful hs).2 n e he]
    exact within_take_iff he
  · intro k ip b hget
    exact serveAll_inRange hr (by simpa [self, RateLimiter.new] using by linarith) _ ip b hget

/-- Two clients at rate one and burst one. -/
def twoClients : List (IpAddr × Instant) :=
  [(.v4 1, 0), (.v4 2, 0), (.v4 1, 1 / 2), (.v4 1, 1)]

theorem admission_law_two_clients :
    let log := (serveAll (.new 1 1) twoClients).log
    log.map (fun e => e.admitted) = [true, true, false, true] ∧
    ∀ n e, log[n]? = some e →
      (e.admitted = true ↔ ∀ j f, j ≤ n → log[j]? = some f → f.key = e.key →
        (admittedBetween log e.key j n : ℚ) + 1 ≤ 1 + 1 * (e.time - f.time)) := by
  have hsorted : twoClients.Pairwise fun c d => c.2 ≤ d.2 := by
    norm_num [twoClients]
  exact ⟨by decide +kernel, (admission_law 1 1 (by norm_num) le_rfl twoClients hsorted).2.1⟩

end TodoRust.RateLimit
