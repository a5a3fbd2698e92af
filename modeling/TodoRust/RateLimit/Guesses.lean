import TodoRust.RateLimit.Gate

/-!
# Guesses of passwords

Any number of requests go through the gate at the same time, effect by effect. Every guess
is paid for by an admission of its own, of the same address and at the same reading of the
clock, so the limit on admissions is a limit on guesses.
-/

namespace TodoRust.RateLimit
open Lib Lib.TokenBucket Domain Storage App Rust

/-- The world, and what the mutex of the limiter guards. -/
structure GateWorld where
  world : World
  limiter : State

/-- What the environment contributes to one effect: a reading of the clock as well. -/
structure GateChoice where
  inner : Choice
  now : Instant

/-- One effect as an atomic step; a check is the critical section of `check`. -/
def actGate (services : Services) (limiter : RateLimiter) (c : GateChoice) (e : GateEffect)
    (w : GateWorld) : e.Reply × GateWorld :=
  match e with
  | .sample => (c.now, w)
  | .check ip now =>
      ((limiter.check w.limiter.inner ip now).1, { w with
        limiter := w.limiter.serve limiter ip now })
  | .inner e =>
      let done := act services c.inner e w.world
      (done.1, { w with world := done.2 })

section
variable {ι X : Type}

/-- Any number of requests, beside anything that does not call the limiter. -/
def gatedRequests (services : Services) (state : AppState) (fluent : I18n.FluentLangneg)
    (enabledEmail : Option String) (limiter : RateLimiter) (env : X → World → World) :
    System ι GateRequest GateChoice X GateEffect GateEffect.Reply (Except String Response)
      GateWorld where
  prog _ request := request.prog state fluent enabledEmail limiter
  act := actGate services limiter
  env x w := { w with world := env x w.world }

abbrev GatePool (ι : Type) :=
  Pool ι GateEffect GateEffect.Reply (Except String Response) GateWorld

abbrev GateEvent (ι X : Type) := Event ι GateRequest GateChoice X

/-- A critical section runs with a sample not older than the one stored for its client. -/
def ChecksInOrder (limiter : RateLimiter) (s : GatePool ι) : GateEvent ι X → Prop
  | .step i _ =>
      match s.nextEffect i with
      | some (.check ip now) => InOrder limiter s.world.limiter.inner ip now
      | _ => True
  | _ => True

instance (limiter : RateLimiter) (s : GatePool ι) :
    DecidablePred (ChecksInOrder (X := X) limiter s) := fun e => by
  unfold ChecksInOrder
  split
  · split <;> infer_instance
  · infer_instance

variable (h : List (GatePool ι × GateEvent ι X))

/-- At this position of the history the request tries a password. -/
def GuessesAt (k : Nat) (i : ι) : Prop :=
  ∃ e t c, IsGuess e ∧ System.PerformedAt h k i (.inner e) t c

/-- The request has read the clock. -/
def Sampled (i : ι) (now : Instant) : Prop :=
  ∃ k t c, System.PerformedAt h k i .sample t c ∧ c.now = now

/-- At this position a password is tried, by a request of this address that read this off
the clock. -/
def GuessAt (limiter : RateLimiter) (k : Nat) (ip : IpAddr) (now : Instant) : Prop :=
  ∃ i, GuessesAt h k i ∧ Sampled h i now ∧
    ∃ q request, StartedAt h q i request ∧ limiter.clientIp request.conn request.headers = ip

/-! ### The invariant -/

namespace Stage

def ip? : Stage → Option IpAddr
  | .idle => none
  | .outside ip | .sampled ip _ | .refused ip _ | .admitted ip _ | .guessed ip _ => some ip

def now? : Stage → Option Instant
  | .idle | .outside _ => none
  | .sampled _ now | .refused _ now | .admitted _ now | .guessed _ now => some now

/-- The admission that a request holds, whether it has guessed or not. -/
def admission? : Stage → Option (IpAddr × Instant)
  | .idle | .outside _ | .sampled .. | .refused .. => none
  | .admitted ip now | .guessed ip now => some (ip, now)

end Stage

/-- Each request that is past the limiter has an admitted call of its own in the log. -/
structure Paid (limiter : RateLimiter) (w : State) (m : ι → Stage) (call : ι → Nat) : Prop where
  represents : Represents limiter w
  lawful : Lawful limiter.ratePerSec limiter.burst w.log
  admitted : ∀ i ip now, (m i).admission? = some (ip, now) → w.log[call i]? = some ⟨ip, now, true⟩
  own : ∀ i j x y, (m i).admission? = some x → (m j).admission? = some y → call i = call j → i = j

/-- What the history says of the stages of the requests. -/
structure Tracked (limiter : RateLimiter) (m : ι → Stage) : Prop where
  idle : ∀ i, (∀ q request, ¬ StartedAt h q i request) → m i = .idle
  started : ∀ q i request, StartedAt h q i request →
    (m i).ip? = some (limiter.clientIp request.conn request.headers)
  sampled : ∀ i now, Sampled h i now → (m i).now? = some now
  guessed : ∀ k i, GuessesAt h k i → ∃ ip now, m i = .guessed ip now
  once : ∀ k k' i, GuessesAt h k i → GuessesAt h k' i → k = k'

variable {h} {limiter : RateLimiter} {m m' : ι → Stage}

/-! ### What one event does to the history -/

section History
variable {x : GatePool ι × GateEvent ι X} {i : ι}

theorem guessesAt_snoc {k : Nat} (hk : GuessesAt (h ++ [x]) k i) :
    GuessesAt h k i ∨ k = h.length ∧ ∃ e t c, IsGuess e ∧ x = (t, .step i c) ∧
      t.nextEffect i = some (.inner e) := by
  obtain ⟨e, t, c, hguess, hk⟩ := hk
  rcases hk.of_snoc with hold | ⟨hlen, hx, hnext⟩
  · exact Or.inl ⟨e, t, c, hguess, hold⟩
  · exact Or.inr ⟨hlen, e, t, c, hguess, hx, hnext⟩

theorem sampled_snoc {now : Instant} (hi : Sampled (h ++ [x]) i now) :
    Sampled h i now ∨ ∃ t c, x = (t, .step i c) ∧ t.nextEffect i = some .sample ∧ c.now = now := by
  obtain ⟨k, t, c, hk, hnow⟩ := hi
  rcases hk.of_snoc with hold | ⟨_, hx, hnext⟩
  · exact Or.inl ⟨k, t, c, hold, hnow⟩
  · exact Or.inr ⟨t, c, hx, hnext, hnow⟩

/-- What of the stages has to survive an event. -/
theorem Tracked.snoc (hm : Tracked h limiter m)
    (hidle : ∀ i, m i = .idle → (∀ t request, x ≠ (t, .start i request)) → m' i = .idle)
    (hstart : ∀ i t request, x = (t, .start i request) →
      (m' i).ip? = some (limiter.clientIp request.conn request.headers))
    (hip : ∀ i ip, (m i).ip? = some ip → (m' i).ip? = some ip)
    (hsample : ∀ i t c, x = (t, .step i c) → t.nextEffect i = some .sample →
      (m' i).now? = some c.now)
    (hnow : ∀ i now, (m i).now? = some now → (m' i).now? = some now)
    (hguess : ∀ i t c e, IsGuess e → x = (t, .step i c) → t.nextEffect i = some (.inner e) →
      (∃ ip now, m' i = .guessed ip now) ∧ ∀ ip now, m i ≠ .guessed ip now)
    (hkept : ∀ i ip now, m i = .guessed ip now → m' i = .guessed ip now) :
    Tracked (h ++ [x]) limiter m' where
  idle i hi := by
    apply hidle i
    · apply hm.idle
      rintro q request ⟨t, hq⟩
      exact hi q request ⟨t, getElem?_snoc_of_some hq⟩
    · rintro t request rfl
      exact hi h.length request ⟨t, List.getElem?_concat_length⟩
  started q i request hq := by
    rcases hq.of_snoc with hold | ⟨t, hx⟩
    · exact hip i _ (hm.started q i request hold)
    · exact hstart i t request hx
  sampled i now hi := by
    rcases sampled_snoc hi with hold | ⟨t, c, hx, hnext, rfl⟩
    · exact hnow i now (hm.sampled i now hold)
    · exact hsample i t c hx hnext
  guessed k i hk := by
    rcases guessesAt_snoc hk with hold | ⟨_, e, t, c, he, hx, hnext⟩
    · obtain ⟨ip, now, hi⟩ := hm.guessed k i hold
      exact ⟨ip, now, hkept i ip now hi⟩
    · exact (hguess i t c e he hx hnext).1
  once k k' i hk hk' := by
    rcases guessesAt_snoc hk with hold | ⟨hlen, e, t, c, he, hx, hnext⟩
    · obtain ⟨ip, now, hi⟩ := hm.guessed k i hold
      rcases guessesAt_snoc hk' with hold' | ⟨_, e, t, c, he, hx, hnext⟩
      · exact hm.once k k' i hold hold'
      · exact absurd hi ((hguess i t c e he hx hnext).2 ip now)
    · rcases guessesAt_snoc hk' with hold' | ⟨hlen', _⟩
      · obtain ⟨ip, now, hi⟩ := hm.guessed k' i hold'
        exact absurd hi ((hguess i t c e he hx hnext).2 ip now)
      · rw [hlen, hlen']

/-- An event of no request. -/
theorem Tracked.quiet (hm : Tracked h limiter m) (hstart : ∀ i t request, x ≠ (t, .start i request))
    (hstep : ∀ i t c, x ≠ (t, .step i c)) : Tracked (h ++ [x]) limiter m := by
  apply hm.snoc
  · exact fun _ hi _ => hi
  · exact fun i t request hx => absurd hx (hstart i t request)
  · exact fun _ _ hip => hip
  · exact fun i t c hx => absurd hx (hstep i t c)
  · exact fun _ _ hnow => hnow
  · exact fun i t c _ _ hx => absurd hx (hstep i t c)
  · exact fun _ _ _ hi => hi

variable [DecidableEq ι] {s : GatePool ι} {c : GateChoice}

theorem Tracked.start {request : GateRequest} (hm : Tracked h limiter m) (hi : m i = .idle) :
    Tracked (h ++ [(s, .start i request)]) limiter
      (Function.update m i (.outside (limiter.clientIp request.conn request.headers))) := by
  have hother {P : Stage → Prop} (hidle : ¬ P .idle) {j : ι} (hj : P (m j)) :
      P (Function.update m i (.outside (limiter.clientIp request.conn request.headers)) j) := by
    rw [Function.update_of_ne]
    · exact hj
    · rintro rfl
      exact hidle (hi ▸ hj)
  apply hm.snoc
  · intro j hj hx
    rw [Function.update_of_ne]
    · exact hj
    · rintro rfl
      exact hx s request rfl
  · rintro j t request' hx
    cases hx
    rw [Function.update_self]
    rfl
  · exact fun j ip hj => hother (P := fun stage => stage.ip? = some ip) nofun hj
  · intro j t c hx
    cases hx
  · exact fun j now hj => hother (P := fun stage => stage.now? = some now) nofun hj
  · intro j t c e _ hx
    cases hx
  · exact fun j ip now hj => hother (P := fun stage => stage = .guessed ip now) nofun hj

/-- A step of a request whose stage keeps the address and what it has read and guessed. -/
theorem Tracked.step {e : GateEffect} {stage : Stage} (hm : Tracked h limiter m)
    (hnext : s.nextEffect i = some e) (hi : m i ≠ .idle) (hip : stage.ip? = (m i).ip?)
    (hsample : e = .sample → stage.now? = some c.now)
    (hnow : ∀ now, (m i).now? = some now → stage.now? = some now)
    (hguess : ∀ e', e = .inner e' → IsGuess e' →
      (∃ ip now, stage = .guessed ip now) ∧ ∀ ip now, m i ≠ .guessed ip now)
    (hkept : ∀ ip now, m i = .guessed ip now → stage = .guessed ip now) :
    Tracked (h ++ [(s, .step i c)]) limiter (Function.update m i stage) := by
  apply hm.snoc
  · intro j hj _
    rw [Function.update_of_ne]
    · exact hj
    · rintro rfl
      exact hi hj
  · intro j t request hx
    cases hx
  · intro j ip hj
    by_cases hij : j = i
    · subst hij
      rw [Function.update_self, hip, hj]
    · rwa [Function.update_of_ne hij]
  · rintro j t c' hx hsampled
    cases hx
    rw [Function.update_self]
    exact hsample (Option.some.inj (hnext.symm.trans hsampled))
  · intro j now hj
    by_cases hij : j = i
    · subst hij
      rw [Function.update_self]
      exact hnow now hj
    · rwa [Function.update_of_ne hij]
  · rintro j t c' e' he' hx hguessed
    cases hx
    rw [Function.update_self]
    exact hguess e' (Option.some.inj (hnext.symm.trans hguessed)) he'
  · intro j ip now hj
    by_cases hij : j = i
    · subst hij
      rw [Function.update_self]
      exact hkept ip now hj
    · rwa [Function.update_of_ne hij]

end History

/-! ### What one event does to the log -/

section Log
variable [DecidableEq ι] {w : State} {call : ι → Nat} {i : ι}

/-- A step that neither gains nor loses an admission. -/
theorem Paid.keep {stage : Stage} (hp : Paid limiter w m call)
    (hstage : stage.admission? = (m i).admission?) :
    Paid limiter w (Function.update m i stage) call := by
  have hsame (j : ι) : (Function.update m i stage j).admission? = (m j).admission? := by
    by_cases hij : j = i
    · subst hij
      rw [Function.update_self, hstage]
    · rw [Function.update_of_ne hij]
  refine ⟨hp.represents, hp.lawful, ?_, ?_⟩
  · intro j ip now hj
    exact hp.admitted j ip now (hsame j ▸ hj)
  · intro j k x y hj hk
    exact hp.own j k x y (hsame j ▸ hj) (hsame k ▸ hk)

/-- A critical section enters one call, which an admission is paid for by. -/
theorem Paid.check {ip : IpAddr} {now : Instant} (hp : Paid limiter w m call)
    (ho : InOrder limiter w.inner ip now) :
    Paid limiter (w.serve limiter ip now)
      (Function.update m i
        (if (limiter.check w.inner ip now).1 then .admitted ip now else .refused ip now))
      (Function.update call i w.log.length) := by
  have hentered (j : ι) (ip' : IpAddr) (now' : Instant) (hj : (m j).admission? = some (ip', now')) :
      call j < w.log.length := lt_length_of_getElem? (hp.admitted j ip' now' hj)
  refine ⟨(serve_represents hp.represents ho).1, serve_lawful hp.represents ho hp.lawful, ?_, ?_⟩
  · intro j ip' now' hj
    by_cases hij : j = i
    · subst hij
      rw [Function.update_self] at hj ⊢
      cases hcheck : (limiter.check w.inner ip now).1 with
      | false =>
          rw [hcheck] at hj
          cases hj
      | true =>
          rw [hcheck] at hj
          cases hj
          simp [State.serve, RateLimiter.answer, hcheck]
    · rw [Function.update_of_ne hij] at hj ⊢
      exact getElem?_snoc_of_some (hp.admitted j ip' now' hj)
  · intro j k x y hj hk hcall
    by_cases hji : j = i
    · by_cases hki : k = i
      · rw [hji, hki]
      · rw [Function.update_of_ne hki] at hk hcall
        rw [hji, Function.update_self] at hcall
        have hlt := hentered k y.1 y.2 hk
        omega
    · rw [Function.update_of_ne hji] at hj hcall
      by_cases hki : k = i
      · rw [hki, Function.update_self] at hcall
        have hlt := hentered j x.1 x.2 hj
        omega
      · rw [Function.update_of_ne hki] at hk hcall
        exact hp.own j k x y hj hk hcall

end Log

/-! ### What a stage does next -/

theorem allows_sample {m : Stage} (h : m.allows .sample) : ∃ ip, m = .outside ip := by
  cases m with
  | outside ip => exact ⟨ip, rfl⟩
  | sampled => cases h
  | _ => exact absurd h id

theorem allows_check {m : Stage} {ip : IpAddr} {now : Instant} (h : m.allows (.check ip now)) :
    m = .sampled ip now := by
  cases m with
  | sampled ip' now' =>
      obtain ⟨rfl, rfl⟩ := GateEffect.check.inj h
      rfl
  | _ => exact absurd h id

theorem next_inner {m : Stage} {e : Effect} (h : m.allows (.inner e)) (r : e.Reply) :
    ¬ IsGuess e ∧ m.next (.inner e) r = m ∨
      IsGuess e ∧ ∃ ip now, m = .admitted ip now ∧ m.next (.inner e) r = .guessed ip now := by
  cases m with
  | idle | refused => exact absurd h id
  | sampled => cases h
  | outside | guessed => exact Or.inl ⟨h, rfl⟩
  | admitted ip now =>
      cases e with
      | verifyPassword => exact Or.inr ⟨trivial, ip, now, rfl, rfl⟩
      | _ => exact Or.inl ⟨id, rfl⟩

/-! ### Runs -/

section Runs
variable [DecidableEq ι] {services : Services} {state : AppState} {fluent : I18n.FluentLangneg}
variable {enabledEmail : Option String} {env : X → World → World} {s₀ s : GatePool ι}

/-- The step lemma: whatever a request does next, it is paid for. -/
theorem paid_step {i : ι} {c : GateChoice} {e : GateEffect}
    {k : e.Reply → GateAction (Except String Response)} {call : ι → Nat}
    (hp : Paid limiter s.world.limiter m call) (hm : Tracked h limiter m)
    (hrun : s.task i = .running (.op e k))
    (horder : ChecksInOrder limiter s (.step i c : GateEvent ι X)) (hallows : (m i).allows e) :
    let done := actGate services limiter c e s.world
    (∃ call, Paid limiter done.2.limiter (Function.update m i ((m i).next e done.1)) call) ∧
      Tracked (h ++ [(s, .step i c)]) limiter (Function.update m i ((m i).next e done.1)) := by
  intro done
  have hnext : s.nextEffect i = some e := Pool.nextEffect_eq_some.mpr ⟨k, hrun⟩
  cases e with
  | sample =>
      obtain ⟨ip, hi⟩ := allows_sample hallows
      refine ⟨⟨call, hp.keep ?_⟩, hm.step hnext ?_ ?_ ?_ ?_ ?_ ?_⟩
      all_goals simp [hi, Stage.next, Stage.admission?, Stage.ip?, Stage.now?, done, actGate]
  | check ip now =>
      have hi := allows_check hallows
      have ho : InOrder limiter s.world.limiter.inner ip now := by
        simpa only [ChecksInOrder, hnext] using horder
      rw [hi]
      refine ⟨⟨_, hp.check ho⟩, hm.step hnext ?_ ?_ ?_ ?_ ?_ ?_⟩
      · simp [hi]
      · rw [hi]
        simp only [Stage.next]
        split <;> rfl
      · exact nofun
      · rw [hi]
        intro now' hnow
        simp only [Stage.next]
        split <;> exact hnow
      · exact nofun
      · rw [hi]
        exact nofun
  | inner e =>
      rcases next_inner hallows done.1 with ⟨hguess, hstays⟩ | ⟨hguess, ip, now, hi, hguessed⟩
      · rw [hstays]
        refine ⟨⟨call, hp.keep rfl⟩, hm.step hnext ?_ rfl nofun (fun _ => id) ?_ (fun _ _ => id)⟩
        · intro hi
          rw [hi] at hallows
          exact hallows
        · rintro e' he' hguess'
          cases he'
          exact absurd hguess' hguess
      · rw [hguessed]
        refine ⟨⟨call, hp.keep (by rw [hi]; rfl)⟩, hm.step hnext ?_ ?_ nofun ?_ ?_ ?_⟩
        · simp [hi]
        · rw [hi]
          rfl
        · rw [hi]
          exact fun _ => id
        · intro _ _ _
          rw [hi]
          exact ⟨⟨ip, now, rfl⟩, nofun⟩
        · rw [hi]
          exact nofun

/-- In every run whose critical sections run in order, all guesses are paid for. -/
theorem run_paid (henabled : limiter.enabled = true) (hidle : ∀ i, s₀.task i = .idle)
    (hempty : s₀.world.limiter = .empty)
    (run : Run (gatedRequests services state fluent enabledEmail limiter env).step s₀ h s)
    (horder : ∀ x ∈ h, ChecksInOrder limiter x.1 x.2) :
    ∃ m call, Paid limiter s.world.limiter m call ∧ Tracked h limiter m := by
  have hempty' : Paid limiter s₀.world.limiter (fun _ : ι => Stage.idle) fun _ => 0 := by
    rw [hempty]
    exact ⟨represents_empty limiter, lawful_nil, nofun, nofun⟩
  have hnone : Tracked ([] : List (GatePool ι × GateEvent ι X)) limiter fun _ => .idle := by
    constructor
    · exact fun _ _ => rfl
    · rintro q i request ⟨t, hq⟩
      cases hq
    · rintro i now ⟨q, t, c, hq, -⟩
      cases hq.1
    · rintro k i ⟨e, t, c, -, hk⟩
      cases hk.1
    · rintro k k' i ⟨e, t, c, -, hk⟩
      cases hk.1
  obtain ⟨m, ⟨⟨call, hp⟩, hm⟩, -⟩ := System.monitored (ChecksInOrder limiter)
    (fun h w m => (∃ call, Paid limiter w.limiter m call) ∧ Tracked h limiter m) (fun _ => .idle)
    (fun _ request => request_obeys state fluent enabledEmail henabled request) hidle
    ⟨⟨_, hempty'⟩, hnone⟩
    (by
      rintro h s m i request run ⟨⟨call, hp⟩, hm⟩ hi
      have hfirst : m i = .idle := by
        apply hm.idle
        rintro q request' ⟨t, hq⟩
        exact System.not_start_of_idle run hi hq
      exact ⟨⟨call, hp.keep (by rw [hfirst]; rfl)⟩, hm.start hfirst⟩)
    (by
      rintro h s m i c e k ⟨⟨call, hp⟩, hm⟩ hrun hcheck hallows
      exact ⟨trivial, paid_step hp hm hrun hcheck hallows⟩)
    (by
      rintro h s m i ⟨hp, hm⟩
      exact ⟨hp, hm.quiet nofun nofun⟩)
    (by
      rintro h s m x ⟨hp, hm⟩ -
      exact ⟨hp, hm.quiet nofun nofun⟩)
    run horder
  exact ⟨m, call, hp, hm⟩

omit [DecidableEq ι] in
/-- Guesses that are paid for are no more than the admissions. -/
theorem length_le_inWindow {w : State} {call : ι → Nat} (hp : Paid limiter w m call)
    (hm : Tracked h limiter m) {ip : IpAddr} {start span : ℚ} {positions : List Nat}
    (hdistinct : positions.Nodup)
    (hguess : ∀ k ∈ positions, ∃ now, start ≤ now ∧ now ≤ start + span ∧
      GuessAt h limiter k ip now) :
    positions.length ≤ inWindow w.log ip start span := by
  have hpays : ∀ k ∈ positions, ∃ n,
      (∃ i x, GuessesAt h k i ∧ (m i).admission? = some x ∧ call i = n) ∧
      ∃ entry, w.log[n]? = some entry ∧
        decide ((entry.key = ip ∧ entry.admitted = true) ∧
          start ≤ entry.time ∧ entry.time ≤ start + span) = true := by
    intro k hk
    obtain ⟨now, hfrom, hto, i, hguesses, hsampled, q, request, hstarted, hip⟩ := hguess k hk
    obtain ⟨ip', now', hi⟩ := hm.guessed k i hguesses
    have hip' := hm.started q i request hstarted
    have hnow' := hm.sampled i now hsampled
    rw [hi] at hip' hnow'
    obtain rfl : ip' = ip := (Option.some.inj hip').trans hip
    obtain rfl : now' = now := Option.some.inj hnow'
    have hadmission : (m i).admission? = some (ip', now') := by
      rw [hi]
      rfl
    refine ⟨call i, ⟨i, _, hguesses, hadmission, rfl⟩, _, hp.admitted i ip' now' hadmission, ?_⟩
    simp [hfrom, hto]
  choose! pays hcaller hentry using hpays
  have hinj : ∀ k ∈ positions, ∀ k' ∈ positions, pays k = pays k' → k = k' := by
    intro k hk k' hk' heq
    obtain ⟨i, x, hguesses, hx, hcall⟩ := hcaller k hk
    obtain ⟨j, y, hguesses', hy, hcall'⟩ := hcaller k' hk'
    obtain rfl := hp.own i j x y hx hy (by rw [hcall, hcall', heq])
    exact hm.once k k' i hguesses hguesses'
  have hcalls : (positions.map pays).Nodup := hdistinct.map_on hinj
  calc positions.length = (positions.map pays).toFinset.card := by
        rw [List.toFinset_card_of_nodup hcalls, List.length_map]
    _ ≤ inWindow w.log ip start span := by
        apply card_le_countP
        intro n hn
        obtain ⟨k, hk, rfl⟩ := List.mem_map.mp (List.mem_toFinset.mp hn)
        exact hentry k hk

/-- Five guesses, and one more every twelve seconds: in every interleaving of requests whose
critical sections run in the order of their samples, that is how many passwords are tried
under one key in any window of time, whatever accounts they are for. The limiter is enabled,
the key is the address that `client_ip` finds, and the tokens are counted exactly, where
the program counts them in `f64`. -/
theorem guesses_bounded (services : Services) (state : AppState) (fluent : I18n.FluentLangneg)
    (enabledEmail : Option String) (env : X → World → World) (trustForwardedFor : Bool)
    (hidle : ∀ i, s₀.task i = .idle) (hempty : s₀.world.limiter = .empty)
    (run : Run (gatedRequests services state fluent enabledEmail
      (loginLimiter trustForwardedFor true) env).step s₀ h s)
    (horder : ∀ x ∈ h, ChecksInOrder (loginLimiter trustForwardedFor true) x.1 x.2)
    {ip : IpAddr} {start span : ℚ} (hspan : 0 ≤ span) {positions : List Nat}
    (hdistinct : positions.Nodup)
    (hguess : ∀ k ∈ positions, ∃ now, start ≤ now ∧ now ≤ start + span ∧
      GuessAt h (loginLimiter trustForwardedFor true) k ip now) :
    (positions.length : ℚ) ≤ 5 + 5 / 60 * span := by
  obtain ⟨m, call, hp, hm⟩ := run_paid rfl hidle hempty run horder
  have hle := length_le_inWindow hp hm hdistinct hguess
  have hrate : (0 : ℚ) ≤ (loginLimiter trustForwardedFor true).ratePerSec := by
    norm_num [loginLimiter, RateLimiter.new]
  have hburst : (0 : ℚ) ≤ (loginLimiter trustForwardedFor true).burst := by
    norm_num [loginLimiter, RateLimiter.new]
  calc (positions.length : ℚ) ≤ inWindow s.world.limiter.log ip start span := by exact_mod_cast hle
    _ ≤ 5 + 5 / 60 * span := hp.lawful.inWindow_le hrate hburst hspan

/-- A login with a wrong password, from an address without a proxy. -/
def wrongPassword : GateRequest where
  conn := some (.v4 1)
  headers := []
  cspNonce := ""
  session := none
  page := .route (.login ⟨"ann@example.org", "battery staple", none⟩)

abbrev guessing : System Nat GateRequest GateChoice Empty GateEffect GateEffect.Reply
    (Except String Response) GateWorld :=
  gatedRequests .plain .plain .plain none (loginLimiter false true) fun x _ => x.elim

def closedGate : GatePool Nat := ⟨⟨World.plain, .empty⟩, fun _ => .idle⟩

/-- The first request has read the clock. -/
def sampledGate : GatePool Nat :=
  (closedGate.setTask 0 (.running (wrongPassword.prog .plain .plain none
    (loginLimiter false true)))).setTask 0 (.running (.op (.check (.v4 1) 60) fun admitted =>
      if admitted then gated (wrongPassword.handled .plain .plain none ⟨none⟩)
      else .ret (.ok (Router.textResponse StatusCode.tooManyRequests "too many requests"))))

/-- It is admitted. -/
theorem sampledGate_step (c : GateChoice) : guessing.step sampledGate (.step 0 c) =
    some (({ sampledGate with world := ⟨World.plain, State.empty.serve (loginLimiter false true)
      (.v4 1) 60⟩ } : GatePool Nat).setTask 0
        (.running (gated (wrongPassword.handled .plain .plain none ⟨none⟩)))) := by
  have hadmitted : ((loginLimiter false true).check State.empty.inner (.v4 1) 60).1 = true := by
    decide +kernel
  have hreply : (guessing.act c (.check (.v4 1) 60) sampledGate.world).1 = true := hadmitted
  refine System.step_step.mpr ⟨_, _, Pool.setTask_self .., ?_⟩
  rw [if_pos hreply]
  rfl

/-- The request reads the clock and is admitted, looks the account up, and guesses. -/
theorem guessing_run : ∃ h s, Run guessing.step closedGate h s ∧
    (∀ x ∈ h, ChecksInOrder (loginLimiter false true) x.1 x.2) ∧
    GuessAt h (loginLimiter false true) 4 (.v4 1) 60 := by
  let c : GateChoice := ⟨.plain 0 ⟨7⟩, 60⟩
  have hsampled : Run guessing.step closedGate _ sampledGate :=
    Run.of_record [.start 0 wrongPassword, .step 0 c] rfl
  have hadmitted := hsampled.snoc (sampledGate_step c)
  have run := (hadmitted.snoc (e := .step 0 c) rfl).snoc (e := .step 0 c) rfl
  refine ⟨_, _, run, by decide +kernel, 0, ⟨.verifyPassword "battery staple" "correct horse", _, _,
    trivial, rfl, rfl⟩, ⟨1, _, _, ⟨rfl, rfl⟩, rfl⟩, 0, wrongPassword, ⟨_, rfl⟩, rfl⟩

theorem guesses_bounded_one : ∃ h s, Run guessing.step closedGate h s ∧
    GuessAt h (loginLimiter false true) 4 (.v4 1) 60 ∧
    (([4] : List Nat).length : ℚ) ≤ 5 + 5 / 60 * 0 := by
  obtain ⟨h, s, run, horder, hguess⟩ := guessing_run
  refine ⟨h, s, run, hguess, ?_⟩
  exact guesses_bounded .plain .plain .plain none (fun (x : Empty) _ => x.elim) false
    (fun _ => rfl) rfl run horder le_rfl (List.nodup_singleton 4) (by
      intro k hk
      obtain rfl := List.mem_singleton.mp hk
      exact ⟨60, le_rfl, by norm_num, hguess⟩)

end Runs

end

end TodoRust.RateLimit
