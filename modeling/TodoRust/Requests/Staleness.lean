import TodoRust.Requests.Faulty
import TodoRust.Requests.ReadYourWrites

/-!
# Bounded staleness

Every cache entry that reads as a list was stored by a request of its own user,
from a list that request had selected before. So whatever Redis does, a list that is
returned was in the tables at some moment, and was stored less than a minute ago if
it comes from the cache.
-/

namespace TodoRust.Requests
open Lib Domain Storage App

/-! ### Watching the requests -/

/-- The phase of a request, or of a call of `list_todos_cached` alone. -/
structure Watch where
  call : Bool
  phase : Phase

section Watching
variable {state : AppState} {userId : UserId}

/-- The protocol of the requests; a call that has found the list returns at once. -/
def watch (state : AppState) (userId : UserId) : Monitor Effect Effect.Reply Watch where
  allows w e := Permits state userId w.phase e ∧ (w.call = true → ∀ ts, w.phase ≠ .hit ts)
  answers w e reply := (protocol state userId).answers w.phase e reply
  next w e reply := { w with phase := advance state w.phase e reply }

theorem watch_of_protocol {α : Type} {post : α → Phase → Prop} {m : Phase}
    {p : Prog Effect Effect.Reply α} (hp : Prog.Obeys (protocol state userId) post m p) :
    Prog.Obeys (watch state userId) (fun a w => post a w.phase) ⟨false, m⟩ p := by
  induction p generalizing m with
  | ret a => exact hp
  | op e k ih =>
      refine ⟨⟨hp.1, fun hcall => by cases hcall⟩, fun reply hreply => ?_⟩
      exact ih reply (hp.2 reply hreply)

/-- A call returns what it has found or selected. -/
def Returns (done : Except StorageError (List Todo)) (w : Watch) : Prop :=
  w.call = true ∧ ∀ ts, done = .ok ts → w.phase = .hit ts ∨ w.phase = .read ts

theorem returns_ok {ts : List Todo} {m : Phase} (h : m = .hit ts ∨ m = .read ts) :
    Returns (.ok ts) ⟨true, m⟩ := by
  refine ⟨rfl, fun ts' hts => ?_⟩
  rwa [← Except.ok.inj hts]

theorem returns_error {e : StorageError} {m : Phase} : Returns (.error e) ⟨true, m⟩ :=
  ⟨rfl, fun _ h => by cases h⟩

theorem listTodosCached_watch :
    Prog.Obeys (watch state userId) Returns ⟨true, .quiet⟩ (state.listTodosCached userId).run := by
  have hquiet : ∀ ts, Phase.quiet ≠ .hit ts := by simp
  rw [AppState.listTodosCached_program]
  cases hpool : state.cache.pool with
  | false =>
      rw [if_neg Bool.false_ne_true, TodoRepository.listForUser_program]
      refine ⟨⟨permits_of_clean clean_quiet rfl (by simp) (by simp), fun _ => hquiet⟩,
        fun r _ => ?_⟩
      cases r with
      | error e => exact returns_error
      | ok rows => exact returns_ok (Or.inr rfl)
  | true =>
      refine ⟨⟨permits_of_clean clean_quiet rfl (by simp) fun _ _ => hpool, fun _ => hquiet⟩,
        fun reply _ => ?_⟩
      simp only [watch, advance]
      cases Cache.decode state.todosJson reply with
      | some todos => exact returns_ok (Or.inl rfl)
      | none =>
          refine ⟨⟨permits_of_clean clean_quiet rfl (by simp) (by simp), fun _ => hquiet⟩,
            fun r _ => ?_⟩
          cases r with
          | error e => exact returns_error
          | ok rows =>
              dsimp only
              unfold AppState.backfill
              cases hraw : state.todosJson.toString (rows.map rowToTodo) with
              | none => exact returns_ok (Or.inr rfl)
              | some raw =>
                  refine ⟨⟨⟨rfl, ?_, ?_, by simp⟩, fun _ ts => ?_⟩,
                    fun _ _ => returns_ok (Or.inr rfl)⟩
                  · intro key raw' seconds he
                    cases he
                    exact ⟨_, rfl, hraw⟩
                  · intro _ h
                    cases h
                  · intro h
                    cases h

end Watching

/-- The list an outcome hands out was found or selected. -/
def HandsOut (outcome : Outcome) (w : Watch) : Prop :=
  match outcome with
  | .inl done => ∀ response ts, done = .ok response → listed response = some ts →
      w.phase = .hit ts ∨ w.phase = .read ts
  | .inr done => Returns done w

/-- How a task begins. -/
def begin (job : Job) : Watch :=
  match job with
  | .request _ => ⟨false, .quiet⟩
  | .listTodosCached => ⟨true, .quiet⟩

theorem faultyService_watch (services : Services) (state : AppState) (i : UserId × Nat)
    (job : Job) :
    Prog.Obeys (watch state i.1) HandsOut (begin job)
      ((faultyService services state).prog i job) := by
  cases job with
  | request job =>
      apply (watch_of_protocol (service_protocol services state i job)).bind
      exact fun done w hsettled => hsettled.2
  | listTodosCached => exact listTodosCached_watch.bind fun done w hreturns => hreturns

/-! ### Where lists come from -/

section Trace
variable {services : Services} {state : AppState} {h : FaultyHistory state} {s : FaultyPool}
variable {w : World} {m : UserId × Nat → Watch}
variable {x : FaultyPool × Event (UserId × Nat) Job Choice (Mishap state)}
variable {i : UserId × Nat} {u : UserId} {ts : List Todo} {now expiresAt : OffsetDateTime}
variable {k n seconds : Nat}

/-- At position `k`, at the time `now`, task `i` selects this list. -/
def SelectedAt (h : FaultyHistory state) (k : Nat) (i : UserId × Nat) (ts : List Todo)
    (now : OffsetDateTime) : Prop :=
  ∃ t c, System.PerformedAt h k i (.sql (.selectTodos i.1.uuid)) t c ∧
    ts = listForUser t.world.db i.1 ∧ c.now = now

/-- At position `k`, at the time `now`, task `i` stores this list under its user's key. -/
def StoredAt (h : FaultyHistory state) (k : Nat) (i : UserId × Nat) (ts : List Todo)
    (seconds : Nat) (now : OffsetDateTime) : Prop :=
  ∃ t c raw, System.PerformedAt h k i (.redisSet (todosCacheKey i.1) raw seconds) t c ∧
    state.todosJson.toString ts = some raw ∧ c.now = now

/-- The list was selected and then stored by one request of the user, until then. -/
def StoredUntil (h : FaultyHistory state) (u : UserId) (ts : List Todo)
    (expiresAt : OffsetDateTime) : Prop :=
  ∃ j q p selected stored seconds, j.1 = u ∧ q < p ∧ SelectedAt h q j ts selected ∧
    StoredAt h p j ts seconds stored ∧ expiresAt = stored + 1000000 * seconds

/-- The list was found at position `k`, at the time `now`. -/
def FoundAt (h : FaultyHistory state) (k : Nat) (i : UserId × Nat) (ts : List Todo)
    (now : OffsetDateTime) : Prop :=
  ∃ t c expiresAt, System.PerformedAt h k i (.redisGet (todosCacheKey i.1)) t c ∧
    c.now = now ∧ now < expiresAt ∧ StoredUntil (h.take k) i.1 ts expiresAt

/-- What ties the cache to the tables: an entry that reads as a list was selected
by a request of its user, and so was every list a request has. -/
structure Tied (h : FaultyHistory state) (w : World) (m : UserId × Nat → Watch) : Prop where
  read : ∀ i ts, (m i).phase = .read ts → ∃ k now, SelectedAt h k i ts now
  hit : ∀ i ts, (m i).phase = .hit ts → ∃ k now, FoundAt h k i ts now
  entries : ∀ u entry ts, w.redis (todosCacheKey u) = some entry →
    state.todosJson.fromStr entry.raw = some ts → StoredUntil h u ts entry.expiresAt

theorem SelectedAt.snoc (hk : SelectedAt h k i ts now) : SelectedAt (h ++ [x]) k i ts now := by
  obtain ⟨t, c, hk, hts⟩ := hk
  exact ⟨t, c, hk.snoc, hts⟩

theorem StoredUntil.snoc (hu : StoredUntil h u ts expiresAt) :
    StoredUntil (h ++ [x]) u ts expiresAt := by
  obtain ⟨j, q, p, selected, stored, seconds, hj, hqp, hq, ⟨t, c, raw, hp, hraw⟩, hexp⟩ := hu
  exact ⟨j, q, p, selected, stored, seconds, hj, hqp, hq.snoc, ⟨t, c, raw, hp.snoc, hraw⟩, hexp⟩

theorem FoundAt.snoc (hk : FoundAt h k i ts now) : FoundAt (h ++ [x]) k i ts now := by
  obtain ⟨t, c, expiresAt, hk, hnow, hlt, hstored⟩ := hk
  refine ⟨t, c, expiresAt, hk.snoc, hnow, hlt, ?_⟩
  rwa [List.take_append_of_le_length hk.lt_length.le]

/-- An event after which every list in the cache was there before keeps the tie. -/
theorem Tied.snoc {w' : World} (hm : Tied h w m)
    (hentries : ∀ key entry ts, w'.redis key = some entry →
      state.todosJson.fromStr entry.raw = some ts → w.redis key = some entry) :
    Tied (h ++ [x]) w' m where
  read i ts hread := by
    obtain ⟨k, now, hk⟩ := hm.read i ts hread
    exact ⟨k, now, hk.snoc⟩
  hit i ts hhit := by
    obtain ⟨k, now, hk⟩ := hm.hit i ts hhit
    exact ⟨k, now, hk.snoc⟩
  entries u entry ts hentry hraw :=
    (hm.entries u entry ts (hentries _ entry ts hentry hraw) hraw).snoc

theorem Tied.start (hm : Tied h w m) (job : Job) :
    Tied (h ++ [x]) w (Function.update m i (begin job)) := by
  have hsnoc : Tied (h ++ [x]) w m := hm.snoc fun _ _ _ hentry _ => hentry
  have hquiet : (begin job).phase = .quiet := by
    cases job with
    | request job => rfl
    | listTodosCached => rfl
  constructor
  · apply (Function.forall_update_iff m fun j v => ∀ ts, v.phase = .read ts →
      ∃ k now, SelectedAt _ k j ts now).mpr
    exact ⟨by simp [hquiet], fun j _ => hsnoc.read j⟩
  · apply (Function.forall_update_iff m fun j v => ∀ ts, v.phase = .hit ts →
      ∃ k now, FoundAt _ k j ts now).mpr
    exact ⟨by simp [hquiet], fun j _ => hsnoc.hit j⟩
  · exact hsnoc.entries

/-- A list that a request finds was stored by a request of its user. -/
theorem Tied.found {c : Choice} {raw : String} (hm : Tied h w m)
    (hraw : w.redisValue c.now (todosCacheKey u) = some raw)
    (hdecode : state.todosJson.fromStr raw = some ts) :
    ∃ expiresAt, c.now < expiresAt ∧ StoredUntil h u ts expiresAt := by
  obtain ⟨entry, hentry, rfl, hlive⟩ := World.redisValue_eq_some hraw
  exact ⟨entry.expiresAt, hlive, hm.entries u entry ts hentry hdecode⟩

/-- The step lemma: an effect the protocol permits keeps the tie. -/
theorem Tied.step {c : Choice} {e : Effect} (hm : Tied h s.world m)
    (hnext : s.nextEffect i = some e) (hallows : Permits state i.1 (m i).phase e) :
    Tied (h ++ [(s, .step i c)]) (act services c e s.world).2
      (Function.update m i ⟨(m i).call, advance state (m i).phase e
        (act services c e s.world).1⟩) := by
  have hlast : System.PerformedAt (h ++ [(s, .step i c)]) h.length i e s c :=
    ⟨List.getElem?_concat_length, hnext⟩
  constructor
  · apply (Function.forall_update_iff m fun j v => ∀ ts, v.phase = .read ts →
      ∃ k now, SelectedAt _ k j ts now).mpr
    refine ⟨fun ts hread => ?_, fun j _ ts hj => ?_⟩
    · rcases advance_read hread with hi | ⟨owner, rfl, hts⟩
      · obtain ⟨k, now, hk⟩ := hm.read i ts hi
        exact ⟨k, now, hk.snoc⟩
      · obtain rfl : owner = i.1.uuid := Option.some.inj hallows.own
        exact ⟨h.length, c.now, s, c, hlast, hts, rfl⟩
    · obtain ⟨k, now, hk⟩ := hm.read j ts hj
      exact ⟨k, now, hk.snoc⟩
  · apply (Function.forall_update_iff m fun j v => ∀ ts, v.phase = .hit ts →
      ∃ k now, FoundAt _ k j ts now).mpr
    refine ⟨fun ts hhit => ?_, fun j _ ts hj => ?_⟩
    · rcases advance_hit hhit with hi | ⟨key, raw, rfl, hraw, hdecode⟩
      · obtain ⟨k, now, hk⟩ := hm.hit i ts hi
        exact ⟨k, now, hk.snoc⟩
      · obtain rfl : key = todosCacheKey i.1 := hallows.own
        obtain ⟨expiresAt, hlive, hstored⟩ := hm.found hraw hdecode
        refine ⟨h.length, c.now, s, c, expiresAt, hlast, rfl, hlive, ?_⟩
        simpa using hstored
    · obtain ⟨k, now, hk⟩ := hm.hit j ts hj
      exact ⟨k, now, hk.snoc⟩
  · intro u entry ts hentry hdecode
    by_cases hbefore : s.world.redis (todosCacheKey u) = some entry
    · exact (hm.entries u entry ts hbefore hdecode).snoc
    · -- the entry is new, so this step has stored what it had selected
      obtain ⟨seconds, rfl, hexpires⟩ := act_redis_appears hbefore hentry
      obtain rfl : u = i.1 := todosCacheKey_injective hallows.own
      obtain ⟨todos, hread, hraw⟩ := hallows.fresh _ _ _ rfl
      obtain rfl : todos = ts :=
        Option.some.inj ((state.todosJson.fromStr_toString hraw).symm.trans hdecode)
      obtain ⟨q, selected, hq⟩ := hm.read i todos hread
      obtain ⟨t, c', hperform, hts⟩ := hq
      exact ⟨i, q, h.length, selected, c.now, seconds, rfl, hperform.lt_length,
        ⟨t, c', hperform.snoc, hts⟩, ⟨s, c, entry.raw, hlast, hraw, rfl⟩, hexpires⟩

end Trace

section Runs
variable {services : Services} {state : AppState} {s₀ s : FaultyPool} {h : FaultyHistory state}

/-- The run lemma: in every state reached the cache is tied to the tables. -/
theorem run_tied (run : Run (faultyService services state).step s₀ h s)
    (hidle : ∀ i, s₀.task i = .idle) (hempty : ∀ key, s₀.world.redis key = none) :
    ∃ m, Tied h s.world m ∧ ∀ i p, s.task i = .running p →
      Prog.Obeys (watch state i.1) HandsOut (m i) p := by
  apply System.monitored (fun _ _ => True) (fun h w m => Tied h w m)
    (fun _ => ⟨false, .quiet⟩) (faultyService_watch services state) hidle _ _ _ _ _ run
    fun _ _ => trivial
  · refine ⟨by simp, by simp, fun u entry ts hentry => ?_⟩
    rw [hempty] at hentry
    cases hentry
  · intro h s m i job _ hm _
    exact hm.start job
  · intro h s m i c e k hm hrun _ hallows
    have hanswers : (protocol state i.1).answers (m i).phase e (act services c e s.world).1 :=
      protocol_answers services c s.world (m i).phase e
    exact ⟨hanswers, hm.step (Pool.nextEffect_eq_some.mpr ⟨k, hrun⟩) hallows.1⟩
  · intro h s m i hm
    exact hm.snoc fun _ _ _ hentry _ => hentry
  · intro h s m x hm _
    apply hm.snoc
    intro key entry ts hentry hdecode
    cases x with
    | drop dropped =>
        have hdrop : (s.world.setRedis dropped none).redis key = some entry := hentry
        rw [World.setRedis_redis] at hdrop
        split at hdrop
        · cases hdrop
        · exact hdrop
    | garble garbled other undecodable =>
        have hgarble : (s.world.setRedis garbled (some other)).redis key = some entry := hentry
        rw [World.setRedis_redis] at hgarble
        split at hgarble
        · rw [Option.some.inj hgarble, hdecode] at undecodable
          cases undecodable
        · exact hgarble
    | tables db => exact hentry

/-- Later steps are taken at later times. -/
def ClockAdvances (h : FaultyHistory state) : Prop :=
  ∀ (k k' : Nat) (t t' : FaultyPool) (i i' : UserId × Nat) (c c' : Choice), k ≤ k' →
    h[k]? = some (t, .step i c) → h[k']? = some (t', .step i' c') → c.now ≤ c'.now

/-- The list that task `i` has at position `k`, at the time `now`, was in the tables
before. The task selected it itself, or one of the same user selected it and stored
it in the last 60 seconds. -/
def Fresh (h : FaultyHistory state) (k : Nat) (i : UserId × Nat) (ts : List Todo)
    (now : OffsetDateTime) : Prop :=
  (∃ q selected, q ≤ k ∧ SelectedAt h q i ts selected ∧ selected ≤ now) ∨
  ∃ j q p selected stored, j.1 = i.1 ∧ q < p ∧ p < k ∧ SelectedAt h q j ts selected ∧
    StoredAt h p j ts 60 stored ∧ selected ≤ stored ∧ stored ≤ now ∧ now ≤ stored + 1000000 * 60

section Fresh
variable {k q : Nat} {i : UserId × Nat} {ts : List Todo} {t : FaultyPool} {c : Choice}

theorem fresh_of_selected {now : OffsetDateTime} (hclock : ClockAdvances h)
    (hk : h[k]? = some (t, .step i c)) (hqk : q ≤ k) (hq : SelectedAt h q i ts now) :
    Fresh h k i ts c.now := by
  obtain ⟨t', c', hselect, hts, rfl⟩ := hq
  exact Or.inl ⟨q, c'.now, hqk, ⟨t', c', hselect, hts, rfl⟩,
    hclock q k t' t i i c' c hqk hselect.1 hk⟩

theorem fresh_of_stored {expiresAt : OffsetDateTime} (hclock : ClockAdvances h)
    (hminute : StoresForAMinute h) (hk : h[k]? = some (t, .step i c))
    (hlive : c.now < expiresAt) (hstored : StoredUntil (h.take k) i.1 ts expiresAt) :
    Fresh h k i ts c.now := by
  obtain ⟨j, q, p, _, _, seconds, hj, hqp, ⟨t₀, c₀, hselect, hts, rfl⟩,
    ⟨t₁, c₁, raw, hstore, hraw, rfl⟩, hexpires⟩ := hstored
  obtain ⟨_, hselect⟩ := System.performedAt_take.mp hselect
  obtain ⟨hpk, hstore⟩ := System.performedAt_take.mp hstore
  obtain rfl : seconds = 60 := hminute p j _ raw seconds t₁ c₁ hstore
  refine Or.inr ⟨j, q, p, c₀.now, c₁.now, hj, hqp, hpk, ⟨t₀, c₀, hselect, hts, rfl⟩,
    ⟨t₁, c₁, raw, hstore, hraw, rfl⟩, ?_, ?_, ?_⟩
  · exact hclock q p t₀ t₁ j j c₀ c₁ hqp.le hselect.1 hstore.1
  · exact hclock p k t₁ t j i c₁ c hpk.le hstore.1 hk
  · have hbound : c.now < c₁.now + 1000000 * 60 := hexpires ▸ hlive
    exact hbound.le

/-- The step by which a call returns is where its list was found or, at the latest,
selected. -/
theorem fresh_of_returned (run : Run (faultyService services state).step s₀ h s)
    (hidle : ∀ i, s₀.task i = .idle) (hempty : ∀ key, s₀.world.redis key = none)
    (hclock : ClockAdvances h) (hk : h[k]? = some (t, .step i c))
    (hreturned : (stateAt h s (k + 1)).result i = some (.inr (.ok ts))) :
    Fresh h k i ts c.now := by
  obtain ⟨runk, hstep⟩ := run.split hk
  obtain ⟨m, hm, hobeys⟩ := run_tied runk hidle hempty
  obtain ⟨e, p, hrun, hafter⟩ := System.step_step.mp hstep
  have hanswers : (protocol state i.1).answers (m i).phase e (act services c e t.world).1 :=
    protocol_answers services c t.world (m i).phase e
  obtain ⟨⟨hpermits, hcall⟩, hrest⟩ := hobeys i _ hrun
  have hdone := Pool.result_eq_some.mp hreturned
  rw [hafter, Pool.setTask_self, Task.running.injEq] at hdone
  have hreturns := hrest _ hanswers
  rw [show p ((act services c e t.world).1) = _ from hdone] at hreturns
  obtain ⟨hiscall, hphase⟩ := hreturns
  have hminute := (run_blamed run hidle).1
  rcases hphase ts rfl with hhit | hread
  · rcases advance_hit hhit with hold | ⟨key, raw, rfl, hraw, hdecode⟩
    · exact absurd hold (hcall hiscall ts)
    · obtain rfl : key = todosCacheKey i.1 := hpermits.own
      obtain ⟨expiresAt, hlive, hstored⟩ := hm.found hraw hdecode
      exact fresh_of_stored hclock hminute hk hlive hstored
  · have hnext : t.nextEffect i = some e := Pool.nextEffect_eq_some.mpr ⟨p, hrun⟩
    rcases advance_read hread with hold | ⟨owner, rfl, hts⟩
    · obtain ⟨q, now, t', c', hselect, hts, rfl⟩ := hm.read i ts hold
      obtain ⟨hqk, hselect⟩ := System.performedAt_take.mp hselect
      exact fresh_of_selected hclock hk hqk.le ⟨t', c', hselect, hts, rfl⟩
    · obtain rfl : owner = i.1.uuid := Option.some.inj hpermits.own
      exact fresh_of_selected hclock hk le_rfl ⟨t, c, ⟨hk, hnext⟩, hts, rfl⟩

/-- The list in a response was fresh when the request found or selected it. -/
theorem fresh_of_listed (run : Run (faultyService services state).step s₀ h s)
    (hidle : ∀ i, s₀.task i = .idle) (hempty : ∀ key, s₀.world.redis key = none)
    (hclock : ClockAdvances h) {response : Response}
    (hresult : s.result i = some (.inl (.ok response))) (hlisted : listed response = some ts) :
    ∃ k t c, h[k]? = some (t, .step i c) ∧ Fresh h k i ts c.now := by
  obtain ⟨m, hm, hobeys⟩ := run_tied run hidle hempty
  have hphase := hobeys i _ (Pool.result_eq_some.mp hresult) response ts rfl hlisted
  rcases hphase with hhit | hread
  · obtain ⟨k, _, t, c, expiresAt, hget, rfl, hlive, hstored⟩ := hm.hit i ts hhit
    exact ⟨k, t, c, hget.1, fresh_of_stored hclock (run_blamed run hidle).1 hget.1 hlive hstored⟩
  · obtain ⟨q, now, hq⟩ := hm.read i ts hread
    obtain ⟨t, c, hselect, _⟩ := id hq
    exact ⟨q, t, c, hselect.1, fresh_of_selected hclock hselect.1 le_rfl hq⟩

end Fresh

/-- Whatever fails, a list that `list_todos_cached` returns, or a response shows, was
in the tables, and comes from the request itself or was stored at most 60 seconds
before; and a request or a call fails only if a step of its own outside Redis has. -/
theorem bounded_staleness (services : Services) (state : AppState) {s₀ s : FaultyPool}
    {h : FaultyHistory state} (run : Run (faultyService services state).step s₀ h s)
    (hidle : ∀ i, s₀.task i = .idle)
    (hempty : ∀ key, s₀.world.redis key = none) (hclock : ClockAdvances h) :
    (∀ k t i c ts, h[k]? = some (t, .step i c) →
      (stateAt h s (k + 1)).result i = some (.inr (.ok ts)) → Fresh h k i ts c.now) ∧
    (∀ i response ts, s.result i = some (.inl (.ok response)) → listed response = some ts →
      ∃ k t c, h[k]? = some (t, .step i c) ∧ Fresh h k i ts c.now) ∧
    ∀ i outcome, s.result i = some outcome → OutcomeFails outcome → HasFailed services h i := by
  refine ⟨?_, ?_, (run_blamed run hidle).2⟩
  · exact fun k t i c ts hk hreturned => fresh_of_returned run hidle hempty hclock hk hreturned
  · exact fun i response ts hresult hlisted =>
      fresh_of_listed run hidle hempty hclock hresult hlisted

/-- Steps of these events in this order are taken at times in this order. -/
def notLater : Event (UserId × Nat) Job Choice (Mishap state) →
    Event (UserId × Nat) Job Choice (Mishap state) → Bool
  | .step _ c, .step _ c' => c.now ≤ c'.now
  | _, _ => true

theorem clockAdvances_of_record {es : List (Event (UserId × Nat) Job Choice (Mishap state))}
    (hr : Run.record (faultyService services state).step s₀ es = some (h, s))
    (hes : es.Pairwise fun e e' => notLater e e' = true) : ClockAdvances h := by
  intro k k' t t' i i' c c' hkk' hk hk'
  rcases Nat.lt_or_eq_of_le hkk' with hlt | rfl
  · rw [← Run.events_record es hr, Run.events, List.pairwise_map] at hes
    obtain ⟨hlen, hk⟩ := List.getElem?_eq_some_iff.mp hk
    obtain ⟨hlen', hk'⟩ := List.getElem?_eq_some_iff.mp hk'
    have hordered := List.pairwise_iff_getElem.mp hes k k' hlen hlen' hlt
    rw [hk, hk'] at hordered
    exact of_decide_eq_true hordered
  · cases hk.symm.trans hk'
    exact le_rfl

end Runs

/-- No cache command of call 0 is answered, but its list is stored; call 1 finds it
in the last microsecond of the minute. -/
def foundLate : List (Event (UserId × Nat) Job Choice (Mishap .plain)) :=
  let lost := { Choice.plain 0 ⟨7⟩ with fault := some "timed out", tookEffect := true }
  [.start (ann, 0) .listTodosCached, .step (ann, 0) lost, .step (ann, 0) (.plain 0 ⟨7⟩),
    .step (ann, 0) lost, .start (ann, 1) .listTodosCached, .step (ann, 1) (.plain 59999999 ⟨7⟩)]

theorem bounded_staleness_found_late : ∃ h s,
    Run.record (faultyService .plain .plain).step ⟨World.plain, fun _ => .idle⟩ foundLate =
      some (h, s) ∧ Fresh h 5 (ann, 1) [] 59999999 := by
  have hrecord : Run.record (faultyService .plain .plain).step ⟨World.plain, fun _ => .idle⟩
    foundLate = some (_, _) := rfl
  have hfresh := bounded_staleness .plain .plain (Run.of_record foundLate hrecord)
    (fun _ => rfl) (fun _ => rfl) (clockAdvances_of_record hrecord (by decide))
  exact ⟨_, _, hrecord, hfresh.1 5 _ _ _ [] rfl rfl⟩

end TodoRust.Requests
