import Mathlib.Tactic.IntervalCases
import TodoRust.Requests.Service

/-!
# Reading one's own writes

A write deletes the cached list after it has committed, so that the next list is
selected again. A list request that selected before the write can still store
its old list after that delete, and later lists are then found stale. In runs
where that does not happen, every list a user is shown is one the database had
after each of the user's writes that was answered before.
-/

namespace TodoRust.Requests
open Lib Domain Storage App

/-- `list_for_user`, on the tables of one moment. -/
def listForUser (db : Database) (userId : UserId) : List Todo :=
  (db.selectTodos userId.uuid).map rowToTodo

section Events
variable (services : Services) (h : History) (k : Nat) (i : UserId × Nat)

/-- A request changes a todo of its user. -/
def CommitsAt : Prop :=
  ∃ t c stmt rows, System.PerformedAt h k i (.sql stmt) t c ∧ stmt.writesTodos = true ∧
    (act services c (.sql stmt) t.world).1 = .ok rows ∧ stmt.commits rows = true

def SelectsAt : Prop :=
  ∃ t c, System.PerformedAt h k i (.sql (.selectTodos i.1.uuid)) t c

def StoresAt : Prop :=
  ∃ raw seconds t c, System.PerformedAt h k i (.redisSet (todosCacheKey i.1) raw seconds) t c

def DeletesAt : Prop :=
  ∃ t c, System.PerformedAt h k i (.redisDel (todosCacheKey i.1)) t c

end Events

/-- No list request of the user stores its list after a write of the user has
both committed, since the list was selected, and deleted the entry. -/
def NoStaleBackfill (services : Services) (u : UserId) (h : History) : Prop :=
  ∀ l w q c d p, SelectsAt h q (u, l) → CommitsAt services h c (u, w) → DeletesAt h d (u, w) →
    StoresAt h p (u, l) → q < c → c < d → ¬ d < p

/-- A request has selected this list. -/
def ReadBy (h : History) (i : UserId × Nat) (ts : List Todo) : Prop :=
  ∃ q t c, System.PerformedAt h q i (.sql (.selectTodos i.1.uuid)) t c ∧
    ts = listForUser t.world.db i.1

/-- A request has found this list in the cache. -/
def FoundBy (state : AppState) (h : History) (i : UserId × Nat) (ts : List Todo) : Prop :=
  state.cache.pool = true ∧ ∃ g t c raw,
    System.PerformedAt h g i (.redisGet (todosCacheKey i.1)) t c ∧
      t.world.redisValue c.now (todosCacheKey i.1) = some raw ∧
      state.todosJson.fromStr raw = some ts

/-- What the phases say about the history: where a list was selected or found,
and that a write has deleted the entry or is about to. -/
structure Traced (services : Services) (state : AppState) (h : History)
    (m : UserId × Nat → Phase) : Prop where
  read : ∀ i ts, m i = .read ts → ReadBy h i ts
  hit : ∀ i ts, m i = .hit ts → FoundBy state h i ts
  deleted : state.cache.pool = true → ∀ i c, CommitsAt services h c i →
    m i = .dirty ∨ ∃ d, c < d ∧ DeletesAt h d i

section Advance
variable {services : Services} {state : AppState} {c : Choice} {w : World} {m : Phase} {e : Effect}
variable {ts : List Todo}

theorem advance_error {stmt : Statement} {err : SqlxError} :
    advance state m (.sql stmt) (.error err) = m := by
  cases stmt with
  | _ => rfl

/-- The other statements read no list. -/
theorem advance_sql (state : AppState) (m : Phase) {stmt : Statement}
    (hstmt : ∀ owner, stmt ≠ .selectTodos owner)
    (reply : Effect.Reply (.sql stmt)) :
    advance state m (.sql stmt) reply = m ∨ advance state m (.sql stmt) reply = .dirty := by
  cases reply with
  | error err => exact Or.inl advance_error
  | ok rows =>
      cases stmt with
      | selectTodos owner => exact absurd rfl (hstmt owner)
      | _ =>
          simp only [advance]
          split
          · exact Or.inr rfl
          · exact Or.inl rfl

/-- A list is read by selecting it. -/
theorem advance_read (h : advance state m e (act services c e w).1 = .read ts) :
    m = .read ts ∨ ∃ owner, e = .sql (.selectTodos owner) ∧
      ts = (w.db.selectTodos owner).map rowToTodo := by
  cases e with
  | sql stmt =>
      by_cases hstmt : ∃ owner, stmt = .selectTodos owner
      · obtain ⟨owner, rfl⟩ := hstmt
        rw [act_sql] at h
        cases hc : c.fault with
        | some message =>
            rw [hc] at h
            exact Or.inl h
        | none =>
            rw [hc] at h
            exact Or.inr ⟨owner, rfl, (Phase.read.inj h).symm⟩
      · rcases advance_sql state m (fun owner ho => hstmt ⟨owner, ho⟩)
          (act services c (.sql stmt) w).1 with hkept | hdirty
        · exact Or.inl (hkept.symm.trans h)
        · rw [hdirty] at h
          cases h
  | redisGet key =>
      simp only [advance] at h
      split at h
      · cases h
      · exact Or.inl h
  | redisDel key => cases h
  | newUuid | generateHash | verifyPassword | redisSet | sessionLogin | render => exact Or.inl h

/-- A list is found by getting a text that decodes to it. -/
theorem advance_hit (h : advance state m e (act services c e w).1 = .hit ts) :
    m = .hit ts ∨ ∃ key raw, e = .redisGet key ∧ w.redisValue c.now key = some raw ∧
      state.todosJson.fromStr raw = some ts := by
  cases e with
  | sql stmt =>
      by_cases hstmt : ∃ owner, stmt = .selectTodos owner
      · obtain ⟨owner, rfl⟩ := hstmt
        generalize (act services c (.sql (.selectTodos owner)) w).1 = reply at h
        cases reply with
        | error err => exact Or.inl h
        | ok rows => cases h
      · rcases advance_sql state m (fun owner ho => hstmt ⟨owner, ho⟩)
          (act services c (.sql stmt) w).1 with hkept | hdirty
        · exact Or.inl (hkept.symm.trans h)
        · rw [hdirty] at h
          cases h
  | redisGet key =>
      cases hc : c.fault with
      | some message =>
          simp only [act, hc] at h
          exact Or.inl h
      | none =>
          simp only [act, hc] at h
          cases hraw : w.redisValue c.now key with
          | none =>
              rw [hraw] at h
              exact Or.inl h
          | some raw =>
              simp only [advance, hraw, Cache.decode] at h
              split at h
              · rename_i todos hdecode
                obtain rfl := Phase.hit.inj h
                exact Or.inr ⟨key, raw, rfl, hraw, hdecode⟩
              · exact Or.inl h
  | redisDel key => cases h
  | newUuid | generateHash | verifyPassword | redisSet | sessionLogin | render => exact Or.inl h

/-- A committed write is to be settled. -/
theorem advance_commit {stmt : Statement} {rows : stmt.Rows} (hwrites : stmt.writesTodos = true)
    (hcommits : stmt.commits rows = true) : advance state m (.sql stmt) (.ok rows) = .dirty := by
  cases stmt with
  | insertTodo | updateTodo | toggleTodo | deleteTodo => simp [advance, hwrites, hcommits]
  | selectTodos | selectTodo | insertUser | selectUser | selectUserByEmail | updatePreferences =>
      cases hwrites

end Advance

section Trace
variable {services : Services} {state : AppState} {h : History} {s : ServicePool}
variable {m : UserId × Nat → Phase}

theorem DeletesAt.snoc {x : ServicePool × ServiceEvent} {k : Nat} {i : UserId × Nat}
    (hk : DeletesAt h k i) : DeletesAt (h ++ [x]) k i := by
  obtain ⟨t, c, hk⟩ := hk
  exact ⟨t, c, hk.snoc⟩

/-- A commit of a longer history is an earlier one, or the last event. -/
theorem CommitsAt.of_snoc {e : ServiceEvent} {k : Nat} {i : UserId × Nat}
    (hk : CommitsAt services (h ++ [(s, e)]) k i) :
    CommitsAt services h k i ∨ k = h.length ∧ ∃ c stmt rows, e = .step i c ∧
      s.nextEffect i = some (.sql stmt) ∧ stmt.writesTodos = true ∧
      (act services c (.sql stmt) s.world).1 = .ok rows ∧ stmt.commits rows = true := by
  obtain ⟨t, c, stmt, rows, hperform, hrest⟩ := hk
  rcases hperform.of_snoc with hold | ⟨hlen, hlast, hnext⟩
  · exact Or.inl ⟨t, c, stmt, rows, hold, hrest⟩
  · cases hlast
    exact Or.inr ⟨hlen, c, stmt, rows, rfl, hnext, hrest⟩

theorem ReadBy.snoc {x : ServicePool × ServiceEvent} {i : UserId × Nat} {ts : List Todo}
    (hread : ReadBy h i ts) : ReadBy (h ++ [x]) i ts := by
  obtain ⟨q, t, c, hq, hts⟩ := hread
  exact ⟨q, t, c, hq.snoc, hts⟩

theorem FoundBy.snoc {x : ServicePool × ServiceEvent} {i : UserId × Nat} {ts : List Todo}
    (hfound : FoundBy state h i ts) : FoundBy state (h ++ [x]) i ts := by
  obtain ⟨hpool, g, t, c, raw, hg, hraw⟩ := hfound
  exact ⟨hpool, g, t, c, raw, hg.snoc, hraw⟩

/-- An event that is no step of a request keeps the trace. -/
theorem Traced.snoc {e : ServiceEvent} (hm : Traced services state h m)
    (he : ∀ i c, e ≠ .step i c) : Traced services state (h ++ [(s, e)]) m where
  read i ts hread := (hm.read i ts hread).snoc
  hit i ts hhit := (hm.hit i ts hhit).snoc
  deleted hpool i k hk := by
    rcases hk.of_snoc with hold | ⟨_, c, _, _, hc, _⟩
    · rcases hm.deleted hpool i k hold with hdirty | ⟨d, hkd, hd⟩
      · exact Or.inl hdirty
      · exact Or.inr ⟨d, hkd, hd.snoc⟩
    · exact absurd hc (he i c)

theorem Traced.start {i : UserId × Nat} {job : UserRequest} {s₀ : ServicePool}
    (run : Run (service services state).step s₀ h s) (hi : s.task i = .idle)
    (hm : Traced services state h m) :
    Traced services state (h ++ [(s, .start i job)]) (Function.update m i .quiet) := by
  have hsnoc : Traced services state (h ++ [(s, .start i job)]) m := hm.snoc (by simp)
  constructor
  · apply (Function.forall_update_iff m fun j phase => ∀ ts, phase = .read ts → ReadBy _ j ts).mpr
    exact ⟨by simp, fun j _ => hsnoc.read j⟩
  · apply (Function.forall_update_iff m fun j phase => ∀ ts, phase = .hit ts →
      FoundBy state _ j ts).mpr
    exact ⟨by simp, fun j _ => hsnoc.hit j⟩
  · intro hpool
    apply (Function.forall_update_iff m fun j phase => ∀ k, CommitsAt services _ k j →
      phase = .dirty ∨ ∃ d, k < d ∧ DeletesAt _ d j).mpr
    refine ⟨fun k hk => ?_, fun j _ => hsnoc.deleted hpool j⟩
    rcases hk.of_snoc with hold | ⟨_, c, _, _, hc, _⟩
    · obtain ⟨t, c, stmt, rows, hperform, _⟩ := hold
      exact absurd hperform.1 (System.not_step_of_idle run hi)
    · cases hc

/-- The step lemma: an effect the protocol permits keeps the trace. -/
theorem Traced.step {i : UserId × Nat} {c : Choice} {e : Effect}
    (hm : Traced services state h m) (hnext : s.nextEffect i = some e)
    (hallows : Permits state i.1 (m i) e) :
    Traced services state (h ++ [(s, .step i c)])
      (Function.update m i (advance state (m i) e (act services c e s.world).1)) := by
  have hlast : System.PerformedAt (h ++ [(s, .step i c)]) h.length i e s c :=
    ⟨List.getElem?_concat_length, hnext⟩
  constructor
  · apply (Function.forall_update_iff m fun j phase => ∀ ts, phase = .read ts → ReadBy _ j ts).mpr
    refine ⟨fun ts hread => ?_, fun j _ ts hj => (hm.read j ts hj).snoc⟩
    rcases advance_read hread with hi | ⟨owner, rfl, hts⟩
    · exact (hm.read i ts hi).snoc
    · obtain rfl : owner = i.1.uuid := Option.some.inj hallows.own
      exact ⟨h.length, s, c, hlast, hts⟩
  · apply (Function.forall_update_iff m fun j phase => ∀ ts, phase = .hit ts →
      FoundBy state _ j ts).mpr
    refine ⟨fun ts hhit => ?_, fun j _ ts hj => (hm.hit j ts hj).snoc⟩
    rcases advance_hit hhit with hi | ⟨key, raw, rfl, hraw⟩
    · exact (hm.hit i ts hi).snoc
    · obtain rfl : key = todosCacheKey i.1 := hallows.own
      exact ⟨hallows.enabled _ rfl, h.length, s, c, raw, hlast, hraw⟩
  · intro hpool
    apply (Function.forall_update_iff m fun j phase => ∀ k, CommitsAt services _ k j →
      phase = .dirty ∨ ∃ d, k < d ∧ DeletesAt _ d j).mpr
    refine ⟨fun k hk => ?_, fun j hji k hk => ?_⟩
    · rcases hk.of_snoc with hold | ⟨_, c', stmt, rows, hc, hnext', hwrites, hrows, hcommits⟩
      · rcases hm.deleted hpool i k hold with hdirty | ⟨d, hkd, hd⟩
        · -- the write is settled by this very step
          have hdel : e = .redisDel (todosCacheKey i.1) := hallows.settled hpool hdirty
          obtain ⟨_, _, _, _, hperform, _⟩ := hold
          exact Or.inr ⟨h.length, hperform.lt_length, s, c, hdel ▸ hlast⟩
        · exact Or.inr ⟨d, hkd, hd.snoc⟩
      · cases hc
        obtain rfl : e = .sql stmt := Option.some.inj (hnext.symm.trans hnext')
        rw [hrows]
        exact Or.inl (advance_commit hwrites hcommits)
    · rcases hk.of_snoc with hold | ⟨_, c', _, _, hc, _⟩
      · rcases hm.deleted hpool j k hold with hdirty | ⟨d, hkd, hd⟩
        · exact Or.inl hdirty
        · exact Or.inr ⟨d, hkd, hd.snoc⟩
      · cases hc
        exact absurd rfl hji

end Trace

section Runs
variable {services : Services} {state : AppState} {s₀ s : ServicePool} {h : History}

/-- The run lemma: in every state reached the phases trace the history, and what is
left of each request follows the protocol. -/
theorem run_traced (run : Run (service services state).step s₀ h s)
    (hidle : ∀ i, s₀.task i = .idle) :
    ∃ m, Traced services state h m ∧ ∀ i p, s.task i = .running p →
      Prog.Obeys (protocol state i.1) (Settled state) (m i) p := by
  apply System.monitored (fun _ _ => True) (fun h _ m => Traced services state h m)
    (fun _ => .quiet) (service_protocol services state) hidle _ _ _ _ _ run fun _ _ => trivial
  · refine ⟨by simp, by simp, fun _ i k hk => ?_⟩
    obtain ⟨_, _, _, _, ⟨hx, _⟩, _⟩ := hk
    cases hx
  · intro h s m i job run hm hi
    exact hm.start run hi
  · intro h s m i c e k hm hrun _ hallows
    exact ⟨protocol_answers services c s.world (m i) e,
      hm.step (Pool.nextEffect_eq_some.mpr ⟨k, hrun⟩) hallows⟩
  · intro h s m i hm
    exact hm.snoc (by simp)
  · intro h s m x hm _
    exact hm.snoc (by simp)

/-- An entry that is there after a time without any was stored in between. -/
theorem entry_origin (run : Run (service services state).step s₀ h s) {key : String}
    {entry : RedisEntry} {a b : Nat} (ha : (stateAt h s a).world.redis key = none)
    (hb : (stateAt h s b).world.redis key = some entry) (hab : a ≤ b) (hlen : b ≤ h.length) :
    ∃ p i seconds t c, a ≤ p ∧ p < b ∧
      System.PerformedAt h p i (.redisSet key entry.raw seconds) t c := by
  have hnone : ¬ (stateAt h s a).world.redis key = some entry := by
    rw [ha]
    simp
  obtain ⟨p, ⟨t, e⟩, hap, hpb, hp, hbefore, hafter⟩ :=
    Run.appears (P := fun s : ServicePool => s.world.redis key = some entry) hnone hb hab hlen
  have hstep := (run.split hp).2
  cases e with
  | start i job =>
      rw [(System.step_start.mp hstep).2] at hafter
      exact absurd hafter hbefore
  | cancel i =>
      rw [(System.step_cancel.mp hstep).2] at hafter
      exact absurd hafter hbefore
  | env dropped =>
      rw [System.step_env.mp hstep] at hafter
      have hdrop : (t.world.setRedis dropped none).redis key = some entry := hafter
      rw [World.setRedis_redis] at hdrop
      split at hdrop
      · cases hdrop
      · exact absurd hdrop hbefore
  | step i c =>
      obtain ⟨e, k, hrun, hs⟩ := System.step_step.mp hstep
      rw [hs] at hafter
      obtain ⟨seconds, rfl, _⟩ := act_redis_appears hbefore hafter
      exact ⟨p, i, seconds, t, c, hap, hpb, hp, Pool.nextEffect_eq_some.mpr ⟨k, hrun⟩⟩

/-- What a request stores it has selected before. -/
theorem stored_origin (run : Run (service services state).step s₀ h s)
    (hidle : ∀ i, s₀.task i = .idle) {p : Nat} {i : UserId × Nat} {key raw : String}
    {seconds : Nat} {t : ServicePool} {c : Choice}
    (hp : System.PerformedAt h p i (.redisSet key raw seconds) t c) :
    key = todosCacheKey i.1 ∧ ∃ q t' c', q < p ∧
      System.PerformedAt h q i (.sql (.selectTodos i.1.uuid)) t' c' ∧
      state.todosJson.toString (listForUser t'.world.db i.1) = some raw := by
  obtain ⟨m, hm, hobeys⟩ := run_traced (run.split hp.1).1 hidle
  obtain ⟨k, hrun⟩ := Pool.nextEffect_eq_some.mp hp.2
  have hallows := (hobeys i _ hrun).1
  obtain ⟨todos, hread, hraw⟩ := hallows.fresh key raw seconds rfl
  obtain ⟨q, t', c', hq, rfl⟩ := hm.read i todos hread
  obtain ⟨hqp, hselect⟩ := System.performedAt_take.mp hq
  exact ⟨hallows.own, q, t', c', hqp, hselect, hraw⟩

/-- A write that was answered had committed. -/
theorem commit_lt_answered (run : Run (service services state).step s₀ h s) {k c : Nat}
    {i : UserId × Nat} {x : ServicePool × ServiceEvent} {answer : Except String Response}
    (hk : h[k]? = some x) (hanswer : x.1.result i = some answer)
    (hcommit : CommitsAt services h c i) : c < k := by
  obtain ⟨_, _, _, _, ⟨hc, _⟩, _⟩ := hcommit
  have hdone := Pool.result_eq_some.mp hanswer
  rw [← stateAt_of_getElem? (s := s) hk] at hdone
  exact System.step_lt_done run hdone hc

/-- With the cache on, it had also deleted the entry since the commit. -/
theorem answered_deletes (run : Run (service services state).step s₀ h s)
    (hidle : ∀ i, s₀.task i = .idle) (hpool : state.cache.pool = true) {k c : Nat}
    {i : UserId × Nat} {x : ServicePool × ServiceEvent} {answer : Except String Response}
    (hk : h[k]? = some x) (hanswer : x.1.result i = some answer)
    (hcommit : CommitsAt services h c i) : ∃ d, c < d ∧ d < k ∧ DeletesAt h d i := by
  obtain ⟨m, hm, hobeys⟩ := run_traced (run.split hk).1 hidle
  have hck := commit_lt_answered run hk hanswer hcommit
  obtain ⟨t, ch, stmt, rows, hperform, hrest⟩ := hcommit
  have hcommit' : CommitsAt services (h.take k) c i :=
    ⟨t, ch, stmt, rows, System.performedAt_take.mpr ⟨hck, hperform⟩, hrest⟩
  rcases hm.deleted hpool i c hcommit' with hdirty | ⟨d, hcd, t', c', hd⟩
  · have hclean := (hobeys i _ (Pool.result_eq_some.mp hanswer)).1
    exact absurd hdirty (hclean hpool)
  · obtain ⟨hdk, hdelete⟩ := System.performedAt_take.mp hd
    exact ⟨d, hcd, hdk, t', c', hdelete⟩

/-- After a delete that does not fail there is no entry. -/
theorem deleted_gone (run : Run (service services state).step s₀ h s)
    (hfault : ∀ x ∈ h, NoFault x.2) {d : Nat} {i : UserId × Nat} (hd : DeletesAt h d i) :
    (stateAt h s (d + 1)).world.redis (todosCacheKey i.1) = none := by
  obtain ⟨t, c, hdelete⟩ := hd
  have hnofault : c.fault = none := hfault _ (List.mem_of_getElem? hdelete.1)
  rw [hdelete.world run]
  simp [service, act, command, hnofault, World.setRedis_redis]

/-- In runs without a stale back-fill, a list shown by a request that started after
a write of its user was answered is the list of the database at some time after
the commit. -/
theorem read_your_writes (services : Services) (state : AppState) (u : UserId)
    (run : Run (service services state).step s₀ h s) (hidle : ∀ i, s₀.task i = .idle)
    (hfault : ∀ x ∈ h, NoFault x.2) (hbackfill : NoStaleBackfill services u h)
    {w l c k : Nat} {t : ServicePool} {job : UserRequest} {answer : Except String Response}
    {response : Response} {ts : List Todo} (hcommit : CommitsAt services h c (u, w))
    (hstart : h[k]? = some (t, .start (u, l) job)) (hanswer : t.result (u, w) = some answer)
    (hresult : s.result (u, l) = some (.ok response)) (hlisted : listed response = some ts) :
    ∃ n, c < n ∧ n ≤ h.length ∧ ts = listForUser (stateAt h s n).world.db u := by
  obtain ⟨m, hm, hobeys⟩ := run_traced run hidle
  have hshown := (hobeys (u, l) _ (Pool.result_eq_some.mp hresult)).2 response ts rfl hlisted
  have hck : c < k := commit_lt_answered run hstart hanswer hcommit
  have hat : ∀ {q i t' c'}, System.PerformedAt h q i (.sql (.selectTodos u.uuid)) t' c' → c < q →
      ∃ n, c < n ∧ n ≤ h.length ∧
        listForUser t'.world.db u = listForUser (stateAt h s n).world.db u := by
    intro q i t' c' hq hcq
    refine ⟨q, hcq, hq.lt_length.le, ?_⟩
    rw [stateAt_of_getElem? hq.1]
  rcases hshown with hhit | hread
  · obtain ⟨hpool, g, t', c', raw, hg, hraw, hdecode⟩ := hm.hit (u, l) ts hhit
    have hkg : k < g := System.start_lt_step run hstart hg.1
    have hglen : g < h.length := hg.lt_length
    obtain ⟨d, hcd, hdk, hdelete⟩ := answered_deletes run hidle hpool hstart hanswer hcommit
    obtain ⟨entry, hentry, rfl, _⟩ := World.redisValue_eq_some hraw
    -- what is found at `g` was stored after the delete, from a list selected before
    have hthere : (stateAt h s g).world.redis (todosCacheKey u) = some entry := by
      rw [stateAt_of_getElem? hg.1]
      exact hentry
    obtain ⟨p, ⟨v, r⟩, seconds, t₁, c₁, hdp, hpg, hstore⟩ :=
      entry_origin run (deleted_gone run hfault hdelete) hthere (by omega) (by omega)
    obtain ⟨hkey, q, t₂, c₂, hqp, hselect, hstored⟩ := stored_origin run hidle hstore
    obtain rfl : u = v := todosCacheKey_injective hkey
    have hcq : c < q := by
      rcases Nat.lt_trichotomy c q with hlt | rfl | hgt
      · exact hlt
      · obtain ⟨_, _, stmt, _, ⟨hc, hnext⟩, hwrites, _⟩ := hcommit
        cases hc.symm.trans hselect.1
        cases hnext.symm.trans hselect.2
        cases hwrites
      · exact absurd hdp (by
          have := hbackfill r w q c d p ⟨t₂, c₂, hselect⟩ hcommit hdelete
            ⟨_, _, t₁, c₁, hstore⟩ hgt hcd
          omega)
    have hts : listForUser t₂.world.db u = ts := by
      have hback := state.todosJson.fromStr_toString hstored
      rw [hdecode] at hback
      exact (Option.some.inj hback).symm
    rw [← hts]
    exact hat hselect hcq
  · obtain ⟨q, t', c', hq, rfl⟩ := hm.read (u, l) ts hread
    have hkq : k < q := System.start_lt_step run hstart hq.1
    exact hat hq (by omega)

end Runs

/-- The pool of the concrete runs, before any request. -/
def idlePool : ServicePool := ⟨World.plain, fun _ => .idle⟩

def ann : UserId := ⟨annRow.id⟩

/-- A request of Ann. -/
def annRequests (route : Route) (h : isUserRoute route = true := by rfl) : UserRequest :=
  ⟨annRow.passwordHash, ⟨[], .plain, route⟩, h⟩

/-- The next `n` steps of Ann's request `i`. -/
def steps (i n : Nat) : List ServiceEvent := List.replicate n (.step (ann, i) (.plain 0 ⟨7⟩))

/-- Request 0 selects the empty list; request 1 creates a todo, deletes the entry
and is answered; request 0 stores the empty list; request 2 finds it. -/
def staleBackfill : List ServiceEvent :=
  .start (ann, 0) (annRequests .list) :: steps 0 3 ++
  .start (ann, 1) (annRequests (.create ⟨"milk"⟩)) :: steps 1 5 ++ steps 0 1 ++
  .start (ann, 2) (annRequests .list) :: steps 2 3

theorem stale_list_after_write :
    ¬ ∀ (services : Services) (state : AppState) (u : UserId) (s₀ s : ServicePool) (h : History),
      Run (service services state).step s₀ h s → (∀ i, s₀.task i = .idle) →
      (∀ x ∈ h, NoFault x.2) → ∀ (w l c k : Nat) (t : ServicePool) (job : UserRequest)
        (answer : Except String Response) (response : Response) (ts : List Todo),
        CommitsAt services h c (u, w) → h[k]? = some (t, .start (u, l) job) →
        t.result (u, w) = some answer → s.result (u, l) = some (.ok response) →
        listed response = some ts →
        ∃ n, c < n ∧ n ≤ h.length ∧ ts = listForUser (stateAt h s n).world.db u := by
  intro hall
  have run : Run (service .plain .plain).step idlePool _ _ := Run.of_record staleBackfill rfl
  obtain ⟨n, hn, hlen, hts⟩ := hall .plain .plain ann _ _ _ run (fun _ => rfl)
    (by decide +kernel) 1 2 7 11 _ _ _ _ [] ⟨_, _, _, _, ⟨rfl, rfl⟩, rfl, rfl, rfl⟩ rfl rfl rfl rfl
  have hlen' : n ≤ 15 := hlen
  interval_cases n
  all_goals exact absurd hts (by decide +kernel)

/-- Ann's only todo. -/
def milkRow : TodoRow := ⟨⟨5⟩, annRow.id, "milk", false, 0, 0⟩

def oneTodoPool : ServicePool :=
  ⟨{ World.plain with db := { World.plain.db with todos := [milkRow] } }, fun _ => .idle⟩

/-- Request 0 deletes the todo and is answered; then request 1 lists and stores. -/
def deleteThenList : List ServiceEvent :=
  .start (ann, 0) (annRequests (.delete ⟨5⟩)) :: steps 0 3 ++
  .start (ann, 1) (annRequests .list) :: steps 1 5

theorem noStaleBackfill_of_order (services : Services) (u : UserId) {h : History}
    (horder : ∀ q < h.length, ∀ d < h.length,
      h[q]?.bind System.performed = some (Effect.sql (.selectTodos u.uuid)) →
      h[d]?.bind System.performed = some (Effect.redisDel (todosCacheKey u)) → d < q) :
    NoStaleBackfill services u h := by
  rintro l w q c d p ⟨t, ch, hq⟩ _ ⟨t', ch', hd⟩ _ hqc hcd
  have hdq := horder q hq.lt_length d hd.lt_length
    hq.performed hd.performed
  omega

theorem read_your_writes_delete : ∃ h s response ts,
    Run.record (service .plain .plain).step oneTodoPool deleteThenList = some (h, s) ∧
    s.result (ann, 1) = some (.ok response) ∧ listed response = some ts ∧
    ∃ n, 2 < n ∧ n ≤ h.length ∧ ts = listForUser (stateAt h s n).world.db ann := by
  have run : Run (service .plain .plain).step oneTodoPool _ _ := Run.of_record deleteThenList rfl
  exact ⟨_, _, _, _, rfl, rfl, rfl, read_your_writes .plain .plain ann run (fun _ => rfl)
    (by decide +kernel) (noStaleBackfill_of_order .plain ann (by decide +kernel))
    (k := 4) ⟨_, _, _, _, ⟨rfl, rfl⟩, rfl, rfl, rfl⟩ rfl rfl rfl rfl⟩

end TodoRust.Requests
