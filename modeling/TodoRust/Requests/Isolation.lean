import TodoRust.Requests.Service
import TodoRust.Storage.Part

/-!
# Users do not see each other

The part of the world that belongs to one user: its account row, its todos, its
cache entry and its requests. An effect on behalf of the user works on that part
alone, one on behalf of another user leaves it alone, and the requests of each
user perform no other effects.
-/

namespace TodoRust.Requests
open Lib Domain Storage App

/-- The part of the world that belongs to one user. -/
def part (u : UserId) (w : World) : World where
  db := w.db.part u.uuid
  redis key := if key = todosCacheKey u then w.redis key else none

section Act
variable {services : Services} {c : Choice} {w : World} {u v : UserId}

theorem redisValue_part {now : OffsetDateTime} :
    (part u w).redisValue now (todosCacheKey u) = w.redisValue now (todosCacheKey u) := by
  simp [World.redisValue, part]

theorem setRedis_part {entry : Option RedisEntry} :
    (part u w).setRedis (todosCacheKey u) entry = part u (w.setRedis (todosCacheKey u) entry) := by
  simp only [part, World.setRedis, World.mk.injEq, true_and]
  ext key
  by_cases hkey : key = todosCacheKey u
  · simp [hkey]
  · simp [hkey]

theorem setRedis_other {key : String} {entry : Option RedisEntry} (h : key ≠ todosCacheKey u) :
    part u (w.setRedis key entry) = part u w := by
  simp only [part, World.setRedis, World.mk.injEq, true_and]
  funext key'
  split
  · rename_i hkey
    rw [hkey, Function.update_of_ne h.symm]
  · rfl

theorem command_part {done : World} :
    command c (part u w) (part u done) = ((command c w done).1, part u (command c w done).2) := by
  unfold command
  cases c.fault with
  | none => rfl
  | some message =>
      cases c.tookEffect with
      | false => rfl
      | true => rfl

/-- An effect on behalf of `u` works on `u`'s part alone. -/
theorem act_part {e : Effect} (hown : Own u e)
    (hfresh : ∀ stmt, e = .sql stmt → Database.FreshInsert stmt w.db) :
    act services c e (part u w) =
      ((act services c e w).1, part u (act services c e w).2) := by
  cases e with
  | sql stmt =>
      rw [act_sql, act_sql]
      cases c.fault with
      | some message => rfl
      | none =>
          have hexec : (part u w).db.exec services.pg c.now stmt = _ :=
            Database.exec_part hown (hfresh stmt rfl)
          dsimp only
          rw [hexec]
          rfl
  | redisGet key =>
      obtain rfl : key = todosCacheKey u := hown
      unfold act
      cases c.fault with
      | some message => rfl
      | none =>
          dsimp only
          rw [redisValue_part]
  | redisSet key raw seconds =>
      obtain rfl : key = todosCacheKey u := hown
      simp only [act]
      rw [setRedis_part, command_part]
  | redisDel key =>
      obtain rfl : key = todosCacheKey u := hown
      simp only [act]
      rw [setRedis_part, command_part]
  | newUuid => rfl
  | generateHash | verifyPassword =>
      unfold act
      cases c.fault with
      | some message => rfl
      | none => rfl
  | sessionLogin | render =>
      simp only [act]
      rw [command_part]

/-- An effect on behalf of another user leaves `u`'s part alone. -/
theorem act_other {e : Effect} (hown : Own v e) (hv : v ≠ u) :
    part u (act services c e w).2 = part u w := by
  have hkey : todosCacheKey v ≠ todosCacheKey u := fun h => hv (todosCacheKey_injective h)
  have hcommand : ∀ done : World, part u done = part u w →
      part u (command c w done).2 = part u w := by
    intro done hdone
    unfold command
    cases c.fault with
    | none => exact hdone
    | some message =>
        cases c.tookEffect with
        | false => rfl
        | true => exact hdone
  cases e with
  | sql stmt =>
      rw [act_sql]
      cases c.fault with
      | some message => rfl
      | none =>
          have huuid : v.uuid ≠ u.uuid := fun h => hv (congrArg UserId.mk h)
          have hother : (w.db.exec services.pg c.now stmt).2.part u.uuid = w.db.part u.uuid :=
            Database.exec_other hown huuid
          simp only [part, hother]
  | redisGet key =>
      unfold act
      cases c.fault with
      | some message => rfl
      | none => rfl
  | redisSet key raw seconds =>
      obtain rfl : key = todosCacheKey v := hown
      exact hcommand _ (setRedis_other hkey)
  | redisDel key =>
      obtain rfl : key = todosCacheKey v := hown
      exact hcommand _ (setRedis_other hkey)
  | newUuid => rfl
  | generateHash | verifyPassword =>
      unfold act
      cases c.fault with
      | some message => rfl
      | none => rfl
  | sessionLogin | render => exact hcommand w rfl

end Act

/-- What one user can see of a pool: its part of the world and its requests. -/
def view (u : UserId) (s : ServicePool) :
    World × (Nat → Task Effect Effect.Reply (Except String Response)) :=
  (part u s.world, fun n => s.task (u, n))

/-- The steps that are one user's: those of its requests, and the loss of its
cache entry. -/
def isStepOf (u : UserId) : ServiceEvent → Bool
  | .start i _ | .step i _ | .cancel i => i.1 = u
  | .env key => key = todosCacheKey u

/-- The todo a user is about to insert has an id of its own. -/
def FreshIds (u : UserId) (s : ServicePool)
    (e : ServiceEvent) : Prop :=
  match e with
  | .step i _ =>
      i.1 = u → ∀ stmt ∈ (s.nextEffect i).bind Effect.statement?,
        Database.FreshInsert stmt s.world.db
  | _ => True

instance (u : UserId) (s : ServicePool) (e : ServiceEvent) :
    Decidable (FreshIds u s e) := by
  unfold FreshIds
  split <;> infer_instance

/-- What a step of the service is known to be: on behalf of its own user, and with
a new id if `u` inserts a todo. -/
def WellBehaved (u : UserId) (s : ServicePool)
    (e : ServiceEvent) : Prop :=
  (∀ i e, s.nextEffect i = some e → Own i.1 e) ∧ FreshIds u s e

section Runs
variable {services : Services} {state : AppState} {u : UserId} {s₀ s : ServicePool} {h : History}

/-- Every request performs effects of its own user only. -/
theorem run_own (run : Run (service services state).step s₀ h s)
    (hidle : ∀ i, s₀.task i = .idle) {i : UserId × Nat} {e : Effect}
    (he : s.nextEffect i = some e) : Own i.1 e := by
  obtain ⟨m, hm⟩ := run_protocol run hidle
  obtain ⟨k, hk⟩ := Pool.nextEffect_eq_some.mp he
  exact (hm i _ hk).1.own

/-- A step of another user is not seen. -/
theorem view_silent {s s' : ServicePool} {e : ServiceEvent}
    (he : isStepOf u e = false) (hok : WellBehaved u s e)
    (hs : (service services state).step s e = some s') : view u s' = view u s := by
  have htask : ∀ (s : ServicePool) (i : UserId × Nat) t, i.1 ≠ u →
      ∀ n, (s.setTask i t).task (u, n) = s.task (u, n) := by
    intro s i t hi n
    exact Pool.setTask_of_ne _ _ fun hin => hi (by rw [← hin])
  cases e with
  | env key =>
      have hkey : key ≠ todosCacheKey u := by simpa [isStepOf] using he
      rw [System.step_env.mp hs]
      exact Prod.ext (setRedis_other hkey) rfl
  | start i job =>
      have hi : i.1 ≠ u := by simpa [isStepOf] using he
      obtain ⟨_, rfl⟩ := System.step_start.mp hs
      exact Prod.ext rfl (funext (htask s i _ hi))
  | cancel i =>
      have hi : i.1 ≠ u := by simpa [isStepOf] using he
      obtain ⟨_, rfl⟩ := System.step_cancel.mp hs
      exact Prod.ext rfl (funext (htask s i _ hi))
  | step i c =>
      have hi : i.1 ≠ u := by simpa [isStepOf] using he
      obtain ⟨e, k, hrun, rfl⟩ := System.step_step.mp hs
      have hown' := hok.1 i e (Pool.nextEffect_eq_some.mpr ⟨k, hrun⟩)
      exact Prod.ext (act_other hown' hi) (funext (htask _ i _ hi))

/-- A step of `u` acts on what `u` sees. -/
theorem view_consistent {s t s' t' : ServicePool}
    {e : ServiceEvent}
    (he : isStepOf u e = true) (hs : WellBehaved u s e) (ht : WellBehaved u t e)
    (hview : view u s = view u t)
    (hstep : (service services state).step s e = some s')
    (hstep' : (service services state).step t e = some t') : view u s' = view u t' := by
  have hworld : part u s.world = part u t.world := congrArg Prod.fst hview
  have htask : ∀ n, s.task (u, n) = t.task (u, n) := congrFun (congrArg Prod.snd hview)
  have hset : ∀ (n : Nat) (a b : ServicePool) (x : Task Effect Effect.Reply _),
      part u a.world = part u b.world → (∀ n, a.task (u, n) = b.task (u, n)) →
      view u (a.setTask (u, n) x) = view u (b.setTask (u, n) x) := by
    intro n a b x hw htasks
    refine Prod.ext hw (funext fun k => ?_)
    simp only [view, Pool.setTask, Function.update_apply, htasks]
  cases e with
  | env key =>
      obtain rfl : key = todosCacheKey u := by simpa [isStepOf] using he
      rw [System.step_env.mp hstep, System.step_env.mp hstep']
      refine Prod.ext ?_ (funext htask)
      calc
        part u (s.world.setRedis (todosCacheKey u) none) =
            (part u s.world).setRedis (todosCacheKey u) none := setRedis_part.symm
        _ = part u (t.world.setRedis (todosCacheKey u) none) := by rw [hworld, setRedis_part]
  | start i job =>
      obtain ⟨v, n⟩ := i
      obtain rfl : v = u := by simpa [isStepOf] using he
      obtain ⟨_, rfl⟩ := System.step_start.mp hstep
      obtain ⟨_, rfl⟩ := System.step_start.mp hstep'
      exact hset n s t _ hworld htask
  | cancel i =>
      obtain ⟨v, n⟩ := i
      obtain rfl : v = u := by simpa [isStepOf] using he
      obtain ⟨_, rfl⟩ := System.step_cancel.mp hstep
      obtain ⟨_, rfl⟩ := System.step_cancel.mp hstep'
      exact hset n s t _ hworld htask
  | step i c =>
      obtain ⟨v, n⟩ := i
      obtain rfl : v = u := by simpa [isStepOf] using he
      obtain ⟨e, k, hrun, rfl⟩ := System.step_step.mp hstep
      obtain ⟨e', k', hrun', rfl⟩ := System.step_step.mp hstep'
      obtain ⟨rfl, hk⟩ : e = e' ∧ k ≍ k' := by
        rw [htask, hrun', Task.running.injEq, Prog.op.injEq] at hrun
        exact ⟨hrun.1.symm, hrun.2.symm⟩
      obtain rfl := eq_of_heq hk
      have hnext : s.nextEffect (v, n) = some e := Pool.nextEffect_eq_some.mpr ⟨k, hrun⟩
      have hnext' : t.nextEffect (v, n) = some e := Pool.nextEffect_eq_some.mpr ⟨k, hrun'⟩
      have hown := hs.1 (v, n) e hnext
      have hacts : act services c e (part v s.world) =
          ((act services c e s.world).1, part v (act services c e s.world).2) :=
        act_part hown fun stmt hsql => hs.2 rfl stmt (by rw [hnext, hsql]; rfl)
      have hactt : act services c e (part v t.world) =
          ((act services c e t.world).1, part v (act services c e t.world).2) :=
        act_part hown fun stmt hsql => ht.2 rfl stmt (by rw [hnext', hsql]; rfl)
      rw [hworld, hactt, Prod.mk.injEq] at hacts
      have hreply : ((service services state).act c e s.world).1 =
          ((service services state).act c e t.world).1 := hacts.1.symm
      rw [hreply]
      exact hset n _ _ _ hacts.2.symm htask

/-- What a user sees depends on its own steps alone: two runs of the service that
agree on the user's part at the start and on the user's steps, whatever the
other users do, give the user the same answers, rows and cache entry. -/
theorem isolation (services : Services) (state : AppState) (u : UserId)
    {s₀ t₀ s t : ServicePool} {h g : History}
    (run : Run (service services state).step s₀ h s)
    (run' : Run (service services state).step t₀ g t)
    (hidle : ∀ i, s₀.task i = .idle) (hidle' : ∀ i, t₀.task i = .idle)
    (hfresh : ∀ x ∈ h, FreshIds u x.1 x.2) (hfresh' : ∀ x ∈ g, FreshIds u x.1 x.2)
    (hworld : part u s₀.world = part u t₀.world)
    (hsteps : (Run.events h).filter (isStepOf u) = (Run.events g).filter (isStepOf u)) :
    (∀ n, s.result (u, n) = t.result (u, n)) ∧
    s.world.db.part u.uuid = t.world.db.part u.uuid ∧
    s.world.redis (todosCacheKey u) = t.world.redis (todosCacheKey u) := by
  have hok : ∀ {s₀ s : ServicePool} {h : History}, Run (service services state).step s₀ h s →
      (∀ i, s₀.task i = .idle) → (∀ x ∈ h, FreshIds u x.1 x.2) →
      ∀ x ∈ h, WellBehaved u x.1 x.2 := by
    intro s₀ s h run hidle hfresh x hx
    obtain ⟨k, hk⟩ := List.mem_iff_getElem?.mp hx
    exact ⟨fun i e => run_own (run.split hk).1 hidle, hfresh x hx⟩
  have hview₀ : view u s₀ = view u t₀ :=
    Prod.ext hworld (funext fun n => by simp [view, hidle, hidle'])
  have hview : view u s = view u t := Run.view_eq
    (fun _ _ _ => view_silent) (fun _ _ _ _ _ => view_consistent)
    run (hok run hidle hfresh) run' (hok run' hidle' hfresh') hview₀ hsteps
  have hpart := congrArg Prod.fst hview
  refine ⟨fun n => ?_, congrArg World.db hpart, ?_⟩
  · have htask : s.task (u, n) = t.task (u, n) := congrFun (congrArg Prod.snd hview) n
    simp only [Pool.result, htask]
  · have hredis := congrFun (congrArg World.redis hpart) (todosCacheKey u)
    simpa [view, part] using hredis

end Runs

/-- Ann and Bob have accounts. -/
def twoAccounts : ServicePool where
  world := { World.plain with db := { users := [annRow, bobRow], todos := [] } }
  task _ := .idle

/-- Ann creates a todo under the id 7. -/
def annCreates : UserRequest :=
  ⟨annRow.passwordHash, ⟨[], .plain, .create ⟨"milk"⟩⟩, rfl⟩

/-- Bob deletes the todo with the id 7. -/
def bobDeletes : UserRequest :=
  ⟨bobRow.passwordHash, ⟨[], .plain, .delete ⟨7⟩⟩, rfl⟩

/-- Ann's request alone. -/
def annAlone : List (ServiceEvent) :=
  .start (⟨annRow.id⟩, 0) annCreates ::
    List.replicate 5 (.step (⟨annRow.id⟩, 0) (.plain 0 ⟨7⟩))

/-- Bob's request arrives between Ann's insert and her answer. -/
def annAndBob : List (ServiceEvent) :=
  annAlone.take 4 ++ .start (⟨bobRow.id⟩, 0) bobDeletes ::
    List.replicate 2 (.step (⟨bobRow.id⟩, 0) (.plain 0 ⟨8⟩)) ++ annAlone.drop 4

theorem isolation_foreign_delete : ∃ h s g t,
    Run.record (service .plain .plain).step twoAccounts annAndBob = some (h, s) ∧
    Run.record (service .plain .plain).step twoAccounts annAlone = some (g, t) ∧
    (s.result (⟨annRow.id⟩, 0)).isSome ∧
    s.result (⟨annRow.id⟩, 0) = t.result (⟨annRow.id⟩, 0) ∧
    s.world.db.part annRow.id = t.world.db.part annRow.id := by
  have run : Run (service .plain .plain).step twoAccounts _ _ := Run.of_record annAndBob rfl
  have run' : Run (service .plain .plain).step twoAccounts _ _ := Run.of_record annAlone rfl
  have hsame := isolation .plain .plain ⟨annRow.id⟩ run run' (fun _ => rfl) (fun _ => rfl)
    (by decide +kernel) (by decide +kernel) rfl rfl
  exact ⟨_, _, _, _, rfl, rfl, rfl, hsame.1 0, hsame.2.1⟩

end TodoRust.Requests
