import TodoRust.Requests.Service

/-!
# The service while Redis fails

A cache command may fail before or after it took effect, and what is stored may
vanish or turn into something that is no list. A request fails only where a step
outside Redis has failed, and every list is stored for a minute.
-/

namespace TodoRust.Requests
open Lib Domain Storage App

/-- What happens besides the program: an entry vanishes, a text that is no list is
found under a key, or somebody else writes to the tables. -/
inductive Mishap (state : AppState)
  | drop (key : String)
  | garble (key : String) (entry : RedisEntry)
      (undecodable : state.todosJson.fromStr entry.raw = none)
  | tables (db : Database)

/-- What is run: requests of logged-in users, and calls of `list_todos_cached`. -/
inductive Job
  | request (job : UserRequest)
  | listTodosCached

abbrev Outcome := Except String Response ⊕ Except StorageError (List Todo)

/-- The service with all its failures. -/
def faultyService (services : Services) (state : AppState) :
    System (UserId × Nat) Job Choice (Mishap state) Effect Effect.Reply Outcome World where
  prog i
    | .request job => do return .inl (← (service services state).prog i job)
    | .listTodosCached => do return .inr (← (state.listTodosCached i.1).run)
  act := act services
  env
    | .drop key, w => w.setRedis key none
    | .garble key entry _, w => w.setRedis key (some entry)
    | .tables db, w => { w with db }

abbrev FaultyPool := Pool (UserId × Nat) Effect Effect.Reply Outcome World

abbrev FaultyHistory (state : AppState) :=
  List (FaultyPool × Event (UserId × Nat) Job Choice (Mishap state))

/-! ### Whose failure it is -/

/-- A step outside Redis has failed. -/
def failedOutsideRedis (e : Effect) (reply : e.Reply) : Bool :=
  match e, reply with
  | .sql _, .error _ | .generateHash _, .error _ | .verifyPassword .., .error _
  | .sessionLogin _, .error _ | .render .., .error _ => true
  | _, _ => false

/-- Remembers such a failure, and lets lists be stored for 60 seconds only. -/
def blame : Monitor Effect Effect.Reply Bool where
  allows _ e := ∀ key raw seconds, e = .redisSet key raw seconds → seconds = 60
  answers _ _ _ := True
  next failed e reply := failed || failedOutsideRedis e reply

/-- A call that fails is to blame on a failed step. -/
def ErrorBlame {α : Type} (done : Except StorageError α) (failed : Bool) : Prop :=
  ∀ e, done = .error e → failed = true

/-- The request is answered by a 5xx or not at all. -/
def RequestFails : Except String Response → Prop
  | .ok response => 500 ≤ response.status
  | .error _ => True

/-- A failing handler is to blame on a failed step. -/
def HandlerBlame (done : Except Halt Response) (failed : Bool) : Prop :=
  RequestFails (Handler.finish done) → failed = true

/-- A call whose error would be answered by a 5xx is to blame on a failed step. -/
def CallBlame {α : Type} (done : Except StorageError α) (failed : Bool) : Prop :=
  ∀ e, done = .error e → 500 ≤ (AppError.fromStorage e).status → failed = true

section Blame
variable {state : AppState} {failed : Bool}

-- its rule says what it does
attribute [local irreducible] updateLocale localeCookie

theorem blame_allows {e : Effect} (h : ∀ key raw seconds, e ≠ .redisSet key raw seconds) :
    blame.allows failed e :=
  fun key raw seconds he => absurd he (h key raw seconds)

theorem handlerBlame_of_lt {response : Response} (h : response.status < 500) :
    HandlerBlame (.ok response) failed :=
  fun hfails => absurd hfails (Nat.not_le.mpr h)

theorem handlerBlame_error {e : AppError} (h : e.status < 500) :
    HandlerBlame (.error (.error e)) failed :=
  fun hfails => absurd hfails (Nat.not_le.mpr h)

theorem handlerBlame_call {e : StorageError} {α : Type}
    (h : CallBlame (.error e : Except StorageError α) failed) :
    HandlerBlame (.error (.error (AppError.fromStorage e))) failed :=
  fun hfails => h e rfl hfails

/-- One statement whose rows are read as an error only if they are none. -/
theorem statement_blame {α : Type} {stmt : Statement}
    {read : Except SqlxError stmt.Rows → Except StorageError α}
    (hread : ∀ rows e, read (.ok rows) = .error e → e = .notFound) :
    Prog.Obeys blame CallBlame failed (.op (.sql stmt) fun r => .ret (read r)) := by
  refine ⟨blame_allows (by simp), fun r _ e he hstatus => ?_⟩
  cases r with
  | error err => exact Bool.or_true failed
  | ok rows =>
      rw [hread rows e he] at hstatus
      exact absurd hstatus (by decide)

theorem errorBlame_ok {α : Type} {a : α} : ErrorBlame (.ok a) failed := by
  intro e he
  cases he

theorem handlerBlame_of_errorBlame {e : StorageError} {α : Type}
    (h : ErrorBlame (.error e : Except StorageError α) failed) :
    HandlerBlame (.error (.error (AppError.fromStorage e))) failed :=
  fun _ => h e rfl

theorem listForUser_blame (userId : UserId) :
    Prog.Obeys blame ErrorBlame failed (TodoRepository.listForUser userId).run := by
  rw [TodoRepository.listForUser_program]
  refine ⟨blame_allows (by simp), fun r _ => ?_⟩
  cases r with
  | error err => exact fun _ _ => Bool.or_true failed
  | ok rows => exact errorBlame_ok

/-- No failure of Redis comes through, and the entry is stored for 60 seconds. -/
theorem listTodosCached_blame (userId : UserId) :
    Prog.Obeys blame ErrorBlame failed (state.listTodosCached userId).run := by
  rw [AppState.listTodosCached_program]
  cases state.cache.pool with
  | false => exact listForUser_blame userId
  | true =>
      refine ⟨blame_allows (by simp), fun reply _ => ?_⟩
      dsimp only
      cases Cache.decode state.todosJson reply with
      | some todos => exact errorBlame_ok
      | none =>
          refine ⟨blame_allows (by simp), fun r _ => ?_⟩
          cases r with
          | error err => exact fun _ _ => Bool.or_true _
          | ok rows =>
              dsimp only
              unfold AppState.backfill
              cases state.todosJson.toString (rows.map rowToTodo) with
              | none => exact errorBlame_ok
              | some raw =>
                  refine ⟨?_, fun _ _ => errorBlame_ok⟩
                  intro key raw' seconds he
                  cases he
                  rfl

theorem invalidate_blame (userId : UserId) :
    Prog.Obeys blame (fun _ _ => True) failed (state.invalidateTodosCache userId) := by
  rw [AppState.invalidateTodosCache_program]
  cases state.cache.pool with
  | false => trivial
  | true => exact ⟨blame_allows (by simp), fun _ _ => trivial⟩

theorem create_blame (userId : UserId) (new : NewTodo) :
    Prog.Obeys blame CallBlame failed (TodoRepository.create userId new).run := by
  rw [TodoRepository.create_program]
  refine ⟨blame_allows (by simp), fun id _ => ?_⟩
  apply statement_blame
  intro rows e he
  cases he

theorem toggle_blame (userId : UserId) (id : TodoId) :
    Prog.Obeys blame CallBlame failed (TodoRepository.toggle userId id).run := by
  rw [TodoRepository.toggle_program]
  apply statement_blame
  intro row e he
  cases row with
  | none => exact (Except.error.inj he).symm
  | some row => cases he

theorem delete_blame (userId : UserId) (id : TodoId) :
    Prog.Obeys blame CallBlame failed (TodoRepository.delete userId id).run := by
  rw [TodoRepository.delete_program]
  apply statement_blame
  intro rowsAffected e he
  cases rowsAffected with
  | zero => exact (Except.error.inj he).symm
  | succ n => cases he

theorem updatePreferences_blame (id : UserId) (locale timezone : Option String) :
    Prog.Obeys blame CallBlame failed
      (UserRepository.updatePreferences id locale timezone).run := by
  rw [UserRepository.updatePreferences_program]
  apply statement_blame
  intro rows e he
  cases he

theorem renderPage_blame {status : Rust.StatusCode} {headers : Rust.HeaderMap}
    {template : String} {context : Context} (h : status < 500) :
    Prog.Obeys blame HandlerBlame failed (renderPage status headers template context).run := by
  rw [renderPage_program]
  refine ⟨blame_allows (by simp), fun r _ => ?_⟩
  cases r with
  | ok u => exact handlerBlame_of_lt h
  | error message => exact fun _ => Bool.or_true failed

/-! ### The handlers -/

theorem index_blame (auth : AuthSession) (context : RequestContext) :
    Prog.Obeys blame HandlerBlame failed (index state auth context).run := by
  apply obeys_index
  · exact fun _ => handlerBlame_of_lt (show Rust.StatusCode.seeOther < 500 by decide)
  · exact fun user _ => listTodosCached_blame user.id
  · exact fun _ _ _ _ _ => renderPage_blame (by decide)
  · exact fun _ _ => handlerBlame_of_errorBlame

theorem list_blame (auth : AuthSession) (context : RequestContext) :
    Prog.Obeys blame HandlerBlame failed (list state auth context).run := by
  apply obeys_list
  · exact fun _ => handlerBlame_error (by decide)
  · exact fun user _ => listTodosCached_blame user.id
  · exact fun _ _ _ _ _ => renderPage_blame (by decide)
  · exact fun _ _ => handlerBlame_of_errorBlame

theorem createHandler_blame (auth : AuthSession) (context : RequestContext) (new : NewTodo) :
    Prog.Obeys blame HandlerBlame failed (create state auth context new).run := by
  apply obeys_create
  · exact fun _ => handlerBlame_error (by decide)
  · exact fun _ => handlerBlame_error (show Rust.StatusCode.unprocessableEntity < 500 by decide)
  · exact fun user _ => create_blame user.id new
  · exact fun user _ _ _ _ => invalidate_blame user.id
  · exact fun _ _ _ _ _ => renderPage_blame (by decide)
  · exact fun _ _ => handlerBlame_call

theorem toggleHandler_blame (auth : AuthSession) (context : RequestContext) (id : Uuid) :
    Prog.Obeys blame HandlerBlame failed (toggle state auth context id).run := by
  apply obeys_toggle
  · exact fun _ => handlerBlame_error (by decide)
  · exact fun user _ => toggle_blame user.id ⟨id⟩
  · exact fun user _ _ _ _ => invalidate_blame user.id
  · exact fun _ _ _ _ _ => renderPage_blame (by decide)
  · exact fun _ _ => handlerBlame_call

theorem deleteHandler_blame (auth : AuthSession) (id : Uuid) :
    Prog.Obeys blame HandlerBlame failed (delete state auth id).run := by
  apply obeys_delete
  · exact fun _ => handlerBlame_error (by decide)
  · exact fun user _ => delete_blame user.id ⟨id⟩
  · exact fun user _ _ _ => invalidate_blame user.id
  · exact fun _ _ => handlerBlame_of_lt (show Rust.StatusCode.ok < 500 by decide)
  · exact fun _ _ => handlerBlame_call

theorem localeResponse_blame (headers : Rust.HeaderMap) {candidate : String}
    (h : I18n.supported.contains candidate = true) :
    Prog.Obeys blame HandlerBlame failed (do
      let cookie ← Handler.expect "valid cookie" (localeCookie state candidate)
      return localeResponse headers cookie : Handler Response).run := by
  obtain ⟨cookie, hcookie⟩ := Option.isSome_iff_exists.mp (localeCookie_isSome h)
  rw [hcookie]
  apply handlerBlame_of_lt
  unfold localeResponse
  dsimp only
  split
  · exact (show Rust.StatusCode.noContent < 500 by decide)
  · exact (show Rust.StatusCode.seeOther < 500 by decide)

theorem updateLocale_blame (auth : AuthSession) (headers : Rust.HeaderMap) (locale : String) :
    Prog.Obeys blame HandlerBlame failed (updateLocale state auth headers locale).run := by
  refine obeys_updateLocale ?_ (fun _ => trivial)
    (fun user candidate _ => updatePreferences_blame user.id (some candidate) none)
    (fun _ _ => trivial) ?_ fun _ _ => handlerBlame_call
  · exact fun _ => handlerBlame_error (show Rust.StatusCode.unprocessableEntity < 500 by decide)
  · exact fun candidate _ hknown _ => localeResponse_blame headers hknown

/-- A request that fails is to blame on a failed step. -/
theorem service_blame (services : Services) (state : AppState) (i : UserId × Nat)
    (job : UserRequest) :
    Prog.Obeys blame (fun done failed => RequestFails done → failed = true) false
      ((service services state).prog i job) := by
  obtain ⟨authHash, ⟨headers, context, route⟩, hroute⟩ := job
  have hsession : Prog.Obeys blame ErrorBlame false
      (AuthSession.fromSession (some ⟨i.1.uuid, authHash⟩)).run := by
    rw [AuthSession.fromSession, ExceptT.run_bind, UserRepository.findById_program]
    refine ⟨blame_allows (by simp), fun r _ => ?_⟩
    cases r with
    | error err => exact fun _ _ => rfl
    | ok row => exact errorBlame_ok
  apply hsession.bind
  intro auth failed hauth
  cases auth with
  | error e => exact fun _ => hauth e rfl
  | ok auth =>
      have hhandle : Prog.Obeys blame HandlerBlame failed
          (handle state auth ⟨headers, context, route⟩).run := by
        cases route with
        | index => exact index_blame auth context
        | list => exact list_blame auth context
        | create new => exact createHandler_blame auth context new
        | toggle id => exact toggleHandler_blame auth context id
        | delete id => exact deleteHandler_blame auth id
        | updateLocale locale => exact updateLocale_blame auth headers locale
        | login | signup => cases hroute
      exact hhandle.bind fun done m hblame => hblame

end Blame

/-- A request or a call fails. -/
def OutcomeFails : Outcome → Prop
  | .inl done => RequestFails done
  | .inr done => ∃ e, done = .error e

theorem faultyService_blame (services : Services) (state : AppState) (i : UserId × Nat)
    (job : Job) :
    Prog.Obeys blame (fun outcome failed => OutcomeFails outcome → failed = true) false
      ((faultyService services state).prog i job) := by
  cases job with
  | request job => exact (service_blame services state i job).bind fun done m hblame => hblame
  | listTodosCached =>
      apply (listTodosCached_blame i.1).bind
      rintro done m hblame ⟨e, he⟩
      exact hblame e he

section Runs
variable {services : Services} {state : AppState} {s₀ s : FaultyPool} {h : FaultyHistory state}

/-- A task has performed a step outside Redis that failed. -/
def HasFailed (services : Services) (h : FaultyHistory state) (i : UserId × Nat) : Prop :=
  ∃ k e t c, System.PerformedAt h k i e t c ∧
    failedOutsideRedis e (act services c e t.world).1 = true

/-- Lists are stored for 60 seconds. -/
def StoresForAMinute (h : FaultyHistory state) : Prop :=
  ∀ k i key raw seconds t c, System.PerformedAt h k i (.redisSet key raw seconds) t c →
    seconds = 60

theorem StoresForAMinute.snoc {x : FaultyPool × Event (UserId × Nat) Job Choice (Mishap state)}
    (hh : StoresForAMinute h)
    (hx : ∀ i key raw seconds t c, x = (t, .step i c) →
      t.nextEffect i = some (.redisSet key raw seconds) → seconds = 60) :
    StoresForAMinute (h ++ [x]) := by
  intro k i key raw seconds t c hk
  rcases hk.of_snoc with hold | ⟨_, hlast, hnext⟩
  · exact hh k i key raw seconds t c hold
  · exact hx i key raw seconds t c hlast hnext

theorem HasFailed.snoc {x : FaultyPool × Event (UserId × Nat) Job Choice (Mishap state)}
    {i : UserId × Nat} (hi : HasFailed services h i) : HasFailed services (h ++ [x]) i := by
  obtain ⟨k, e, t, c, hk, hfailed⟩ := hi
  exact ⟨k, e, t, c, hk.snoc, hfailed⟩

theorem run_blame (run : Run (faultyService services state).step s₀ h s)
    (hidle : ∀ i, s₀.task i = .idle) :
    ∃ m : UserId × Nat → Bool,
      (StoresForAMinute h ∧ ∀ i, m i = true → HasFailed services h i) ∧
      ∀ i p, s.task i = .running p → Prog.Obeys blame
        (fun outcome failed => OutcomeFails outcome → failed = true) (m i) p := by
  apply System.monitored (fun _ _ => True)
    (fun h _ m => StoresForAMinute h ∧ ∀ i, m i = true → HasFailed services h i) (fun _ => false)
    (faultyService_blame services state) hidle _ _ _ _ _ run fun _ _ => trivial
  · refine ⟨fun k i key raw seconds t c hk => ?_, by simp⟩
    cases hk.1
  · intro h s m i job _ hm _
    refine ⟨hm.1.snoc (by simp), ?_⟩
    apply (Function.forall_update_iff m fun j failed => failed = true → HasFailed services _ j).mpr
    exact ⟨by simp, fun j _ hj => (hm.2 j hj).snoc⟩
  · intro h s m i c e k hm hrun _ hallows
    have hnext : s.nextEffect i = some e := Pool.nextEffect_eq_some.mpr ⟨k, hrun⟩
    refine ⟨trivial, hm.1.snoc ?_, ?_⟩
    · intro j key raw seconds t c' hlast hnext'
      cases hlast
      exact hallows key raw seconds (Option.some.inj (hnext.symm.trans hnext'))
    · apply (Function.forall_update_iff m fun j failed => failed = true →
        HasFailed services _ j).mpr
      refine ⟨fun hfailed => ?_, fun j _ hj => (hm.2 j hj).snoc⟩
      rcases Bool.or_eq_true_iff.mp hfailed with hold | hnew
      · exact (hm.2 i hold).snoc
      · exact ⟨h.length, e, s, c, ⟨List.getElem?_concat_length, hnext⟩, hnew⟩
  · intro h s m i hm
    exact ⟨hm.1.snoc (by simp), fun j hj => (hm.2 j hj).snoc⟩
  · intro h s m x hm _
    exact ⟨hm.1.snoc (by simp), fun j hj => (hm.2 j hj).snoc⟩

/-- In every run lists are stored for 60 seconds, and what fails is to blame on a
failed step outside Redis. -/
theorem run_blamed (run : Run (faultyService services state).step s₀ h s)
    (hidle : ∀ i, s₀.task i = .idle) :
    StoresForAMinute h ∧ ∀ i outcome, s.result i = some outcome → OutcomeFails outcome →
      HasFailed services h i := by
  obtain ⟨m, ⟨hstored, hm⟩, hobeys⟩ := run_blame run hidle
  refine ⟨hstored, fun i outcome hresult hfails => hm i ?_⟩
  exact hobeys i _ (Pool.result_eq_some.mp hresult) hfails

end Runs

end TodoRust.Requests
