import TodoRust.App.Rules

/-!
# What a failed request leaves behind

No handler opens a transaction, so a step that fails after the statement has
committed cannot take it back. The monitor below remembers whether a statement
has changed the tables; what each handler answers then is read off its program.
-/

namespace TodoRust.Requests
open Lib Domain Storage App Rust

/-- Whether a statement has changed the tables so far. -/
def tables : Monitor Effect Effect.Reply Bool where
  allows _ _ := True
  answers _ _ _ := True
  next changed e reply :=
    match e, reply with
    | .sql stmt, .ok rows => changed || stmt.commits rows
    | _, _ => changed

/-- As long as nothing has changed, the tables are the first ones. -/
theorem tables_sound {services : Services} {db : Database} (c : Choice) (e : Effect)
    (changed : Bool) (w : World) (h : changed = false → w.db = db)
    (hnext : tables.next changed e (act services c e w).1 = false) :
    (act services c e w).2.db = db := by
  cases e with
  | sql stmt =>
      rw [act_sql] at hnext ⊢
      cases hf : c.fault with
      | some message =>
          rw [hf] at hnext
          exact h hnext
      | none =>
          simp only [hf] at hnext ⊢
          cases hr : (w.db.exec services.pg c.now stmt).1 with
          | error e =>
              simp only [tables, hr] at hnext
              rw [Database.exec_unchanged (by simp [hr]), h hnext]
          | ok rows =>
              simp only [tables, hr, Bool.or_eq_false_iff] at hnext
              have hrows : ∀ rows', (w.db.exec services.pg c.now stmt).1 = .ok rows' →
                  stmt.commits rows' = false := by
                intro rows' hr'
                rw [← Except.ok.inj (hr.symm.trans hr')]
                exact hnext.2
              rw [Database.exec_unchanged hrows, h hnext.1]
  | newUuid | generateHash | verifyPassword | redisGet | redisSet | redisDel | sessionLogin
  | render =>
      rw [act_db (by simp)]
      exact h hnext

/-- The answers that a committed statement can precede: a signup whose session
could not be written, and a todo whose row could not be rendered. What the session layer
inserts after the handler is no step of it. -/
def LateFailure : Route → Response → Prop
  | .signup _, response => ∃ e, response =
      (AppError.internal ("post-signup session login failed: " ++ e)).intoResponse
  | .create _, response | .toggle _, response => response = AppError.template.intoResponse
  | _, _ => False

theorem LateFailure.status {route : Route} {response : Response}
    (h : LateFailure route response) : response.status = StatusCode.internalServerError := by
  cases route with
  | signup new =>
      obtain ⟨e, rfl⟩ := h
      rfl
  | create new =>
      rw [show response = _ from h]
      rfl
  | toggle id =>
      rw [show response = _ from h]
      rfl
  | index | list | delete | updateLocale | login => exact h.elim

/-- What a handler's end owes to the tables. -/
def Owes (route : Route) (done : Except Halt Response) (changed : Bool) : Prop :=
  ∀ response, Handler.finish done = .ok response → 400 ≤ response.status →
    changed = false ∨ LateFailure route response

/-- The result of a call that has changed nothing when it fails. -/
def KeptOnError {α : Type} (done : Except StorageError α) (changed : Bool) : Prop :=
  ∀ e, done = .error e → changed = false

section Calls
variable (changed : Bool)

/-- One statement whose reply is read as an error only if nothing was changed. -/
theorem statement_kept {α : Type} {stmt : Statement}
    {read : Except SqlxError stmt.Rows → Except StorageError α}
    (hread : ∀ rows e, read (.ok rows) = .error e → stmt.commits rows = false) :
    Prog.Obeys tables KeptOnError false (.op (.sql stmt) fun r => .ret (read r)) := by
  refine ⟨trivial, fun r _ e he => ?_⟩
  cases r with
  | error _ => rfl
  | ok rows => exact hread rows e he

/-- One statement that changes nothing. -/
theorem statement_reads {α : Type} {stmt : Statement}
    {read : Except SqlxError stmt.Rows → Except StorageError α}
    (hstmt : ∀ rows, stmt.commits rows = false) :
    Prog.Obeys tables (fun _ after => after = changed) changed
      (.op (.sql stmt) fun r => .ret (read r)) := by
  refine ⟨trivial, fun r _ => ?_⟩
  cases r with
  | error _ => rfl
  | ok rows =>
      calc
        (changed || stmt.commits rows) = (changed || false) := by rw [hstmt]
        _ = changed := Bool.or_false changed

theorem create_kept (userId : UserId) (new : NewTodo) :
    Prog.Obeys tables KeptOnError false (TodoRepository.create userId new).run := by
  rw [TodoRepository.create_program]
  refine ⟨trivial, fun id _ => ?_⟩
  apply statement_kept
  intro rows e he
  cases he

theorem toggle_kept (userId : UserId) (id : TodoId) :
    Prog.Obeys tables KeptOnError false (TodoRepository.toggle userId id).run := by
  rw [TodoRepository.toggle_program]
  apply statement_kept
  exact fun _ _ => readFound_ok_error

theorem delete_kept (userId : UserId) (id : TodoId) :
    Prog.Obeys tables KeptOnError false (TodoRepository.delete userId id).run := by
  rw [TodoRepository.delete_program]
  apply statement_kept
  exact fun _ _ => readDeleted_ok_error

theorem updatePreferences_kept (id : UserId) (locale timezone : Option String) :
    Prog.Obeys tables KeptOnError false
      (UserRepository.updatePreferences id locale timezone).run := by
  rw [UserRepository.updatePreferences_program]
  apply statement_kept
  intro rows e he
  cases he

theorem createUser_kept (new : NewUser) :
    Prog.Obeys tables KeptOnError false (UserRepository.create new).run := by
  rw [UserRepository.create_program]
  refine ⟨trivial, fun id _ => ⟨trivial, fun hashed _ => ?_⟩⟩
  cases hashed with
  | error message => exact fun _ _ => rfl
  | ok hash =>
      apply statement_kept
      intro rows e he
      cases he

theorem findById_reads (id : UserId) :
    Prog.Obeys tables (fun _ after => after = changed) changed
      (UserRepository.findById id).run := by
  rw [UserRepository.findById_program]
  apply statement_reads
  exact fun _ => rfl

theorem verify_reads (email password : String) :
    Prog.Obeys tables (fun _ after => after = changed) changed
      (UserRepository.verify email password).run := by
  rw [UserRepository.verify_program]
  refine ⟨trivial, fun r _ => ?_⟩
  cases r with
  | error => rfl
  | ok row => exact ⟨trivial, fun checked _ => Bool.or_false changed⟩

theorem listForUser_reads (userId : UserId) :
    Prog.Obeys tables (fun _ after => after = changed) changed
      (TodoRepository.listForUser userId).run := by
  rw [TodoRepository.listForUser_program]
  apply statement_reads
  exact fun _ => rfl

theorem listTodosCached_reads (state : AppState) (userId : UserId) :
    Prog.Obeys tables (fun _ after => after = changed) changed
      (state.listTodosCached userId).run := by
  rw [AppState.listTodosCached_program]
  cases state.cache.pool with
  | false => exact listForUser_reads changed userId
  | true =>
      refine ⟨trivial, fun reply _ => ?_⟩
      dsimp only
      cases Cache.decode state.todosJson reply with
      | some todos => rfl
      | none =>
          refine ⟨trivial, fun r _ => ?_⟩
          cases r with
          | error => rfl
          | ok rows =>
              simp only [AppState.backfill]
              cases state.todosJson.toString (rows.map rowToTodo) with
              | none => exact Bool.or_false changed
              | some raw => exact ⟨trivial, fun _ _ => Bool.or_false changed⟩

theorem sessionLogin_reads (user : User) :
    Prog.Obeys tables (fun _ after => after = changed) changed (AuthSession.login user) :=
  ⟨trivial, fun _ _ => rfl⟩

theorem invalidate_ends (state : AppState) (userId : UserId) :
    Prog.Obeys tables (fun _ _ => True) changed (state.invalidateTodosCache userId) := by
  rw [AppState.invalidateTodosCache_program]
  cases state.cache.pool with
  | false => trivial
  | true => exact ⟨trivial, fun _ _ => trivial⟩

end Calls

section Handlers
variable (state : AppState)

-- its rule says what it does
attribute [local irreducible] updateLocale localeCookie

/-- Answers below 400 owe nothing. -/
theorem owes_of_lt {route : Route} {response : Response} {changed : Bool}
    (h : response.status < 400) : Owes route (.ok response) changed := by
  intro response' hfin hstatus
  obtain rfl : response = response' := Except.ok.inj hfin
  exact absurd hstatus (Nat.not_le.mpr h)

/-- Nothing is owed while the tables are unchanged. -/
theorem owes_unchanged {route : Route} {done : Except Halt Response} : Owes route done false :=
  fun _ _ _ => Or.inl rfl

/-- Nothing is owed for a call that has changed nothing. -/
theorem owes_kept {route : Route} {α : Type} {e : StorageError} {changed : Bool}
    (hkept : KeptOnError (.error e : Except StorageError α) changed) :
    Owes route (.error (.error (AppError.fromStorage e))) changed := by
  rw [hkept e rfl]
  exact owes_unchanged

/-- A page rendered before anything has changed. -/
theorem renderPage_owes_unchanged {route : Route} {status : StatusCode} {headers : HeaderMap}
    {template : String} {context : Context} :
    Prog.Obeys tables (Owes route) false (renderPage status headers template context).run := by
  apply obeys_renderPage trivial
  · exact fun _ _ => owes_unchanged
  · exact fun _ _ => owes_unchanged

theorem create_owes (auth : AuthSession) (context : RequestContext) (new : NewTodo) :
    Prog.Obeys tables (Owes (.create new)) false (create state auth context new).run := by
  refine obeys_create (fun _ => owes_unchanged) (fun _ => owes_unchanged)
    (fun user _ => create_kept user.id new)
    (fun user _ changed _ _ => invalidate_ends changed state user.id) ?_ fun _ _ => owes_kept
  intro user todo changed _ _
  apply obeys_renderPage trivial
  · exact fun _ _ => owes_of_lt (show StatusCode.created < 400 by decide)
  · exact fun _ _ response hfin _ => Or.inr (Except.ok.inj hfin).symm

theorem toggle_owes (auth : AuthSession) (context : RequestContext) (id : Uuid) :
    Prog.Obeys tables (Owes (.toggle id)) false (toggle state auth context id).run := by
  refine obeys_toggle (fun _ => owes_unchanged) (fun user _ => toggle_kept user.id ⟨id⟩)
    (fun user _ changed _ _ => invalidate_ends changed state user.id) ?_ fun _ _ => owes_kept
  intro user todo changed _ _
  apply obeys_renderPage trivial
  · exact fun _ _ => owes_of_lt (show StatusCode.ok < 400 by decide)
  · exact fun _ _ response hfin _ => Or.inr (Except.ok.inj hfin).symm

theorem delete_owes (auth : AuthSession) (id : Uuid) :
    Prog.Obeys tables (Owes (.delete id)) false (delete state auth id).run := by
  refine obeys_delete (fun _ => owes_unchanged) (fun user _ => delete_kept user.id ⟨id⟩)
    (fun user changed _ _ => invalidate_ends changed state user.id) ?_ fun _ _ => owes_kept
  exact fun _ _ => owes_of_lt (show StatusCode.ok < 400 by decide)

theorem owes_panic {route : Route} {message : String} {changed : Bool} :
    Owes route (.error (.panic message)) changed := by
  intro response hfin
  cases hfin

theorem redirectTo_owes {route : Route} {uri : String} {changed : Bool} :
    Prog.Obeys tables (Owes route) changed (redirectTo uri).run := by
  unfold redirectTo
  cases HeaderValue.fromStr uri with
  | none => exact owes_panic
  | some location => exact owes_of_lt (show StatusCode.seeOther < 400 by decide)

theorem redirectAfterForm_owes {route : Route} {headers : HeaderMap} {target : String}
    {changed : Bool} :
    Prog.Obeys tables (Owes route) changed (redirectAfterForm headers target).run := by
  unfold redirectAfterForm
  split
  · cases HeaderValue.fromStr target with
    | none => exact owes_of_lt (show StatusCode.ok < 400 by decide)
    | some val => exact owes_of_lt (show StatusCode.ok < 400 by decide)
  · exact redirectTo_owes

theorem localeResponse_owes {route : Route} {headers : HeaderMap} {changed : Bool}
    (cookie : Option HeaderValue) :
    Prog.Obeys tables (Owes route) changed (do
      let cookie ← Handler.expect "valid cookie" cookie
      return localeResponse headers cookie : Handler Response).run := by
  cases cookie with
  | none => exact owes_panic
  | some cookie =>
      apply owes_of_lt
      unfold localeResponse
      dsimp only
      split
      · exact (by decide : StatusCode.noContent < 400)
      · exact (by decide : StatusCode.seeOther < 400)

theorem updateLocale_owes (auth : AuthSession) (headers : HeaderMap) (locale : String) :
    Prog.Obeys tables (Owes (.updateLocale locale)) false
      (updateLocale state auth headers locale).run := by
  refine obeys_updateLocale (fun _ => owes_unchanged) (fun _ => trivial)
    (fun user candidate _ => updatePreferences_kept user.id (some candidate) none)
    (fun _ _ => trivial) ?_ fun _ _ => owes_kept
  exact fun candidate _ _ _ => localeResponse_owes (localeCookie state candidate)

theorem signup_owes (headers : HeaderMap) (context : RequestContext) (new : NewUser) :
    Prog.Obeys tables (Owes (.signup new)) false (signup state headers context new).run := by
  unfold signup
  dsimp only
  split
  · exact renderPage_owes_unchanged
  · apply obeys_lift (createUser_kept new)
    intro done changed hkept
    match done with
    | .error (.conflict _) =>
        rw [hkept _ rfl]
        exact renderPage_owes_unchanged
    | .error .notFound | .error .invalidCredentials | .error .hashing | .error (.database _)
    | .error (.join _) =>
        rw [hkept _ rfl]
        exact owes_unchanged
    | .ok user =>
        -- the account is committed when the session is written
        apply obeys_lift (sessionLogin_reads changed user)
        rintro reply _ rfl
        cases reply with
        | error e =>
            intro response hfin _
            exact Or.inr ⟨e, (Except.ok.inj hfin).symm⟩
        | ok u => exact redirectAfterForm_owes

theorem login_owes (headers : HeaderMap) (context : RequestContext) (creds : Credentials) :
    Prog.Obeys tables (Owes (.login creds)) false (login state headers context creds).run := by
  unfold login
  dsimp only
  split
  · exact renderPage_owes_unchanged
  · apply obeys_lift (verify_reads false creds.email creds.password)
    rintro done _ rfl
    match done with
    | .error _ => exact owes_unchanged
    | .ok none => exact renderPage_owes_unchanged
    | .ok (some user) =>
        apply obeys_lift (sessionLogin_reads false user)
        rintro reply _ rfl
        cases reply with
        | error e => exact owes_unchanged
        | ok u => exact redirectAfterForm_owes

theorem list_owes (auth : AuthSession) (context : RequestContext) :
    Prog.Obeys tables (Owes .list) false (list state auth context).run := by
  apply obeys_list
  · exact fun _ => owes_unchanged
  · exact fun user _ => listTodosCached_reads false state user.id
  · rintro user todos _ _ rfl
    exact renderPage_owes_unchanged
  · rintro _ _ rfl
    exact owes_unchanged

theorem index_owes (auth : AuthSession) (context : RequestContext) :
    Prog.Obeys tables (Owes .index) false (index state auth context).run := by
  apply obeys_index
  · exact fun _ => redirectTo_owes
  · exact fun user _ => listTodosCached_reads false state user.id
  · rintro user todos _ _ rfl
    exact renderPage_owes_unchanged
  · rintro _ _ rfl
    exact owes_unchanged

theorem handle_owes (auth : AuthSession) (request : Request) :
    Prog.Obeys tables (Owes request.route) false (handle state auth request).run := by
  obtain ⟨headers, context, route⟩ := request
  cases route with
  | index => exact index_owes state auth context
  | list => exact list_owes state auth context
  | create new => exact create_owes state auth context new
  | toggle id => exact toggle_owes state auth context id
  | delete id => exact delete_owes state auth id
  | updateLocale locale => exact updateLocale_owes state auth headers locale
  | login creds => exact login_owes state headers context creds
  | signup new => exact signup_owes state headers context new

theorem fromSession_reads (session : Option Session) :
    Prog.Obeys tables (fun _ after => after = false) false
      (AuthSession.fromSession session).run := by
  cases session with
  | none => rfl
  | some data =>
      apply (findById_reads false ⟨data.userId⟩).bindExcept
      · exact fun _ _ h => h
      · exact fun _ _ h => h

/-- A whole request: the answer and whether the tables may have changed. -/
theorem serve_owes (session : Option Session) (request : Request) :
    Prog.Obeys tables (fun done changed => ∀ response, done = .ok response →
      400 ≤ response.status → changed = false ∨ LateFailure request.route response) false
      (serve state session request) := by
  unfold serve
  apply (fromSession_reads session).bind
  rintro auth _ rfl
  cases auth with
  | error e => exact fun _ _ _ => Or.inl rfl
  | ok auth => exact (handle_owes state auth request).bind fun done changed howes => howes

end Handlers

/-- A failed request leaves the tables alone unless the failure came late: the
session write of a signup or the render of a created or toggled todo, after the
statement had committed. A statement that fails has not run. -/
theorem failed_request_unchanged (services : Services) (state : AppState)
    (session : Option Session) (request : Request) (cs : Nat → Choice) (w : World)
    (response : Response)
    (hend : ((serve state session request).run (act services) cs w).1 = .ok response)
    (hstatus : 400 ≤ response.status) :
    ((serve state session request).run (act services) cs w).2.db = w.db ∨
      response.status = StatusCode.internalServerError ∧ LateFailure request.route response := by
  obtain ⟨changed, howes, hdb⟩ := Prog.Obeys.run
    (fun c e changed w' h _ => ⟨trivial, tables_sound c e changed w' h⟩)
    (serve_owes state session request) cs (fun _ => rfl : false = false → w.db = w.db)
  rcases howes response hend hstatus with hkept | hlate
  · exact Or.inl (hdb hkept)
  · exact Or.inr ⟨hlate.status, hlate⟩

/-- The account of a signup is committed before its session is written. -/
theorem signup_fails_late :
    ¬ ∀ (services : Services) (state : AppState) (session : Option Session) (request : Request)
      (cs : Nat → Choice) (w : World) (response : Response),
      ((serve state session request).run (act services) cs w).1 = .ok response →
      400 ≤ response.status →
      ((serve state session request).run (act services) cs w).2.db = w.db := by
  intro hall
  let cs : Nat → Choice := fun n =>
    if n = 3 then { Choice.plain 0 ⟨7⟩ with fault := some "pool timed out" } else .plain 0 ⟨7⟩
  have hdb := hall .plain .plain none
    ⟨[], .plain, .signup ⟨"bob@example.org", "battery staple"⟩⟩ cs .plain
    (AppError.internal "post-signup session login failed: pool timed out").intoResponse
    (by decide) (by decide)
  exact absurd (congrArg (fun db => db.users.length) hdb) (by decide)

/-- Toggling an unknown todo is answered by a 404 and changes nothing. -/
theorem failed_request_unchanged_missing_todo :
    ((serve .plain (some ⟨annRow.id, annRow.passwordHash⟩) ⟨[], .plain, .toggle ⟨9⟩⟩).run
      (act .plain) (fun _ => .plain 0 ⟨7⟩) .plain).2.db = World.plain.db := by
  have h := failed_request_unchanged .plain .plain (some ⟨annRow.id, annRow.passwordHash⟩)
    ⟨[], .plain, .toggle ⟨9⟩⟩ (fun _ => .plain 0 ⟨7⟩) .plain AppError.notFound.intoResponse
    (by decide) (by decide)
  exact h.resolve_right fun hlate => absurd hlate.1 (by decide)

end TodoRust.Requests
