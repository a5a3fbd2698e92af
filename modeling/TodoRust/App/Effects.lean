import TodoRust.App.Rules

/-!
# The effects of each route

Which effects a request can perform, route by route, whatever the replies are. A request
of a logged-in user names the account in every statement and cache command; the session
is written by a login or a signup only.
-/

namespace TodoRust.App
open Lib Domain Storage

/-- The routes that write a todo. -/
def writesTodo : Route → Bool
  | .create _ | .toggle _ | .delete _ => true
  | .index | .list | .updateLocale _ | .login _ | .signup _ => false

/-- The routes that show the list. -/
def showsList : Route → Bool
  | .index | .list => true
  | .create _ | .toggle _ | .delete _ | .updateLocale _ | .login _ | .signup _ => false

/-- The routes that log in. -/
def logsIn : Route → Bool
  | .login _ | .signup _ => true
  | .index | .list | .create _ | .toggle _ | .delete _ | .updateLocale _ => false

/-- What a handler can perform for the session's user. -/
inductive Performs (auth : AuthSession) : Route → Effect → Prop
  | render (route : Route) (template : String) (context : Context) :
      Performs auth route (.render template context)
  | select {user : User} (h : auth.user = some user) {route : Route}
      (hroute : showsList route = true) :
      Performs auth route (.sql (.selectTodos user.id.uuid))
  | get {user : User} (h : auth.user = some user) {route : Route}
      (hroute : showsList route = true) :
      Performs auth route (.redisGet (todosCacheKey user.id))
  | set {user : User} (h : auth.user = some user) {route : Route}
      (hroute : showsList route = true) (raw : String) :
      Performs auth route (.redisSet (todosCacheKey user.id) raw 60)
  | del {user : User} (h : auth.user = some user) {route : Route}
      (hroute : writesTodo route = true) :
      Performs auth route (.redisDel (todosCacheKey user.id))
  | newTodoId (new : NewTodo) : Performs auth (.create new) .newUuid
  | insert {user : User} (h : auth.user = some user) (new : NewTodo) (id : Uuid) :
      Performs auth (.create new) (.sql (.insertTodo id user.id.uuid (Rust.trim new.title)))
  | toggle {user : User} (h : auth.user = some user) (id : Uuid) :
      Performs auth (.toggle id) (.sql (.toggleTodo id user.id.uuid))
  | delete {user : User} (h : auth.user = some user) (id : Uuid) :
      Performs auth (.delete id) (.sql (.deleteTodo id user.id.uuid))
  | switch {user : User} (h : auth.user = some user) (locale : String) (setLocale : Bool)
      (candidate : Option String) :
      Performs auth (.updateLocale locale)
        (.sql (.updatePreferences user.id.uuid setLocale candidate false none))
  | lookup (creds : Credentials) :
      Performs auth (.login creds) (.sql (.selectUserByEmail (Rust.trim creds.email)))
  | verify (creds : Credentials) (hash : String) :
      Performs auth (.login creds) (.verifyPassword creds.password hash)
  | newUserId (new : NewUser) : Performs auth (.signup new) .newUuid
  | hash (new : NewUser) : Performs auth (.signup new) (.generateHash new.password)
  | register (new : NewUser) (id : Uuid) (hash : String) :
      Performs auth (.signup new) (.sql (.insertUser id (Rust.trim new.email) hash))
  | session {route : Route} (hroute : logsIn route = true) (user : User) :
      Performs auth route (.sessionLogin user)

/-- Outside a login nothing writes the session. -/
theorem Performs.not_session {auth : AuthSession} {route : Route} {e : Effect}
    (h : Performs auth route e) (hroute : logsIn route = false) (user : User) :
    e ≠ .sessionLogin user := by
  rintro rfl
  cases h with
  | session hin =>
      rw [hin] at hroute
      cases hroute

/-- Nothing is asked of the result. -/
def Whatever {α : Type} (_ : α) (_ : Unit) : Prop := True

section Performs
variable {state : AppState} {auth : AuthSession} {context : RequestContext} {route : Route}

theorem renderPage_performs {status : Rust.StatusCode} {headers : Rust.HeaderMap}
    {template : String} {page : Context} :
    Prog.Obeys (.permitting (Performs auth route)) Whatever ()
      (renderPage status headers template page).run := by
  apply obeys_renderPage
  · exact .render route template page
  · exact fun _ _ => trivial
  · exact fun _ _ => trivial

/-- A step after which nothing is performed. -/
theorem performs_last {e : Effect} {α : Type} {read : e.Reply → α}
    (h : Performs auth route e) :
    Prog.Obeys (.permitting (Performs auth route)) Whatever () (.op e fun r => .ret (read r)) :=
  ⟨h, fun _ _ => trivial⟩

theorem listTodosCached_performs {user : User} (h : auth.user = some user)
    (hroute : showsList route = true) :
    Prog.Obeys (.permitting (Performs auth route)) Whatever ()
      (state.listTodosCached user.id).run := by
  rw [AppState.listTodosCached_program]
  cases state.cache.pool with
  | false =>
      rw [if_neg Bool.false_ne_true, TodoRepository.listForUser_program]
      exact performs_last (.select h hroute)
  | true =>
      refine ⟨.get h hroute, fun reply _ => ?_⟩
      dsimp only
      cases Cache.decode state.todosJson reply with
      | some todos => trivial
      | none =>
          refine ⟨.select h hroute, fun r _ => ?_⟩
          cases r with
          | error e => trivial
          | ok rows =>
              dsimp only
              unfold AppState.backfill
              split
              · exact ⟨.set h hroute _, fun _ _ => trivial⟩
              · trivial

theorem invalidate_performs {user : User} (h : auth.user = some user)
    (hroute : writesTodo route = true) :
    Prog.Obeys (.permitting (Performs auth route)) (fun _ _ => True) ()
      (state.invalidateTodosCache user.id) := by
  rw [AppState.invalidateTodosCache_program]
  split
  · exact ⟨.del h hroute, fun _ _ => trivial⟩
  · trivial

theorem redirectTo_performs (uri : String) :
    Prog.Obeys (.permitting (Performs auth route)) Whatever () (redirectTo uri).run := by
  unfold redirectTo
  cases Rust.HeaderValue.fromStr uri with
  | none => trivial
  | some location => trivial

theorem redirectAfterForm_performs (headers : Rust.HeaderMap) (target : String) :
    Prog.Obeys (.permitting (Performs auth route)) Whatever ()
      (redirectAfterForm headers target).run := by
  unfold redirectAfterForm
  split
  · dsimp only
    split
    · trivial
    · trivial
  · exact redirectTo_performs target

theorem create_performs {user : User} (h : auth.user = some user) (new : NewTodo) :
    Prog.Obeys (.permitting (Performs auth (.create new))) Whatever ()
      (TodoRepository.create user.id new).run := by
  rw [TodoRepository.create_program]
  exact ⟨.newTodoId new, fun id _ => performs_last (.insert h new id)⟩

theorem verify_performs (creds : Credentials) :
    Prog.Obeys (.permitting (Performs auth (.login creds))) Whatever ()
      (UserRepository.verify creds.email creds.password).run := by
  rw [UserRepository.verify_program]
  refine ⟨.lookup creds, fun r _ => ?_⟩
  cases r with
  | error e => trivial
  | ok row => exact performs_last (.verify creds _)

theorem register_performs (new : NewUser) :
    Prog.Obeys (.permitting (Performs auth (.signup new))) Whatever ()
      (UserRepository.create new).run := by
  rw [UserRepository.create_program]
  refine ⟨.newUserId new, fun id _ => ⟨.hash new, fun hashed _ => ?_⟩⟩
  cases hashed with
  | error e => trivial
  | ok hash => exact performs_last (.register new id hash)

/-! ### The handlers -/

-- its rule says what it does
attribute [local irreducible] updateLocale localeCookie

theorem login_performs (state : AppState) (auth : AuthSession) (headers : Rust.HeaderMap)
    (creds : Credentials) :
    Prog.Obeys (.permitting (Performs auth (.login creds))) Whatever ()
      (login state headers context creds).run := by
  unfold login
  dsimp only
  split
  · exact renderPage_performs
  · apply obeys_lift (verify_performs creds)
    rintro done _ _
    match done with
    | .error _ => trivial
    | .ok none => exact renderPage_performs
    | .ok (some user) =>
        refine ⟨.session rfl user, fun reply _ => ?_⟩
        cases reply with
        | error e => trivial
        | ok u => exact redirectAfterForm_performs headers _

theorem signup_performs (state : AppState) (auth : AuthSession) (headers : Rust.HeaderMap)
    (new : NewUser) :
    Prog.Obeys (.permitting (Performs auth (.signup new))) Whatever ()
      (signup state headers context new).run := by
  unfold signup
  dsimp only
  split
  · exact renderPage_performs
  · apply obeys_lift (register_performs new)
    rintro done _ _
    match done with
    | .error (.conflict _) => exact renderPage_performs
    | .error .notFound | .error .invalidCredentials | .error .hashing
    | .error (.database _) | .error (.join _) => trivial
    | .ok user =>
        refine ⟨.session rfl user, fun reply _ => ?_⟩
        cases reply with
        | error e => trivial
        | ok u => exact redirectAfterForm_performs headers _

theorem updateLocale_performs (state : AppState) (auth : AuthSession) (headers : Rust.HeaderMap)
    (locale : String) :
    Prog.Obeys (.permitting (Performs auth (.updateLocale locale))) Whatever ()
      (updateLocale state auth headers locale).run := by
  have hsettled : ∀ m : Unit, Whatever () m := fun _ => trivial
  apply obeys_updateLocale
  · exact fun _ => trivial
  · exact fun _ => hsettled ()
  · intro user candidate huser
    rw [UserRepository.updatePreferences_program]
    exact performs_last (.switch huser locale _ _)
  · exact fun m _ => hsettled m
  · intro candidate _ _ _
    cases localeCookie state candidate with
    | none => trivial
    | some cookie => trivial
  · exact fun _ _ _ => trivial

/-- A handler performs the effects of its route only. -/
theorem handle_performs (state : AppState) (auth : AuthSession) (request : Request) :
    Prog.Obeys (.permitting (Performs auth request.route)) Whatever ()
      (handle state auth request).run := by
  obtain ⟨headers, context, route⟩ := request
  cases route with
  | index =>
      apply obeys_index
      · exact fun _ => redirectTo_performs "/login"
      · exact fun user huser => listTodosCached_performs huser rfl
      · exact fun _ _ _ _ _ => renderPage_performs
      · exact fun _ _ _ => trivial
  | list =>
      apply obeys_list
      · exact fun _ => trivial
      · exact fun user huser => listTodosCached_performs huser rfl
      · exact fun _ _ _ _ _ => renderPage_performs
      · exact fun _ _ _ => trivial
  | create new =>
      apply obeys_create
      · exact fun _ => trivial
      · exact fun _ => trivial
      · exact fun user huser => create_performs huser new
      · exact fun user _ _ huser _ => invalidate_performs huser rfl
      · exact fun _ _ _ _ _ => renderPage_performs
      · exact fun _ _ _ => trivial
  | toggle id =>
      apply obeys_toggle
      · exact fun _ => trivial
      · intro user huser
        rw [TodoRepository.toggle_program]
        exact performs_last (.toggle huser id)
      · exact fun user _ _ huser _ => invalidate_performs huser rfl
      · exact fun _ _ _ _ _ => renderPage_performs
      · exact fun _ _ _ => trivial
  | delete id =>
      apply obeys_delete
      · exact fun _ => trivial
      · intro user huser
        rw [TodoRepository.delete_program]
        exact performs_last (.delete huser id)
      · exact fun user _ huser _ => invalidate_performs huser rfl
      · exact fun _ _ => trivial
      · exact fun _ _ _ => trivial
  | updateLocale locale => exact updateLocale_performs state auth headers locale
  | login creds => exact login_performs state auth headers creds
  | signup new => exact signup_performs state auth headers new

end Performs

/-- Loading the session's user selects its row. -/
theorem fromSession_performs (session : Option Session) :
    Prog.Obeys
      (.permitting fun e => ∃ data, session = some data ∧ e = .sql (.selectUser data.userId))
      Whatever () (AuthSession.fromSession session).run := by
  cases session with
  | none => trivial
  | some data =>
      simp only [AuthSession.fromSession, ExceptT.run_bind, UserRepository.findById_program,
        Prog.op_bind, Prog.ret_bind]
      refine ⟨⟨data, rfl, rfl⟩, fun r _ => ?_⟩
      cases r with
      | error e => trivial
      | ok row => trivial

end TodoRust.App
