import TodoRust.App.State

/-!
# The handlers

The handlers of the authentication, todo, preference and page routes, each with
its steps in the order of the source, and the service in front of them that
loads the session's user and turns the handler's end into a response.
-/

namespace TodoRust.App
open Lib Domain Storage I18n Rust

/-- `axum_login::AuthSession`, as a handler reads it. -/
structure AuthSession where
  user : Option User

/-- What the session store holds for a logged-in client. -/
structure Session where
  userId : Uuid
  authHash : String
  deriving DecidableEq

/-- `AuthSession::from_session`: the stored user, unless the password hash has
changed since the login. -/
def AuthSession.fromSession (session : Option Session) : Call AuthSession :=
  match session with
  | none => pure ⟨none⟩
  | some data => do
      let user ← UserRepository.findById ⟨data.userId⟩
      return ⟨user.filter fun u => u.passwordHash = data.authHash⟩

/-- `AuthSession::login`: the session is to be the user's. The row of the session is written
by the session layer, after the handler, and is not modelled. -/
def AuthSession.login (user : User) : Action (Except String Unit) :=
  Prog.op (.sessionLogin user) .ret

def requireUser (auth : AuthSession) : Handler UserId :=
  match auth.user with
  | some user => pure user.id
  | none => Handler.fail .unauthorized

/-- Render a page and answer with it. -/
def renderPage (status : StatusCode) (headers : HeaderMap) (template : String)
    (context : Context) : Handler Response := do
  render template context
  return htmlResponse status headers template context

/-- A render that does not fail answers with the page. -/
theorem renderPage_run {services : Services} {cs : Nat → Choice} {w : World}
    {status : StatusCode} {headers : HeaderMap} {template : String} {context : Context}
    (hfault : (cs 0).fault = none) :
    (renderPage status headers template context).run.run (act services) cs w =
      (.ok (htmlResponse status headers template context), w) := by
  simp only [renderPage, render, ExceptT.run_bind, ExceptT.run_mk, Prog.op_bind, Prog.ret_bind,
    Prog.run_op, act, command, hfault]
  rfl

/-! ### Redirects -/

/-- `safe_next` -/
def safeNext (raw : Option String) : Option String :=
  raw.bind fun v =>
    if startsWith v ['/'] && !startsWith v ['/', '/'] then some v else none

/-- `axum::response::Redirect::to` -/
def redirectTo (uri : String) : Handler Response := do
  let location ← Handler.expect "URI isn't a valid header value" (HeaderValue.fromStr uri)
  return { status := StatusCode.seeOther, headers := [("location", location)], body := .empty }

/-- `redirect_after_form` -/
def redirectAfterForm (headers : HeaderMap) (target : String) : Handler Response :=
  if (headers.get "hx-request").isSome then
    let res := StatusCode.intoResponse StatusCode.ok
    match HeaderValue.fromStr target with
    | some val => pure { res with headers := res.headers.insert "hx-redirect" val }
    | none => pure res
  else redirectTo target

/-! ### `routes::auth` -/

def hxFullSwap : HeaderMap :=
  [("hx-retarget", ⟨asBytes "body", by decide⟩),
    ("hx-reswap", ⟨asBytes "outerHTML", by decide⟩)]

section Routes
variable (state : AppState)

def renderLoginForm (request : RequestContext) (next : Option String) (msg : String)
    (status : StatusCode) : Handler Response :=
  let nextValue := match safeNext next with
    | some path => Value.str path
    | none => .none
  renderPage status hxFullSwap "login.html"
    ([("next", nextValue), ("error", .str msg),
      ("dev_login_enabled", .bool state.devLoginEnabled)] ++ baseContext request)

def renderSignupForm (request : RequestContext) (msg : String) (status : StatusCode) :
    Handler Response :=
  renderPage status hxFullSwap "signup.html" (("error", .str msg) :: baseContext request)

/-- `POST /login` -/
def login (headers : HeaderMap) (request : RequestContext) (creds : Credentials) :
    Handler Response := do
  let errs := creds.validate state.validateEmail
  if errs ≠ [] then
    renderLoginForm state request creds.next
      (state.localizeValidationErrors request.locale errs) StatusCode.unprocessableEntity
  else
    match ← ExceptT.lift (UserRepository.verify creds.email creds.password).run with
    | .error _ => Handler.fail (.internal "authentication backend error")
    | .ok none =>
        renderLoginForm state request creds.next
          (state.lookup request.locale "validation-invalid-credentials") StatusCode.unauthorized
    | .ok (some user) =>
        match ← ExceptT.lift (AuthSession.login user) with
        | .error e => Handler.fail (.internal ("session login failed: " ++ e))
        | .ok () =>
            let target := (safeNext creds.next).getD "/"
            redirectAfterForm headers target

/-- `POST /signup` -/
def signup (headers : HeaderMap) (request : RequestContext) (new : NewUser) :
    Handler Response := do
  let errs := new.validate state.validateEmail
  if errs ≠ [] then
    renderSignupForm request (state.localizeValidationErrors request.locale errs)
      StatusCode.unprocessableEntity
  else
    match ← ExceptT.lift (UserRepository.create new).run with
    | .error (.conflict _) =>
        renderSignupForm request (state.lookup request.locale "validation-account-exists")
          StatusCode.conflict
    | .error err => Handler.fail (AppError.fromStorage err)
    | .ok user =>
        match ← ExceptT.lift (AuthSession.login user) with
        | .error e => Handler.fail (.internal ("post-signup session login failed: " ++ e))
        | .ok () => redirectAfterForm headers "/"

/-- `POST /logout`, when the session store has answered. -/
def logout (headers : HeaderMap) (flushed : Except String Unit) : Handler Response :=
  match flushed with
  | .error e => Handler.fail (.internal ("logout failed: " ++ e))
  | .ok () => redirectAfterForm headers "/login"

/-! ### `routes::pages` and `routes::todos` -/

/-- `GET /` -/
def index (auth : AuthSession) (request : RequestContext) : Handler Response :=
  match auth.user with
  | none => redirectTo "/login"
  | some user => do
      let request := state.overrideFromProfile user request
      let todos ← Handler.call (state.listTodosCached user.id)
      renderPage StatusCode.ok [] "index.html"
        ([("user", .user user), ("todos", .todos todos)] ++ baseContext request)

/-- `GET /todos` -/
def list (auth : AuthSession) (request : RequestContext) : Handler Response := do
  let userId ← requireUser auth
  let user ← Handler.expect "require_user succeeded" auth.user
  let request := state.overrideFromProfile user request
  let todos ← Handler.call (state.listTodosCached userId)
  renderPage StatusCode.ok [] "partials/todo_list.html"
    (("todos", .todos todos) :: baseContext request)

/-- `POST /todos` -/
def create (auth : AuthSession) (request : RequestContext) (new : NewTodo) :
    Handler Response := do
  let userId ← requireUser auth
  let user ← Handler.expect "require_user succeeded" auth.user
  let request := state.overrideFromProfile user request
  if new.validate ≠ [] then
    Handler.fail (.validation (state.localizeValidationErrors request.locale new.validate))
  else
    let todo ← Handler.call (TodoRepository.create userId new)
    ExceptT.lift (state.invalidateTodosCache userId)
    renderPage StatusCode.created [] "partials/todo.html"
      (("todo", .todo todo) :: baseContext request)

/-- `POST /todos/:id/toggle` -/
def toggle (auth : AuthSession) (request : RequestContext) (id : Uuid) : Handler Response := do
  let userId ← requireUser auth
  let user ← Handler.expect "require_user succeeded" auth.user
  let request := state.overrideFromProfile user request
  let todo ← Handler.call (TodoRepository.toggle userId ⟨id⟩)
  ExceptT.lift (state.invalidateTodosCache userId)
  renderPage StatusCode.ok [] "partials/todo.html" (("todo", .todo todo) :: baseContext request)

/-- `DELETE /todos/:id` -/
def delete (auth : AuthSession) (id : Uuid) : Handler Response := do
  let userId ← requireUser auth
  Handler.call (TodoRepository.delete userId ⟨id⟩)
  ExceptT.lift (state.invalidateTodosCache userId)
  return StatusCode.intoResponse StatusCode.ok

/-! ### `routes::preferences` -/

def localeCookie (candidate : String) : Option HeaderValue :=
  HeaderValue.fromStr ("locale=" ++ candidate ++ "; Path=/; Max-Age=31536000; SameSite=Lax" ++
    if state.cookieSecure then "; Secure" else "")

/-- The answer to an update: the cookie, and then a refresh or a way back. -/
def localeResponse (requestHeaders : HeaderMap) (cookie : HeaderValue) : Response :=
  let headers : HeaderMap := HeaderMap.insert [] "set-cookie" cookie
  if (requestHeaders.get "hx-request").isSome then
    { status := StatusCode.noContent,
      headers := headers.insert "hx-refresh" ⟨asBytes "true", by decide⟩, body := .empty }
  else
    let target := ((requestHeaders.get "referer").bind HeaderValue.toStr).getD "/"
    let location := (HeaderValue.fromStr target).getD ⟨asBytes "/", by decide⟩
    { status := StatusCode.seeOther, headers := headers.insert "location" location, body := .empty }

/-- `POST /preferences/locale` -/
def updateLocale (auth : AuthSession) (requestHeaders : HeaderMap) (locale : String) :
    Handler Response := do
  let candidate := trim locale
  if !supported.contains candidate then
    Handler.fail (.validation ("unsupported locale: " ++ candidate))
  else
    match auth.user with
    | some user =>
        Handler.call (UserRepository.updatePreferences user.id (some candidate) none)
    | none => pure ()
    let cookie ← Handler.expect "valid cookie" (localeCookie state candidate)
    return localeResponse requestHeaders cookie

/-! ### The service -/

inductive Route
  | index
  | list
  | create (new : NewTodo)
  | toggle (id : Uuid)
  | delete (id : Uuid)
  | updateLocale (locale : String)
  | login (creds : Credentials)
  | signup (new : NewUser)

/-- A request past the extractors and the middleware. -/
structure Request where
  headers : HeaderMap
  context : RequestContext
  route : Route

def handle (auth : AuthSession) (request : Request) : Handler Response :=
  match request.route with
  | .index => index state auth request.context
  | .list => list state auth request.context
  | .create new => create state auth request.context new
  | .toggle id => toggle state auth request.context id
  | .delete id => delete state auth id
  | .updateLocale locale => updateLocale state auth request.headers locale
  | .login creds => login state request.headers request.context creds
  | .signup new => signup state request.headers request.context new

/-- One request: the session's user is loaded, where a failure is answered by an
empty 500, and the handler runs. -/
def serve (session : Option Session) (request : Request) : Action (Except String Response) := do
  match ← (AuthSession.fromSession session).run with
  | .error _ => return .ok (StatusCode.intoResponse StatusCode.internalServerError)
  | .ok auth => return Handler.finish (← (handle state auth request).run)

/-- With a session of a stored user, the request is the handler's. -/
theorem serve_run {services : Services} {session : Session} {request : Request}
    {cs : Nat → Choice} {w : World} {row : UserRow}
    (hrow : w.db.selectUser session.userId = some row)
    (hhash : row.passwordHash = session.authHash) (hfault : (cs 0).fault = none) :
    (serve state (some session) request).run (act services) cs w =
      let done := (handle state ⟨some (rowToUser row)⟩ request).run.run (act services)
        (fun n => cs (n + 1)) w
      (Handler.finish done.1, done.2) := by
  have huser : (⟨(some (rowToUser row)).filter fun u => u.passwordHash = session.authHash⟩ :
      AuthSession) = ⟨some (rowToUser row)⟩ := by
    simp [Option.filter, rowToUser, hhash]
  simp only [serve, AuthSession.fromSession, UserRepository.findById, query, execute,
    ExceptT.run_bind, ExceptT.run_mk, Prog.op_bind, Prog.ret_bind, Prog.run_op, act, hfault,
    Database.exec_selectUser, hrow, Except.mapError, ExceptT.run_pure, Prog.pure_eq,
    Option.map_some, huser]
  exact Prog.run_bind_ret _ _ _ _ _

end Routes

end TodoRust.App
