import TodoRust.I18n.Minijinja
import TodoRust.Middleware.I18n
import TodoRust.Router.Headers

/-!
# The pages of the handlers

Every page that a handler sends is one of five templates, with a context that is known but
for the texts in it.
-/

namespace TodoRust.Router
open Lib Domain Storage App Rust Middleware

/-- A request to a handler that renders pages; the pages of the preview are not among them. -/
inductive PageRequest
  | serve (session : Option Session) (route : Route)
  | loginForm (next : Option String)
  | signupForm

/-- What the handler does, behind the i18n middleware. -/
def PageRequest.action (state : AppState) (fluent : I18n.FluentLangneg) (headers : HeaderMap)
    (nonce : String) : PageRequest → Action (Except String Response)
  | .serve session route =>
      App.serve state session ⟨headers, i18nMiddleware state fluent headers nonce, route⟩
  | .loginForm next => do
      return Handler.finish (← (Router.loginForm state
        (i18nMiddleware state fluent headers nonce) next).run)
  | .signupForm => do
      return Handler.finish (← (Router.signupForm (i18nMiddleware state fluent headers nonce)).run)

/-! ### The pages of a handler -/

/-- The pages of the handlers, with what is put into them. -/
inductive IsPage (state : AppState) (nonce : String) : String → Context → Prop
  | login (context : RequestContext) (next : Option String) (msg : String)
      (h : context.cspNonce = nonce) :
      IsPage state nonce "login.html"
        ([("next", match safeNext next with
            | some path => Value.str path
            | none => .none), ("error", .str msg),
          ("dev_login_enabled", .bool state.devLoginEnabled)] ++ baseContext context)
  | signup (context : RequestContext) (msg : String) (h : context.cspNonce = nonce) :
      IsPage state nonce "signup.html" (("error", .str msg) :: baseContext context)
  | index (context : RequestContext) (user : User) (todos : List Todo)
      (h : context.cspNonce = nonce) :
      IsPage state nonce "index.html"
        ([("user", .user user), ("todos", .todos todos)] ++ baseContext context)
  | list (context : RequestContext) (todos : List Todo) (h : context.cspNonce = nonce) :
      IsPage state nonce "partials/todo_list.html"
        (("todos", .todos todos) :: baseContext context)
  | todo (context : RequestContext) (todo : Todo) (h : context.cspNonce = nonce) :
      IsPage state nonce "partials/todo.html" (("todo", .todo todo) :: baseContext context)

/-- The page of a response, if it is one, is one of these. -/
def Shows (state : AppState) (nonce : String) (res : Response) : Prop :=
  ∀ template page, res.body = .html template page → IsPage state nonce template page

/-- The end of a handler, if it is a page, is one of these. -/
def EndsShowing (state : AppState) (nonce : String) (done : Except Halt Response) (_ : Unit) :
    Prop :=
  ∀ res, done = .ok res → Shows state nonce res

section Handlers
variable {nonce : String} {state : AppState} {auth : AuthSession} {context : RequestContext}

theorem endsShowing_error (halt : Halt) (m : Unit) :
    EndsShowing state nonce (.error halt) m := nofun

/-- What is no page, is none of another kind. -/
theorem endsShowing_ok {res : Response} {m : Unit}
    (h : ∀ template page, res.body ≠ .html template page) :
    EndsShowing state nonce (.ok res) m := by
  rintro res' hres' template page hbody
  obtain rfl := Except.ok.inj hres'
  exact absurd hbody (h template page)

theorem renderPage_shows {status : StatusCode} {headers : HeaderMap} {template : String}
    {page : Context} (h : IsPage state nonce template page) :
    Prog.Obeys anything (EndsShowing state nonce) ()
      (renderPage status headers template page).run := by
  apply obeys_renderPage
  · trivial
  · rintro _ _ res hres template' page' hbody
    obtain rfl := Except.ok.inj hres
    obtain ⟨rfl, rfl⟩ := Body.html.inj hbody
    exact h
  · exact fun _ _ => endsShowing_error _ _

theorem redirectTo_shows (uri : String) :
    Prog.Obeys anything (EndsShowing state nonce) () (redirectTo uri).run := by
  unfold redirectTo
  cases HeaderValue.fromStr uri with
  | none => exact endsShowing_error _ _
  | some location => exact endsShowing_ok nofun

theorem redirectAfterForm_shows (headers : HeaderMap) (target : String) :
    Prog.Obeys anything (EndsShowing state nonce) () (redirectAfterForm headers target).run := by
  unfold redirectAfterForm
  split
  · dsimp only
    split
    · exact endsShowing_ok nofun
    · exact endsShowing_ok nofun
  · exact redirectTo_shows target

-- its rule says what it does
attribute [local irreducible] updateLocale localeCookie

theorem login_shows (hnonce : context.cspNonce = nonce) (headers : HeaderMap)
    (creds : Credentials) :
    Prog.Obeys anything (EndsShowing state nonce) () (login state headers context creds).run := by
  unfold login
  dsimp only
  split
  · exact renderPage_shows (.login context creds.next _ hnonce)
  · apply obeys_lift (obeys_anything _)
    rintro done _ _
    match done with
    | .error _ => exact endsShowing_error _ _
    | .ok none => exact renderPage_shows (.login context creds.next _ hnonce)
    | .ok (some user) =>
        refine ⟨trivial, fun reply _ => ?_⟩
        cases reply with
        | error e => exact endsShowing_error _ _
        | ok u => exact redirectAfterForm_shows headers _

theorem signup_shows (hnonce : context.cspNonce = nonce) (headers : HeaderMap) (new : NewUser) :
    Prog.Obeys anything (EndsShowing state nonce) () (signup state headers context new).run := by
  have hform (msg : String) (status : StatusCode) : Prog.Obeys anything (EndsShowing state nonce) ()
      (renderSignupForm context msg status).run :=
    renderPage_shows (.signup context msg hnonce)
  unfold signup
  dsimp only
  split
  · exact hform _ _
  · apply obeys_lift (obeys_anything _)
    rintro done _ _
    match done with
    | .error (.conflict _) => exact hform _ _
    | .error .notFound | .error .invalidCredentials | .error .hashing
    | .error (.database _) | .error (.join _) => exact endsShowing_error _ _
    | .ok user =>
        refine ⟨trivial, fun reply _ => ?_⟩
        cases reply with
        | error e => exact endsShowing_error _ _
        | ok u => exact redirectAfterForm_shows headers _

theorem localeResponse_noPage (headers : HeaderMap) (cookie : HeaderValue) :
    (localeResponse headers cookie).body = .empty := by
  unfold localeResponse
  dsimp only
  split
  · rfl
  · rfl

theorem updateLocale_shows (headers : HeaderMap) (locale : String) :
    Prog.Obeys anything (EndsShowing state nonce) ()
      (updateLocale state auth headers locale).run := by
  have hsettled (m : Unit) (_ : @Done (Except StorageError Unit) (.ok ()) m) : Done () m := trivial
  refine obeys_updateLocale (fun _ => endsShowing_error _ _) (fun _ => trivial)
    (fun _ _ _ => obeys_anything _) hsettled ?_ fun _ _ _ => endsShowing_error _ _
  intro candidate _ _ _
  cases localeCookie state candidate with
  | none => exact endsShowing_error _ _
  | some cookie =>
      apply endsShowing_ok
      intro template page hbody
      rw [localeResponse_noPage] at hbody
      cases hbody

/-- Every page of a handler is one of these, with the nonce of its request. -/
theorem handle_shows (auth : AuthSession) {request : Request}
    (hnonce : request.context.cspNonce = nonce) :
    Prog.Obeys anything (EndsShowing state nonce) () (handle state auth request).run := by
  obtain ⟨headers, context, route⟩ := request
  cases route with
  | index =>
      apply obeys_index
      · exact fun _ => redirectTo_shows "/login"
      · exact fun _ _ => obeys_anything _
      · exact fun user todos _ _ _ => renderPage_shows (.index _ user todos hnonce)
      · exact fun _ _ _ => endsShowing_error _ _
  | list =>
      apply obeys_list
      · exact fun _ => endsShowing_error _ _
      · exact fun _ _ => obeys_anything _
      · exact fun user todos _ _ _ => renderPage_shows (.list _ todos hnonce)
      · exact fun _ _ _ => endsShowing_error _ _
  | create new =>
      apply obeys_create
      · exact fun _ => endsShowing_error _ _
      · exact fun _ => endsShowing_error _ _
      · exact fun _ _ => obeys_anything _
      · exact fun _ _ _ _ _ => obeys_anything _
      · exact fun user todo _ _ _ => renderPage_shows (.todo _ todo hnonce)
      · exact fun _ _ _ => endsShowing_error _ _
  | toggle id =>
      apply obeys_toggle
      · exact fun _ => endsShowing_error _ _
      · exact fun _ _ => obeys_anything _
      · exact fun _ _ _ _ _ => obeys_anything _
      · exact fun user todo _ _ _ => renderPage_shows (.todo _ todo hnonce)
      · exact fun _ _ _ => endsShowing_error _ _
  | delete id =>
      apply obeys_delete
      · exact fun _ => endsShowing_error _ _
      · exact fun _ _ => obeys_anything _
      · exact fun _ _ _ _ => obeys_anything _
      · exact fun _ _ => endsShowing_ok nofun
      · exact fun _ _ _ => endsShowing_error _ _
  | updateLocale locale => exact updateLocale_shows headers locale
  | login creds => exact login_shows hnonce headers creds
  | signup new => exact signup_shows hnonce headers new

/-- After `into_response` an error is a text. -/
theorem finish_shows {done : Except Halt Response} (h : EndsShowing state nonce done ())
    {res : Response} (hres : Handler.finish done = .ok res) : Shows state nonce res := by
  match done with
  | .ok res' => exact h res (congrArg Except.ok (Except.ok.inj hres))
  | .error (.error e) =>
      obtain rfl := Except.ok.inj hres
      exact nofun
  | .error (.panic message) => cases hres

theorem action_shows (state : AppState) (fluent : I18n.FluentLangneg) (headers : HeaderMap)
    (nonce : String) (request : PageRequest) :
    Prog.Obeys anything (fun done _ => ∀ res, done = .ok res → Shows state nonce res) ()
      (request.action state fluent headers nonce) := by
  cases request with
  | serve session route =>
      apply (obeys_anything _).bind
      intro auth _ _
      cases auth with
      | error e =>
          intro res hres
          obtain rfl := Except.ok.inj hres
          exact nofun
      | ok auth =>
          apply (handle_shows auth rfl).bind
          exact fun done _ hdone res hres => finish_shows hdone hres
  | loginForm next =>
      apply (renderPage_shows (.login _ next _ rfl)).bind
      exact fun done _ hdone res hres => finish_shows hdone hres
  | signupForm =>
      apply (renderPage_shows (.signup _ _ rfl)).bind
      exact fun done _ hdone res hres => finish_shows hdone hres

end Handlers

end TodoRust.Router
