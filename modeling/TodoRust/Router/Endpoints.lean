import TodoRust.App.Rules

/-!
# The endpoints outside the static tree

Every handler the router knows, with what it can end in. What the extractors, the
rate limit and the session layer answer in its place is listed with it.
-/

namespace TodoRust.Router
open Lib Domain Storage App Rust

inductive Endpoint
  | index
  | list
  | create
  | toggle
  | delete
  | updateLocale
  | loginForm
  | login
  | signupForm
  | signup
  | logout
  | autoLogin
  | previewIndex
  | previewRender
  | liveness
  | readiness
  | metrics
  deriving DecidableEq

/-- The routes of `build_router`: pattern, method and handler. Some exist in debug
builds only. -/
def endpoints (debugAssertions : Bool) : List (String × String × Endpoint) :=
  [("/login", "GET", .loginForm), ("/login", "POST", .login), ("/signup", "GET", .signupForm),
    ("/signup", "POST", .signup), ("/", "GET", .index), ("/logout", "POST", .logout),
    ("/todos", "GET", .list), ("/todos", "POST", .create), ("/todos/:id/toggle", "POST", .toggle),
    ("/todos/:id", "DELETE", .delete), ("/preferences/locale", "POST", .updateLocale)] ++
  (if debugAssertions then
    [("/dev/login", "POST", .autoLogin), ("/__preview", "GET", .previewIndex),
      ("/__preview/render/*path", "GET", .previewRender)]
  else []) ++
  [("/healthz", "GET", .liveness), ("/readyz", "GET", .readiness), ("/metrics", "GET", .metrics)]

/-! ### Handlers that only show a form or log in -/

section Handlers
variable (state : AppState)

/-- `GET /login` -/
def loginForm (request : RequestContext) (next : Option String) : Handler Response :=
  let nextValue := match safeNext next with
    | some path => Value.str path
    | none => .none
  renderPage StatusCode.ok [] "login.html"
    ([("next", nextValue), ("error", .str ""),
      ("dev_login_enabled", .bool state.devLoginEnabled)] ++ baseContext request)

/-- `GET /signup` -/
def signupForm (request : RequestContext) : Handler Response :=
  renderPage StatusCode.ok [] "signup.html" (("error", .str "") :: baseContext request)

/-- `POST /dev/login`, for the email that is enabled. -/
def autoLogin (enabledEmail : Option String) : Handler Response :=
  match enabledEmail with
  | none => Handler.fail .notFound
  | some email => do
      match ← Handler.call (UserRepository.findByEmail email) with
      | none => Handler.fail (.internal ("dev user " ++ email ++ " missing from db"))
      | some user =>
          match ← ExceptT.lift (AuthSession.login user) with
          | .error e => Handler.fail (.internal ("dev session login failed: " ++ e))
          | .ok () => redirectTo "/"

/-- A status with a text. -/
def textResponse (status : StatusCode) (text : String) : Response :=
  ⟨status, [("content-type", contentTypePlain)], .text text⟩

/-- `GET /healthz` -/
def liveness : Response := textResponse StatusCode.ok "ok"

/-- `GET /readyz`, when the database has answered. -/
def readiness (ping : Except String Unit) : Response :=
  match ping with
  | .ok () => textResponse StatusCode.ok "ready"
  | .error _ => textResponse StatusCode.serviceUnavailable "not ready"

/-- `GET /metrics` -/
def metrics (rendered : String) : Response :=
  ⟨StatusCode.ok, [("content-type", ⟨asBytes "text/plain; version=0.0.4", by decide⟩)],
    .text rendered⟩

end Handlers

/-- The endpoint of a route. -/
def endpointOf : Route → Endpoint
  | .index => .index
  | .list => .list
  | .create _ => .create
  | .toggle _ => .toggle
  | .delete _ => .delete
  | .updateLocale _ => .updateLocale
  | .login _ => .login
  | .signup _ => .signup

/-- The endpoints behind the rate limit. -/
def limited : List Endpoint := [.loginForm, .login, .signupForm, .signup]

/-- The end of a handler that is run. -/
def ended (services : Services) (handler : Handler Response) (cs : Nat → Choice) (w : World) :
    Except String Response :=
  Handler.finish (handler.run.run (act services) cs w).1

/-- What an endpoint can end in, in some world and with some choices. -/
inductive Ends (state : AppState) (enabledEmail : Option String) :
    Endpoint → Except String Response → Prop
  | serve (session : Option Session) (request : Request) (services : Services)
      (cs : Nat → Choice) (w : World) :
      Ends state enabledEmail (endpointOf request.route)
        ((serve state session request).run (act services) cs w).1
  | loginForm (context : RequestContext) (next : Option String) (services : Services)
      (cs : Nat → Choice) (w : World) :
      Ends state enabledEmail .loginForm (ended services (loginForm state context next) cs w)
  | signupForm (context : RequestContext) (services : Services) (cs : Nat → Choice) (w : World) :
      Ends state enabledEmail .signupForm (ended services (signupForm context) cs w)
  | logout (headers : HeaderMap) (flushed : Except String Unit) (services : Services)
      (cs : Nat → Choice) (w : World) :
      Ends state enabledEmail .logout (ended services (logout headers flushed) cs w)
  | autoLogin (services : Services) (cs : Nat → Choice) (w : World) :
      Ends state enabledEmail .autoLogin (ended services (autoLogin enabledEmail) cs w)
  /-- The preview ends in a page or an error. -/
  | preview {endpoint : Endpoint} (h : endpoint ∈ [Endpoint.previewIndex, .previewRender])
      (done : Except AppError String) :
      Ends state enabledEmail endpoint (.ok (match done with
        | .ok html => ⟨StatusCode.ok, [("content-type", contentTypeHtml)], .text html⟩
        | .error e => e.intoResponse))
  | liveness : Ends state enabledEmail .liveness (.ok liveness)
  | readiness (ping : Except String Unit) :
      Ends state enabledEmail .readiness (.ok (readiness ping))
  | metrics (rendered : String) : Ends state enabledEmail .metrics (.ok (metrics rendered))
  /-- An extractor rejects the request. -/
  | rejected (endpoint : Endpoint) (status : StatusCode) (text : String) :
      Ends state enabledEmail endpoint (.ok (textResponse status text))
  | limited {endpoint : Endpoint} (h : endpoint ∈ limited) :
      Ends state enabledEmail endpoint
        (.ok (textResponse StatusCode.tooManyRequests "too many requests"))
  /-- The session cannot be loaded or saved. -/
  | sessionFailed (endpoint : Endpoint) :
      Ends state enabledEmail endpoint
        (.ok (StatusCode.intoResponse StatusCode.internalServerError))

end TodoRust.Router
