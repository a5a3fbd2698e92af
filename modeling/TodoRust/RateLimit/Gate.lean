import TodoRust.App.Effects
import TodoRust.Lib.Pool
import TodoRust.Middleware.I18n
import TodoRust.RateLimit.ClientIp
import TodoRust.RateLimit.Concurrent
import TodoRust.Router.Endpoints

/-!
# Requests behind the limiter

A request of the site as one program: its session is loaded, the limiter in front of the
login and signup routes reads the clock and takes the mutex, and the handler runs if it is
admitted. A request checks one password at most, and none before it is admitted.
-/

namespace TodoRust.RateLimit
open Lib Domain Storage App Rust Middleware Router

/-! ### The programs -/

/-- The effects of the limiter, and those of everything else. -/
inductive GateEffect
  | sample
  | check (ip : IpAddr) (now : Instant)
  | inner (e : Effect)

@[reducible] def GateEffect.Reply : GateEffect → Type
  | .sample => Instant
  | .check .. => Bool
  | .inner e => e.Reply

abbrev GateAction (α : Type) := Prog GateEffect GateEffect.Reply α

/-- A computation that has nothing to do with the limiter. -/
def gated {α : Type} : Action α → GateAction α
  | .ret a => .ret a
  | .op e k => .op (.inner e) fun r => gated (k r)

/-- The handlers behind the layer that loads the session's user. -/
inductive Page
  | route (route : Route)
  | loginForm (next : Option String)
  | signupForm
  | logout (flushed : Except String Unit)
  | autoLogin

def Page.endpoint : Page → Endpoint
  | .route of => endpointOf of
  | .loginForm _ => .loginForm
  | .signupForm => .signupForm
  | .logout _ => .logout
  | .autoLogin => .autoLogin

def Page.handler (state : AppState) (enabledEmail : Option String) (auth : AuthSession)
    (headers : HeaderMap) (context : RequestContext) : Page → Handler Response
  | .route of => handle state auth ⟨headers, context, of⟩
  | .loginForm next => Router.loginForm state context next
  | .signupForm => Router.signupForm context
  | .logout flushed => App.logout headers flushed
  | .autoLogin => Router.autoLogin enabledEmail

/-- A request as it reaches the API: the peer, the header lines, and what the layers
outside the limiter have made of it. -/
structure GateRequest where
  conn : Option IpAddr
  headers : HeaderMap
  cspNonce : String
  session : Option Session
  page : Page

/-- `rate_limit_middleware` in front of the rest of the stack. -/
def RateLimiter.middleware (limiter : RateLimiter) (conn : Option IpAddr) (headers : HeaderMap)
    (next : GateAction (Except String Response)) : GateAction (Except String Response) :=
  if !limiter.enabled then next
  else
    .op .sample fun now =>
      .op (.check (limiter.clientIp conn headers) now) fun admitted =>
        if admitted then next
        else .ret (.ok (textResponse StatusCode.tooManyRequests "too many requests"))

/-- `login_limiter` of `build_router`. -/
def loginLimiter (trustForwardedFor enabled : Bool) : RateLimiter :=
  { RateLimiter.new (5 / 60) 5 with trustForwardedFor, enabled }

section Requests
variable (state : AppState) (fluent : I18n.FluentLangneg) (enabledEmail : Option String)

/-- The handler of a request, behind the session and before the limiter. -/
def GateRequest.handled (request : GateRequest) (auth : AuthSession) :
    Action (Except String Response) := do
  let context := i18nMiddleware state fluent request.headers request.cspNonce
  return Handler.finish
    (← (request.page.handler state enabledEmail auth request.headers context).run)

/-- One request. Only the routes of `auth_endpoints` are behind the limiter. -/
def GateRequest.prog (limiter : RateLimiter) (request : GateRequest) :
    GateAction (Except String Response) :=
  gated (AuthSession.fromSession request.session).run >>= fun
    | .error _ => .ret (.ok (StatusCode.intoResponse StatusCode.internalServerError))
    | .ok auth =>
        let next := gated (request.handled state fluent enabledEmail auth)
        if request.page.endpoint ∈ limited then
          limiter.middleware request.conn request.headers next
        else next

end Requests

/-! ### How a request passes the gate -/

/-- A password that is tried on an account. -/
def IsGuess : Effect → Prop
  | .verifyPassword .. => True
  | _ => False

/-- How far a request has come, with its address and the reading of the clock. -/
inductive Stage
  | idle
  | outside (ip : IpAddr)
  | sampled (ip : IpAddr) (now : Instant)
  | refused (ip : IpAddr) (now : Instant)
  | admitted (ip : IpAddr) (now : Instant)
  | guessed (ip : IpAddr) (now : Instant)

def Stage.allows : Stage → GateEffect → Prop
  | .outside _, .sample => True
  | .outside _, .inner e => ¬ IsGuess e
  | .sampled ip now, e => e = .check ip now
  | .admitted .., .inner _ => True
  | .guessed .., .inner e => ¬ IsGuess e
  | _, _ => False

def Stage.next : Stage → (e : GateEffect) → e.Reply → Stage
  | .outside ip, .sample, now => .sampled ip now
  | .sampled ip now, .check .., passes => if passes then .admitted ip now else .refused ip now
  | .admitted ip now, .inner (.verifyPassword ..), _ => .guessed ip now
  | m, _, _ => m

/-- A guess comes after an admission, and is the only one. -/
def gate : Monitor GateEffect GateEffect.Reply Stage where
  allows := Stage.allows
  answers _ _ _ := True
  next := Stage.next

/-- What the gate sees of a computation behind it. -/
def behind : Monitor Effect Effect.Reply Stage where
  allows m e := m.allows (.inner e)
  answers _ _ _ := True
  next m e r := m.next (.inner e) r

theorem gated_obeys {α : Type} {post : α → Stage → Prop} {m : Stage} {p : Action α}
    (hp : Prog.Obeys behind post m p) : Prog.Obeys gate post m (gated p) := by
  induction p generalizing m with
  | ret a => exact hp
  | op e k ih => exact ⟨hp.1, fun r _ => ih r (hp.2 r trivial)⟩

/-- The stages in which a handler runs. -/
inductive Stage.Serves : Stage → Prop
  | outside (ip : IpAddr) : Serves (.outside ip)
  | admitted (ip : IpAddr) (now : Instant) : Serves (.admitted ip now)
  | guessed (ip : IpAddr) (now : Instant) : Serves (.guessed ip now)

/-- Without a guess the stage stays. -/
theorem Stage.Serves.stays {m : Stage} (hm : m.Serves) {e : Effect} (he : ¬ IsGuess e) :
    behind.allows m e ∧ ∀ r, behind.next m e r = m := by
  cases hm with
  | outside ip => exact ⟨he, fun _ => rfl⟩
  | guessed ip now => exact ⟨he, fun _ => rfl⟩
  | admitted ip now =>
      refine ⟨trivial, ?_⟩
      cases e with
      | verifyPassword => exact absurd trivial he
      | _ => exact fun _ => rfl

/-- Nothing is asked of the stage at the end. -/
def Somewhere {α : Type} (_ : α) (_ : Stage) : Prop := True

theorem guessless_obeys {α : Type} {allowed : Effect → Prop} {post : α → Unit → Prop} {u : Unit}
    {m : Stage} {p : Action α} (hm : m.Serves) (hallowed : ∀ e, allowed e → ¬ IsGuess e)
    (hp : Prog.Obeys (.permitting allowed) post u p) : Prog.Obeys behind Somewhere m p :=
  (hp.stays fun e he => hm.stays (hallowed e he)).mono fun _ _ _ => trivial

section Handlers
variable {state : AppState} {auth : AuthSession} {context : RequestContext} {m : Stage}

/-- Of all routes, only the login guesses. -/
theorem performs_guessless {route : Route} (hroute : ∀ creds, route ≠ .login creds) :
    ∀ e, Performs auth route e → ¬ IsGuess e := by
  intro e he hguess
  cases he with
  | verify creds hash => exact hroute creds rfl
  | _ => exact hguess

/-- A handler that does not even need a user. -/
theorem anonymous_guessless (hm : m.Serves) {handler : Handler Response}
    (h : Prog.Obeys (.permitting (Performs ⟨none⟩ .index)) Whatever () handler.run) :
    Prog.Obeys behind Somewhere m handler.run :=
  guessless_obeys hm (performs_guessless (by simp)) h

theorem login_guesses_once {ip : IpAddr} {now : Instant} (headers : HeaderMap)
    (creds : Credentials) :
    Prog.Obeys behind Somewhere (.admitted ip now) (login state headers context creds).run := by
  have hverify : Prog.Obeys behind (fun _ m => m.Serves) (.admitted ip now)
      (UserRepository.verify creds.email creds.password).run := by
    rw [UserRepository.verify_program]
    refine ⟨trivial, fun r _ => ?_⟩
    cases r with
    | error e => exact Stage.Serves.admitted ip now
    | ok row => exact ⟨trivial, fun _ _ => Stage.Serves.guessed ip now⟩
  unfold login
  dsimp only
  split
  · exact anonymous_guessless (.admitted ip now) renderPage_performs
  · apply obeys_lift hverify
    -- what follows guesses no more, whether the check was reached or not
    intro done m hm
    match done with
    | .error _ => trivial
    | .ok none => exact anonymous_guessless hm renderPage_performs
    | .ok (some user) =>
        have hsession : ¬ IsGuess (.sessionLogin user) := id
        refine ⟨(hm.stays hsession).1, fun reply _ => ?_⟩
        rw [(hm.stays hsession).2]
        cases reply with
        | error e => trivial
        | ok u => exact anonymous_guessless hm (redirectAfterForm_performs headers _)

theorem autoLogin_guessless (enabledEmail : Option String) (hm : m.Serves) :
    Prog.Obeys behind Somewhere m (Router.autoLogin enabledEmail).run := by
  cases enabledEmail with
  | none => trivial
  | some email =>
      unfold Router.autoLogin
      simp only [Handler.run_call_bind, UserRepository.findByEmail_program, Prog.op_bind,
        Prog.ret_bind]
      have hselect : ¬ IsGuess (.sql (.selectUserByEmail (trim email))) := id
      refine ⟨(hm.stays hselect).1, fun r _ => ?_⟩
      rw [(hm.stays hselect).2]
      match r with
      | .error e => trivial
      | .ok none => trivial
      | .ok (some row) =>
          have hsession : ¬ IsGuess (.sessionLogin (rowToUser row)) := id
          refine ⟨(hm.stays hsession).1, fun reply _ => ?_⟩
          rw [(hm.stays hsession).2]
          cases reply with
          | error e => trivial
          | ok u => exact anonymous_guessless hm (redirectTo_performs "/")

/-- Behind the limiter a handler guesses once at most, and elsewhere it does not. -/
theorem handled_obeys (fluent : I18n.FluentLangneg) (enabledEmail : Option String)
    (request : GateRequest) (hm : m.Serves)
    (hlimited : request.page.endpoint ∈ limited → ∃ ip now, m = .admitted ip now) :
    Prog.Obeys behind Somewhere m (request.handled state fluent enabledEmail auth) := by
  obtain ⟨conn, headers, nonce, session, page⟩ := request
  have hpage : Prog.Obeys behind Somewhere m
      (page.handler state enabledEmail auth headers
        (i18nMiddleware state fluent headers nonce)).run := by
    cases page with
    | loginForm next => exact anonymous_guessless hm renderPage_performs
    | signupForm => exact anonymous_guessless hm renderPage_performs
    | logout flushed =>
        cases flushed with
        | error e => trivial
        | ok u => exact anonymous_guessless hm (redirectAfterForm_performs headers "/login")
    | autoLogin => exact autoLogin_guessless enabledEmail hm
    | route route =>
        have hother (h : ∀ creds, route ≠ .login creds) : Prog.Obeys behind Somewhere m
            (handle state auth ⟨headers, i18nMiddleware state fluent headers nonce, route⟩).run :=
          guessless_obeys hm (performs_guessless h) (handle_performs state auth
            ⟨headers, i18nMiddleware state fluent headers nonce, route⟩)
        cases route with
        | login creds =>
            obtain ⟨ip, now, rfl⟩ := hlimited (by simp [Page.endpoint, endpointOf, limited])
            exact login_guesses_once headers creds
        | _ => exact hother (by simp)
  exact hpage.bind fun _ _ _ => trivial

end Handlers

/-- A request of an address goes through the gate as one. -/
theorem request_obeys (state : AppState) (fluent : I18n.FluentLangneg)
    (enabledEmail : Option String) {limiter : RateLimiter} (henabled : limiter.enabled = true)
    (request : GateRequest) :
    Prog.Obeys gate Somewhere (.outside (limiter.clientIp request.conn request.headers))
      (request.prog state fluent enabledEmail limiter) := by
  have hloaded : Prog.Obeys gate
      (fun _ m => m = .outside (limiter.clientIp request.conn request.headers))
      (.outside (limiter.clientIp request.conn request.headers))
      (gated (AuthSession.fromSession request.session).run) := by
    apply gated_obeys
    apply (fromSession_performs request.session).stays
    rintro e ⟨data, -, rfl⟩
    exact (Stage.Serves.outside _).stays id
  refine hloaded.bind fun loaded m hm => ?_
  subst hm
  cases loaded with
  | error e => trivial
  | ok auth =>
      dsimp only
      split
      · rw [RateLimiter.middleware, henabled]
        refine ⟨trivial, fun now _ => ⟨rfl, fun admitted _ => ?_⟩⟩
        cases admitted with
        | false => trivial
        | true =>
            exact gated_obeys (handled_obeys fluent enabledEmail request (.admitted _ now)
              fun _ => ⟨_, now, rfl⟩)
      · rename_i hopen
        exact gated_obeys (handled_obeys fluent enabledEmail request (.outside _)
          fun h => absurd h hopen)

end TodoRust.RateLimit
