import TodoRust.Router.Endpoints

/-!
# The headers a handler writes

A handler answers with a page, a redirect or an error, and few header lines come with
any of these. What it does before that does not matter here, so the monitor below
permits everything.
-/

namespace TodoRust.Router
open Lib Domain Storage App Rust

/-- The names of the lines a handler writes. -/
def handlerHeaders : List String :=
  ["content-type", "location", "set-cookie", "hx-redirect", "hx-refresh", "hx-retarget",
    "hx-reswap"]

/-- Every effect is permitted. -/
def anything : Monitor Effect Effect.Reply Unit where
  allows _ _ := True
  answers _ _ _ := True
  next _ _ _ := ()

/-- Nothing is asked of a part of a handler. -/
def Done {α : Type} (_ : α) (_ : Unit) : Prop := True

theorem obeys_anything {α : Type} (p : Action α) : Prog.Obeys anything Done () p :=
  Prog.Obeys.of_allows (fun _ _ => trivial) () p

/-- Every line is one a handler writes. -/
def OfHandler (headers : HeaderMap) : Prop := headers.map Prod.fst ⊆ handlerHeaders

/-- The response, if it is one, has the lines of a handler only. -/
def WritesOwn (done : Except String Response) : Prop :=
  ∀ res, done = .ok res → OfHandler res.headers

/-- The end of a handler has the lines of a handler only. -/
def EndsOwn (done : Except Halt Response) (_ : Unit) : Prop := WritesOwn (Handler.finish done)

theorem OfHandler.getAll {headers : HeaderMap} (h : OfHandler headers) {name : String}
    (hname : name ∉ handlerHeaders) : headers.getAll name = [] := by
  rw [HeaderMap.getAll, List.map_eq_nil_iff, List.filter_eq_nil_iff]
  intro line hline heq
  have hmem : line.1 ∈ handlerHeaders := h (List.mem_map_of_mem hline)
  exact hname (beq_iff_eq.mp heq ▸ hmem)

/-- The names of a response decide. -/
theorem writesOwn_ok {res : Response} (names : List String)
    (hres : res.headers.map Prod.fst = names) (hnames : names ⊆ handlerHeaders) :
    WritesOwn (.ok res) := by
  intro res' hres'
  rw [← Except.ok.inj hres', OfHandler, hres]
  exact hnames

theorem writesOwn_error (e : AppError) : WritesOwn (.ok e.intoResponse) :=
  writesOwn_ok ["content-type"] rfl (by decide)

theorem writesOwn_status (status : StatusCode) : WritesOwn (.ok (StatusCode.intoResponse status)) :=
  writesOwn_ok [] rfl (by decide)

theorem writesOwn_text (status : StatusCode) (text : String) :
    WritesOwn (.ok (textResponse status text)) :=
  writesOwn_ok ["content-type"] rfl (by decide)

theorem renderPage_writesOwn {status : StatusCode} {headers : HeaderMap} {template : String}
    {context : Context} (h : OfHandler headers) :
    Prog.Obeys anything EndsOwn () (renderPage status headers template context).run := by
  apply obeys_renderPage
  · trivial
  · intro r _
    refine writesOwn_ok _ rfl ?_
    exact List.cons_subset.mpr ⟨by decide, h⟩
  · exact fun _ _ => writesOwn_error .template

theorem ofHandler_nil : OfHandler [] := List.nil_subset _

theorem ofHandler_hxFullSwap : OfHandler hxFullSwap := by
  show ["hx-retarget", "hx-reswap"] ⊆ handlerHeaders
  decide

theorem redirectTo_writesOwn (uri : String) :
    Prog.Obeys anything EndsOwn () (redirectTo uri).run := by
  unfold redirectTo
  cases HeaderValue.fromStr uri with
  | none =>
      intro res hres
      cases hres
  | some location => exact writesOwn_ok ["location"] rfl (by decide)

theorem redirectAfterForm_writesOwn (headers : HeaderMap) (target : String) :
    Prog.Obeys anything EndsOwn () (redirectAfterForm headers target).run := by
  unfold redirectAfterForm
  split
  · dsimp only
    split
    · exact writesOwn_ok ["hx-redirect"] rfl (by decide)
    · exact writesOwn_status StatusCode.ok
  · exact redirectTo_writesOwn target

section Handlers
variable {state : AppState} {auth : AuthSession} {context : RequestContext}

-- its rule says what it does
attribute [local irreducible] updateLocale localeCookie

theorem login_writesOwn (headers : HeaderMap) (creds : Credentials) :
    Prog.Obeys anything EndsOwn () (login state headers context creds).run := by
  unfold login
  dsimp only
  split
  · exact renderPage_writesOwn ofHandler_hxFullSwap
  · apply obeys_lift (obeys_anything _)
    rintro done _ _
    match done with
    | .error _ => exact writesOwn_error _
    | .ok none => exact renderPage_writesOwn ofHandler_hxFullSwap
    | .ok (some user) =>
        refine ⟨trivial, fun reply _ => ?_⟩
        cases reply with
        | error e => exact writesOwn_error _
        | ok u => exact redirectAfterForm_writesOwn headers _

theorem signup_writesOwn (headers : HeaderMap) (new : NewUser) :
    Prog.Obeys anything EndsOwn () (signup state headers context new).run := by
  unfold signup
  dsimp only
  split
  · exact renderPage_writesOwn ofHandler_hxFullSwap
  · apply obeys_lift (obeys_anything _)
    rintro done _ _
    match done with
    | .error (.conflict _) => exact renderPage_writesOwn ofHandler_hxFullSwap
    | .error .notFound | .error .invalidCredentials | .error .hashing
    | .error (.database _) | .error (.join _) => exact writesOwn_error _
    | .ok user =>
        refine ⟨trivial, fun reply _ => ?_⟩
        cases reply with
        | error e => exact writesOwn_error _
        | ok u => exact redirectAfterForm_writesOwn headers _

theorem localeResponse_writesOwn (headers : HeaderMap) (cookie : HeaderValue) :
    WritesOwn (.ok (localeResponse headers cookie)) := by
  unfold localeResponse
  dsimp only
  split
  · exact writesOwn_ok ["set-cookie", "hx-refresh"] rfl (by decide)
  · exact writesOwn_ok ["set-cookie", "location"] rfl (by decide)

theorem updateLocale_writesOwn (headers : HeaderMap) (locale : String) :
    Prog.Obeys anything EndsOwn () (updateLocale state auth headers locale).run := by
  have hsettled (m : Unit) (_ : @Done (Except StorageError Unit) (.ok ()) m) : Done () m := trivial
  refine obeys_updateLocale (fun _ => writesOwn_error _) (fun _ => trivial)
    (fun _ _ _ => obeys_anything _) hsettled ?_ fun _ _ _ => writesOwn_error _
  intro candidate _ _ _
  cases localeCookie state candidate with
  | none =>
      intro res hres
      cases hres
  | some cookie => exact localeResponse_writesOwn headers cookie

theorem handle_writesOwn (auth : AuthSession) (request : Request) :
    Prog.Obeys anything EndsOwn () (handle state auth request).run := by
  obtain ⟨headers, context, route⟩ := request
  cases route with
  | index =>
      apply obeys_index
      · exact fun _ => redirectTo_writesOwn "/login"
      · exact fun _ _ => obeys_anything _
      · exact fun _ _ _ _ _ => renderPage_writesOwn ofHandler_nil
      · exact fun _ _ _ => writesOwn_error _
  | list =>
      apply obeys_list
      · exact fun _ => writesOwn_error _
      · exact fun _ _ => obeys_anything _
      · exact fun _ _ _ _ _ => renderPage_writesOwn ofHandler_nil
      · exact fun _ _ _ => writesOwn_error _
  | create new =>
      apply obeys_create
      · exact fun _ => writesOwn_error _
      · exact fun _ => writesOwn_error _
      · exact fun _ _ => obeys_anything _
      · exact fun _ _ _ _ _ => obeys_anything _
      · exact fun _ _ _ _ _ => renderPage_writesOwn ofHandler_nil
      · exact fun _ _ _ => writesOwn_error _
  | toggle id =>
      apply obeys_toggle
      · exact fun _ => writesOwn_error _
      · exact fun _ _ => obeys_anything _
      · exact fun _ _ _ _ _ => obeys_anything _
      · exact fun _ _ _ _ _ => renderPage_writesOwn ofHandler_nil
      · exact fun _ _ _ => writesOwn_error _
  | delete id =>
      apply obeys_delete
      · exact fun _ => writesOwn_error _
      · exact fun _ _ => obeys_anything _
      · exact fun _ _ _ _ => obeys_anything _
      · exact fun _ _ => writesOwn_status StatusCode.ok
      · exact fun _ _ _ => writesOwn_error _
  | updateLocale locale => exact updateLocale_writesOwn headers locale
  | login creds => exact login_writesOwn headers creds
  | signup new => exact signup_writesOwn headers new

theorem autoLogin_writesOwn (enabledEmail : Option String) :
    Prog.Obeys anything EndsOwn () (autoLogin enabledEmail).run := by
  cases enabledEmail with
  | none => exact writesOwn_error _
  | some email =>
      apply obeys_call (obeys_anything _)
      · intro user _ _
        cases user with
        | none => exact writesOwn_error _
        | some user =>
            refine ⟨trivial, fun reply _ => ?_⟩
            cases reply with
            | error e => exact writesOwn_error _
            | ok u => exact redirectTo_writesOwn "/"
      · exact fun _ _ _ => writesOwn_error _

theorem serve_writesOwn (session : Option Session) (request : Request) :
    Prog.Obeys anything (fun done _ => WritesOwn done) () (serve state session request) := by
  apply (obeys_anything _).bind
  intro auth _ _
  cases auth with
  | error e => exact writesOwn_status StatusCode.internalServerError
  | ok auth =>
      apply (handle_writesOwn auth request).bind
      exact fun done _ hdone => hdone

end Handlers

/-- What a program obeys holds of its result in every world. -/
theorem run_obeys {α : Type} {post : α → Unit → Prop} {p : Action α}
    (h : Prog.Obeys anything post () p) (services : Services) (cs : Nat → Choice) (w : World) :
    post (p.run (act services) cs w).1 () := by
  obtain ⟨_, hpost⟩ := Prog.Obeys.result (fun _ _ _ _ _ => trivial) h cs w
  exact hpost

theorem Ends.writesOwn {state : AppState} {enabledEmail : Option String} {endpoint : Endpoint}
    {done : Except String Response} (h : Ends state enabledEmail endpoint done) :
    WritesOwn done := by
  cases h with
  | serve session request services cs w =>
      exact run_obeys (serve_writesOwn session request) services cs w
  | loginForm context next services cs w =>
      exact run_obeys (renderPage_writesOwn ofHandler_nil) services cs w
  | signupForm context services cs w =>
      exact run_obeys (renderPage_writesOwn ofHandler_nil) services cs w
  | logout headers flushed services cs w =>
      cases flushed with
      | error e => exact writesOwn_error _
      | ok u => exact run_obeys (redirectAfterForm_writesOwn headers "/login") services cs w
  | autoLogin services cs w => exact run_obeys (autoLogin_writesOwn enabledEmail) services cs w
  | preview _ preview =>
      cases preview with
      | error e => exact writesOwn_error e
      | ok html => exact writesOwn_ok ["content-type"] rfl (by decide)
  | liveness => exact writesOwn_text _ _
  | readiness ping =>
      cases ping with
      | error e => exact writesOwn_text _ _
      | ok u => exact writesOwn_text _ _
  | metrics rendered => exact writesOwn_ok ["content-type"] rfl (by decide)
  | rejected _ status text => exact writesOwn_text _ _
  | limited => exact writesOwn_text _ _
  | sessionFailed => exact writesOwn_status StatusCode.internalServerError

end TodoRust.Router
