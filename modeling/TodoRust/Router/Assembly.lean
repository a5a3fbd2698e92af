import TodoRust.Middleware.HttpMetrics
import TodoRust.Router.Layers
import TodoRust.Router.Headers
import TodoRust.StaticFiles.Agreement

/-!
# The assembled router

A request is routed by the path it was sent with. The layers stand around every
route, the fallback included, so what they change of the request is seen by the
service behind the route only.
-/

namespace TodoRust.Router
open Lib App Rust StaticFiles

/-! ### The static tree -/

/-- The statuses a file is sent with, whole, in part, or not again. -/
def fileStatuses : List StatusCode :=
  [StatusCode.ok, StatusCode.partialContent, StatusCode.notModified]

/-- `ServeDir`: a request opens the file its path names, or a precompressed form of
it, and the file is sent if the request reads and its conditions and range are met. -/
structure ServeDir (disk : Disk) where
  call : FileRequest → FileResponse
  opens : FileRequest → Option String
  unmet : FileRequest → Prop
  sends_iff : ∀ request, (call request).status ∈ fileStatuses ↔
    request.method ∈ servedMethods ∧ (∃ path ∈ opens request, (disk path).isSome = true) ∧
      ¬ unmet request

/-- What a deployment brings to the router. -/
structure Deployment where
  state : AppState
  debugAssertions : Bool
  enabledEmail : Option String
  assets : Assets
  order : IterationOrder
  mimeGuess : String → Option HeaderValue
  disk : Disk
  serveDir : ServeDir disk
  compression : Compression
  makeRequestId : HttpRequest → Option HeaderValue
  gitSha : HeaderValue

/-- The paths of `nest_service("/static", …)`. -/
def isStatic (path : String) : Bool := path = "/static" || startsWith path "/static/".toList

/-- What `nest_service` leaves of a path. -/
def stripStatic (path : String) : String :=
  if startsWith path "/static".toList then
    let rest := path.toList.drop "/static".length
    if ['/'].isPrefixOf rest then String.ofList rest else String.ofList ('/' :: rest)
  else path

/-- The request as the static service gets it. -/
def staticRequest (request : HttpRequest) : FileRequest :=
  { request with path := stripStatic request.path }

def Deployment.staticAnswer (d : Deployment) (request : HttpRequest) : FileResponse :=
  staticService d.mimeGuess d.assets d.order d.disk d.serveDir.call (staticRequest request)

/-! ### Routes -/

inductive Dispatch
  | static
  | endpoint (endpoint : Endpoint)
  | methodNotAllowed
  | fallback

/-- The handler a method and a path lead to; `HEAD` goes where `GET` does. -/
def dispatch (debugAssertions : Bool) (method path : String) : Dispatch :=
  if isStatic path then .static
  else match Middleware.matchedPath debugAssertions path with
    | none => .fallback
    | some pattern =>
        let method := if method = "HEAD" then "GET" else method
        match (endpoints debugAssertions).find? fun e => e.1 == pattern && e.2.1 == method with
        | some e => .endpoint e.2.2
        | none => .methodNotAllowed

/-- What the layers of the API add to a response: a session cookie, if one is due,
and the policy with its nonce. -/
def decorate (cookie : Option HeaderValue) (csp : Option HeaderValue) (res : Response) : Response :=
  let headers := res.headers ++ (cookie.map ("set-cookie", ·)).toList
  { res with headers := match csp with
      | some csp => headers.insert "content-security-policy" csp
      | none => headers }

/-- What the service behind a route does with a request, the API's own layers
included. -/
inductive Answers (d : Deployment) : Dispatch → HttpRequest → Reply → Prop
  | static (request : HttpRequest) :
      Answers d .static request (.response (ofFile (d.staticAnswer request)))
  | endpoint {endpoint : Endpoint} {done : Except String Response}
      (h : Ends d.state d.enabledEmail endpoint done) (cookie csp : Option HeaderValue)
      (request : HttpRequest) :
      Answers d (.endpoint endpoint) request (.ofEnd (done.map (decorate cookie csp)))
  | methodNotAllowed (allow : HeaderValue) (cookie csp : Option HeaderValue)
      (request : HttpRequest) :
      Answers d .methodNotAllowed request (.ofEnd (.ok (decorate cookie csp
        ⟨StatusCode.methodNotAllowed, [("allow", allow)], .empty⟩)))
  | fallback (request : HttpRequest) :
      Answers d .fallback request
        (.ofEnd (.ok (StatusCode.intoResponse StatusCode.notFound)))
  /-- Nothing comes within the time limit. -/
  | pending (route : Dispatch) (request : HttpRequest) : Answers d route request .pending

/-- The services behind the routes. -/
abbrev Routes := Dispatch → Service

/-- Each service does what its route can do. -/
def Routes.Of (routes : Routes) (d : Deployment) : Prop :=
  ∀ route request, Answers d route request (routes route request)

/-- The names of the lines a route outside the static tree writes. -/
def routeHeaders : List String := "allow" :: "content-security-policy" :: handlerHeaders

section Lines
variable {d : Deployment} {name : String}

theorem decorate_getAll (hname : name ∉ routeHeaders) (cookie csp : Option HeaderValue)
    (res : Response) : (decorate cookie csp res).headers.getAll name = res.headers.getAll name := by
  have hne : ∀ own ∈ routeHeaders, name ≠ own := fun own hown h => hname (h ▸ hown)
  have hcookie : HeaderMap.getAll (cookie.map ("set-cookie", ·)).toList name = [] := by
    have hown : name ∉ handlerHeaders := fun hmem =>
      hname (List.mem_cons_of_mem _ (List.mem_cons_of_mem _ hmem))
    refine OfHandler.getAll ?_ hown
    cases cookie with
    | none => exact ofHandler_nil
    | some cookie =>
        show ["set-cookie"] ⊆ handlerHeaders
        decide
  have happend : HeaderMap.getAll (res.headers ++ (cookie.map ("set-cookie", ·)).toList) name =
      res.headers.getAll name := by
    rw [HeaderMap.getAll, List.filter_append, List.map_append]
    exact (congrArg _ hcookie).trans (List.append_nil _)
  unfold decorate
  cases csp with
  | none => exact happend
  | some csp =>
      exact (HeaderMap.getAll_insert_of_ne _ (hne _ (by decide)) csp).trans happend

/-- Outside the static tree, only the lines of handlers and of the API's layers are
written. -/
theorem Answers.getAll {route : Dispatch} {request : HttpRequest} {reply : Reply}
    (h : Answers d route request reply) (hroute : route ≠ .static) {res : HttpResponse}
    (hres : reply = .response res) (hname : name ∉ routeHeaders) :
    res.headers.getAll name = [] := by
  have hhandler : name ∉ handlerHeaders := fun hmem =>
    hname (List.mem_cons_of_mem _ (List.mem_cons_of_mem _ hmem))
  cases h with
  | static => exact absurd rfl hroute
  | @endpoint endpoint done hends cookie csp =>
      cases done with
      | error message => cases hres
      | ok page =>
          obtain rfl := Reply.response.inj hres
          exact (decorate_getAll hname cookie csp page).trans
            ((hends.writesOwn page rfl).getAll hhandler)
  | methodNotAllowed allow cookie csp =>
      obtain rfl := Reply.response.inj hres
      refine (decorate_getAll hname cookie csp _).trans ?_
      have hallow : ("allow" == name) = false :=
        beq_eq_false_iff_ne.mpr fun heq => hname (heq ▸ List.mem_cons_self ..)
      simp only [HeaderMap.getAll, List.filter_cons, hallow, Bool.false_eq_true, if_false,
        List.filter_nil, List.map_nil]
  | fallback =>
      obtain rfl := Reply.response.inj hres
      exact ofHandler_nil.getAll hhandler
  | pending => cases hres

end Lines

/-! ### The stack -/

def privateNoCache : HeaderValue := headerOf "private, no-cache" (by decide)

/-- `apply_security_headers` -/
def applySecurityHeaders (cookieSecure : Bool) : Layer := fun inner =>
  let router := setIfNotPresent "permissions-policy"
    (headerOf "geolocation=(), microphone=(), camera=()" (by decide))
    (setIfNotPresent "referrer-policy" (headerOf "strict-origin-when-cross-origin" (by decide))
      (setIfNotPresent "x-content-type-options" (headerOf "nosniff" (by decide)) inner))
  if cookieSecure then
    setIfNotPresent "strict-transport-security"
      (headerOf "max-age=31536000; includeSubDomains" (by decide)) router
  else router

/-- `apply_version_header` -/
def applyVersionHeader (gitSha : HeaderValue) : Layer := setIfNotPresent "x-app-version" gitSha

/-- `build_router`; of the layers of a router, the last is the outermost. -/
def buildRouter (d : Deployment) (routes : Routes) : Service := fun request =>
  let service : Service := routes (dispatch d.debugAssertions request.method request.path)
  applyVersionHeader d.gitSha (applySecurityHeaders d.state.cookieSecure
    (propagateRequestId (setRequestId d.makeRequestId (catchPanic (normalizePath
      (d.compression.layer (timeout (setIfNotPresent "cache-control" privateNoCache
        service)))))))) request

/-! ### What comes out of the stack -/

namespace Deployment
variable (d : Deployment)

/-- The request as the services see it. -/
def seen (request : HttpRequest) : HttpRequest :=
  let request := withNewId d.makeRequestId request
  { request with path := trimTrailingSlash request.path }

/-- The response to what a service does, as far as the layers change the status or
`Cache-Control`. -/
def answered (request : HttpRequest) : Reply → HttpResponse
  | .response res => d.compression.compress (d.seen request)
      (res.addIfMissing "cache-control" privateNoCache)
  | .pending => d.compression.compress (d.seen request)
      ⟨StatusCode.requestTimeout, [], .page .empty⟩
  | .panic _ => ⟨StatusCode.internalServerError, [("content-type", contentTypePlain)],
      .page (.text "Service panicked")⟩

end Deployment

/-- A layer that answers whenever the service does, and keeps of its response what
`kept` says. -/
def Keeps (kept : HttpResponse → HttpResponse → Prop) (layer : Layer) : Prop :=
  ∀ inner request res, inner request = .response res →
    ∃ res', layer inner request = .response res' ∧ kept res' res

/-- The names of the lines that the layers outside the request id write. -/
def outerHeaders : List String :=
  ["x-content-type-options", "referrer-policy", "permissions-policy", "strict-transport-security",
    "x-app-version"]

section Keeps
variable {kept : HttpResponse → HttpResponse → Prop}

theorem setIfNotPresent_keeps {name : String} {value : HeaderValue}
    (h : ∀ res : HttpResponse, kept (res.addIfMissing name value) res) :
    Keeps kept (setIfNotPresent name value) := by
  intro inner request res hres
  refine ⟨res.addIfMissing name value, ?_, h res⟩
  rw [setIfNotPresent, hres]
  rfl

theorem propagateRequestId_keepsHead : Keeps SameHead propagateRequestId := by
  intro inner request res hres
  refine ⟨res.withRequestId request, ?_, withRequestId_sameHead res request⟩
  rw [propagateRequestId, hres]
  rfl

variable (htrans : ∀ a b c, kept a b → kept b c → kept a c)
include htrans

theorem Keeps.comp {outer layer : Layer} (houter : Keeps kept outer) (h : Keeps kept layer) :
    Keeps kept fun inner => outer (layer inner) := by
  intro inner request res hres
  obtain ⟨res', hres', hkept⟩ := h inner request res hres
  obtain ⟨res'', hres'', hkept'⟩ := houter (layer inner) request res' hres'
  exact ⟨res'', hres'', htrans _ _ _ hkept' hkept⟩

variable (hadd : ∀ name ∈ outerHeaders, ∀ (value : HeaderValue) (res : HttpResponse),
  kept (res.addIfMissing name value) res)
include hadd

theorem applySecurityHeaders_keeps (cookieSecure : Bool) :
    Keeps kept (applySecurityHeaders cookieSecure) := by
  have hset : ∀ name ∈ outerHeaders, ∀ value, Keeps kept (setIfNotPresent name value) :=
    fun name hname value => setIfNotPresent_keeps (hadd name hname value)
  have hthree : Keeps kept (applySecurityHeaders false) :=
    (hset "permissions-policy" (by decide) _).comp htrans
      ((hset "referrer-policy" (by decide) _).comp htrans
        (hset "x-content-type-options" (by decide) _))
  cases cookieSecure with
  | false => exact hthree
  | true => exact (hset "strict-transport-security" (by decide) _).comp htrans hthree

theorem outerLayers_keeps (d : Deployment) : Keeps kept fun inner =>
    applyVersionHeader d.gitSha (applySecurityHeaders d.state.cookieSecure inner) :=
  (setIfNotPresent_keeps (hadd "x-app-version" (by decide) d.gitSha)).comp htrans
    (applySecurityHeaders_keeps htrans hadd d.state.cookieSecure)

end Keeps

/-- From the time limit to the request id, nothing is left unanswered. -/
theorem inner_answered (d : Deployment) (service : Service) (request : HttpRequest) :
    setRequestId d.makeRequestId (catchPanic (normalizePath (d.compression.layer (timeout
      (setIfNotPresent "cache-control" privateNoCache service))))) request =
      .response (d.answered request (service (d.seen request))) := by
  have hseen : normalizePath (fun request => service request) (withNewId d.makeRequestId request) =
      service (d.seen request) := rfl
  simp only [normalizePath] at hseen
  simp only [setRequestId, catchPanic, normalizePath, Compression.layer, timeout, setIfNotPresent,
    hseen]
  cases service (d.seen request) with
  | response res => rfl
  | panic message => rfl
  | pending => rfl

/-- Every request is answered, with the status and the `Cache-Control` lines that the
service's reply gives rise to. -/
theorem buildRouter_answered (d : Deployment) (routes : Routes) (request : HttpRequest) :
    ∃ res, buildRouter d routes request = .response res ∧
      SameHead res (d.answered request
        (routes (dispatch d.debugAssertions request.method request.path) (d.seen request))) := by
  have hadd : ∀ name ∈ outerHeaders, ∀ (value : HeaderValue) (res : HttpResponse),
      SameHead (res.addIfMissing name value) res := by
    intro name hname value res
    have hnot : "cache-control" ∉ outerHeaders := by decide
    exact addIfMissing_sameHead res value fun h => hnot (h ▸ hname)
  have htrans (a b c : HttpResponse) (hab : SameHead a b) (hbc : SameHead b c) : SameHead a c :=
    hab.trans hbc
  have hlayers : Keeps SameHead fun inner => applyVersionHeader d.gitSha
      (applySecurityHeaders d.state.cookieSecure (propagateRequestId inner)) :=
    (outerLayers_keeps htrans hadd d).comp htrans propagateRequestId_keepsHead
  exact hlayers _ request _ (inner_answered d _ request)

end TodoRust.Router
