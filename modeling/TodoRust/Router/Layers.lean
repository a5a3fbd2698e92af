import TodoRust.App.Error
import TodoRust.StaticFiles.Serve

/-!
# The layers around the routes

A layer takes a service to a service. The layers of `tower_http` that are stacked
here read and write the head of a message, or answer for a service that does not;
those that only watch are left out.
-/

namespace TodoRust.Router
open Rust App StaticFiles

/-- The head of a request. -/
abbrev HttpRequest := FileRequest

inductive HttpBody
  | page (body : Body)
  | file (bytes : List UInt8)

structure HttpResponse where
  status : StatusCode
  headers : HeaderMap
  body : HttpBody

def ofPage (res : Response) : HttpResponse := ⟨res.status, res.headers, .page res.body⟩

def ofFile (res : FileResponse) : HttpResponse := ⟨res.status, res.headers, .file res.body⟩

/-- What becomes of a request: a response, a panic, or nothing in time. -/
inductive Reply
  | response (res : HttpResponse)
  | panic (message : String)
  | pending

def Reply.map (f : HttpResponse → HttpResponse) : Reply → Reply
  | .response res => .response (f res)
  | .panic message => .panic message
  | .pending => .pending

/-- The end of a handler, as a reply. -/
def Reply.ofEnd : Except String Response → Reply
  | .ok res => .response (ofPage res)
  | .error message => .panic message

abbrev Service := HttpRequest → Reply

abbrev Layer := Service → Service

/-! ### The layers -/

/-- A header line, unless there is one of that name. -/
def HttpResponse.addIfMissing (name : String) (value : HeaderValue) (res : HttpResponse) :
    HttpResponse :=
  if (res.headers.get name).isSome then res
  else { res with headers := res.headers.insert name value }

/-- `SetResponseHeaderLayer::if_not_present` -/
def setIfNotPresent (name : String) (value : HeaderValue) : Layer := fun inner request =>
  (inner request).map (·.addIfMissing name value)

/-- `TimeoutLayer::with_status_code` -/
def timeout : Layer := fun inner request =>
  match inner request with
  | .pending => .response ⟨StatusCode.requestTimeout, [], .page .empty⟩
  | reply => reply

/-- `CatchPanicLayer`, in a build where panics unwind; the release profile has
`panic = "abort"`, by which the process ends instead. -/
def catchPanic : Layer := fun inner request =>
  match inner request with
  | .panic _ => .response ⟨StatusCode.internalServerError, [("content-type", contentTypePlain)],
      .page (.text "Service panicked")⟩
  | reply => reply

/-- What `NormalizePathLayer::trim_trailing_slash` makes of a path. -/
def trimTrailingSlash (path : String) : String :=
  if endsWith path ['/'] || startsWith path ['/', '/'] then
    String.ofList ('/' :: (path.toList.dropWhile (· == '/')).rdropWhile (· == '/'))
  else path

def normalizePath : Layer := fun inner request =>
  inner { request with path := trimTrailingSlash request.path }

/-- `CompressionLayer`: it writes the lines of its coding, and keeps the status and
every other line. -/
structure Compression where
  compress : HttpRequest → HttpResponse → HttpResponse
  status_eq : ∀ request res, (compress request res).status = res.status
  getAll_eq : ∀ request res,
    ∀ name ∉ ["content-encoding", "vary", "content-length", "accept-ranges"],
      (compress request res).headers.getAll name = res.headers.getAll name

def Compression.layer (compression : Compression) : Layer := fun inner request =>
  (inner request).map (compression.compress request)

/-- The request with an id of its own, or else a new one. -/
def withNewId (makeRequestId : HttpRequest → Option HeaderValue) (request : HttpRequest) :
    HttpRequest :=
  match request.headers.get "x-request-id", makeRequestId request with
  | none, some id => { request with headers := request.headers.insert "x-request-id" id }
  | _, _ => request

/-- `SetRequestIdLayer` -/
def setRequestId (makeRequestId : HttpRequest → Option HeaderValue) : Layer := fun inner request =>
  inner (withNewId makeRequestId request)

/-- The response with the id of the request, unless it has one. -/
def HttpResponse.withRequestId (res : HttpResponse) (request : HttpRequest) : HttpResponse :=
  match res.headers.get "x-request-id", request.headers.get "x-request-id" with
  | none, some id => { res with headers := res.headers.insert "x-request-id" id }
  | _, _ => res

/-- `PropagateRequestIdLayer` -/
def propagateRequestId : Layer := fun inner request =>
  (inner request).map (·.withRequestId request)

/-! ### What a layer keeps -/

/-- The lines of `Cache-Control`. -/
def HttpResponse.cacheLines (res : HttpResponse) : List HeaderValue :=
  res.headers.getAll "cache-control"

/-- The status and the lines of `Cache-Control` are the same. -/
def SameHead (res before : HttpResponse) : Prop :=
  res.status = before.status ∧ res.cacheLines = before.cacheLines

theorem SameHead.trans {a b c : HttpResponse} (hab : SameHead a b) (hbc : SameHead b c) :
    SameHead a c :=
  ⟨hab.1.trans hbc.1, hab.2.trans hbc.2⟩

section Keeps
variable (res : HttpResponse) (request : HttpRequest) {name : String} (value : HeaderValue)

theorem addIfMissing_sameHead (h : "cache-control" ≠ name) :
    SameHead (res.addIfMissing name value) res := by
  unfold HttpResponse.addIfMissing
  split
  · exact ⟨rfl, rfl⟩
  · exact ⟨rfl, HeaderMap.getAll_insert_of_ne res.headers h value⟩

/-- The default stands only where nothing else does. -/
theorem addIfMissing_cacheLines :
    (res.addIfMissing "cache-control" value).cacheLines =
      if res.cacheLines = [] then [value] else res.cacheLines := by
  unfold HttpResponse.addIfMissing HttpResponse.cacheLines
  by_cases hnone : res.headers.getAll "cache-control" = []
  · rw [if_pos hnone, (HeaderMap.get_eq_none_iff _ _).mpr hnone, if_neg (by decide)]
    exact HeaderMap.getAll_insert res.headers "cache-control" value
  · have hsome : (res.headers.get "cache-control").isSome = true := by
      rw [Option.isSome_iff_ne_none, Ne, HeaderMap.get_eq_none_iff]
      exact hnone
    rw [if_neg hnone, if_pos hsome]

theorem addIfMissing_status : (res.addIfMissing name value).status = res.status := by
  unfold HttpResponse.addIfMissing
  split
  · rfl
  · rfl

theorem Compression.sameHead (compression : Compression) :
    SameHead (compression.compress request res) res :=
  ⟨compression.status_eq request res, compression.getAll_eq request res _ (by decide)⟩

theorem withRequestId_sameHead : SameHead (res.withRequestId request) res := by
  unfold HttpResponse.withRequestId
  split
  · exact ⟨rfl, HeaderMap.getAll_insert_of_ne res.headers (by decide) _⟩
  · exact ⟨rfl, rfl⟩

end Keeps

end TodoRust.Router
