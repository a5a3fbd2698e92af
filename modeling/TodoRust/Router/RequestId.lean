import TodoRust.Router.Caching

/-!
# The request id of a response

`propagate_id` is the outer of the two layers, so it reads the id before `set_id` has
written one. A response carries the id of a request that came with one, and no id
otherwise.
-/

namespace TodoRust.Router
open App Rust StaticFiles

/-- The id of a message. -/
def requestIdOf (headers : HeaderMap) : Option HeaderValue := headers.get "x-request-id"

/-- The two responses have the same id. -/
def SameRequestId (res before : HttpResponse) : Prop :=
  requestIdOf res.headers = requestIdOf before.headers

section Deployment
variable (d : Deployment) (request : HttpRequest)

/-- The response has the id that the services saw on the request. -/
def CarriesId (routes : Routes) : Prop :=
  ∃ res id, buildRouter d routes request = .response res ∧
    requestIdOf (d.seen request).headers = some id ∧ requestIdOf res.headers = some id

/-- The services see the id a request came with, or else a new one. -/
theorem seen_requestId :
    requestIdOf (d.seen request).headers =
      (requestIdOf request.headers).or (d.makeRequestId request) := by
  unfold Deployment.seen withNewId requestIdOf
  cases hown : request.headers.get "x-request-id" with
  | some id => exact hown
  | none =>
      cases d.makeRequestId request with
      | some id => exact HeaderMap.get_insert _ _ id
      | none => exact hown

end Deployment

/-! ### No service writes an id -/

section Services
variable {d : Deployment} {request : HttpRequest}

theorem requestIdOf_eq_none {headers : HeaderMap} :
    requestIdOf headers = none ↔ headers.getAll "x-request-id" = [] :=
  HeaderMap.get_eq_none_iff headers "x-request-id"

theorem serveImmutableFile_requestId {mimeGuess : String → Option HeaderValue} {disk : Disk}
    {path : String} {acceptEncoding : Option String} {res : FileResponse}
    (h : serveImmutableFile mimeGuess disk path acceptEncoding = some res) :
    requestIdOf res.headers = none := by
  unfold serveImmutableFile at h
  generalize pickPrecompressed disk path acceptEncoding = picked at h
  obtain ⟨openPath, coding⟩ := picked
  obtain ⟨bytes, -, rfl⟩ := Option.map_eq_some_iff.mp h
  cases coding with
  | none => rfl
  | some coding => rfl

variable (hserveDir : ∀ request, requestIdOf (d.serveDir.call request).headers = none)
include hserveDir

theorem staticAnswer_requestId (request : HttpRequest) :
    requestIdOf (d.staticAnswer request).headers = none := by
  unfold Deployment.staticAnswer staticService
  dsimp only
  split
  · next onDisk hresolved =>
      cases hserved : serveImmutableFile d.mimeGuess d.disk onDisk
        (((staticRequest request).headers.get "accept-encoding").bind HeaderValue.toStr) with
      | none => rfl
      | some res => exact serveImmutableFile_requestId hserved
  · exact (HeaderMap.get_insert_of_ne _ (by decide) _).trans (hserveDir _)

theorem Answers.requestId {route : Dispatch} {reply : Reply} (h : Answers d route request reply)
    {res : HttpResponse} (hres : reply = .response res) : requestIdOf res.headers = none := by
  by_cases hroute : route = .static
  · subst hroute
    cases h with
    | static =>
        obtain rfl := Reply.response.inj hres
        exact staticAnswer_requestId hserveDir request
    | pending => cases hres
  · exact requestIdOf_eq_none.mpr (h.getAll hroute hres (by decide))

/-- Neither do the layers inside. -/
theorem answered_requestId {route : Dispatch} {reply : Reply}
    (h : Answers d route (d.seen request) reply) :
    requestIdOf (d.answered request reply).headers = none := by
  have hcompress (res : HttpResponse) (hnone : requestIdOf res.headers = none) :
      requestIdOf (d.compression.compress (d.seen request) res).headers = none := by
    rw [requestIdOf_eq_none] at hnone ⊢
    rw [d.compression.getAll_eq _ _ _ (by decide), hnone]
  cases reply with
  | response res =>
      refine hcompress _ ?_
      rw [HttpResponse.addIfMissing]
      split
      · exact h.requestId hserveDir rfl
      · exact (HeaderMap.get_insert_of_ne _ (by decide) _).trans (h.requestId hserveDir rfl)
  | pending => exact hcompress _ rfl
  | panic message => rfl

end Services

/-! ### The router -/

/-- The id of a response without one, after `PropagateRequestIdLayer`. -/
theorem withRequestId_requestId {res : HttpResponse} (h : requestIdOf res.headers = none)
    (request : HttpRequest) :
    requestIdOf (res.withRequestId request).headers = requestIdOf request.headers := by
  unfold HttpResponse.withRequestId
  rw [show res.headers.get "x-request-id" = none from h]
  cases hid : request.headers.get "x-request-id" with
  | some id => exact (HeaderMap.get_insert _ _ id).trans hid.symm
  | none => exact h.trans hid.symm

/-- Every request is answered with the id it came with. -/
theorem buildRouter_requestId {d : Deployment}
    (hserveDir : ∀ request, requestIdOf (d.serveDir.call request).headers = none) {routes : Routes}
    (hroutes : routes.Of d) (request : HttpRequest) :
    ∃ res, buildRouter d routes request = .response res ∧
      requestIdOf res.headers = requestIdOf request.headers := by
  have hadd : ∀ name ∈ outerHeaders, ∀ (value : HeaderValue) (res : HttpResponse),
      SameRequestId (res.addIfMissing name value) res := by
    intro name hname value res
    have hne : "x-request-id" ≠ name := by
      rintro rfl
      exact absurd hname (by decide)
    unfold HttpResponse.addIfMissing
    split
    · rfl
    · exact HeaderMap.get_insert_of_ne _ hne _
  have htrans (a b c : HttpResponse) (hab : SameRequestId a b) (hbc : SameRequestId b c) :
      SameRequestId a c := hab.trans hbc
  have houter := outerLayers_keeps htrans hadd d
  have hinner := inner_answered d
    (routes (dispatch d.debugAssertions request.method request.path)) request
  have hpropagate : propagateRequestId (setRequestId d.makeRequestId (catchPanic (normalizePath
      (d.compression.layer (timeout (setIfNotPresent "cache-control" privateNoCache
        (routes (dispatch d.debugAssertions request.method request.path)))))))) request =
      .response ((d.answered request (routes (dispatch d.debugAssertions request.method
        request.path) (d.seen request))).withRequestId request) := by
    rw [propagateRequestId, hinner]
    rfl
  obtain ⟨res, hres, hkept⟩ := houter _ request _ hpropagate
  exact ⟨res, hres, hkept.trans
    (withRequestId_requestId (answered_requestId hserveDir (hroutes _ _)) request)⟩

/-- The response has the id of the services exactly if the request came with one. -/
theorem carries_id_iff (d : Deployment)
    (hserveDir : ∀ request, requestIdOf (d.serveDir.call request).headers = none) (routes : Routes)
    (hroutes : routes.Of d) (request : HttpRequest) :
    CarriesId d request routes ↔ (requestIdOf request.headers).isSome = true := by
  obtain ⟨res, hres, hid⟩ := buildRouter_requestId hserveDir hroutes request
  constructor
  · rintro ⟨res', id, hres', -, hcarried⟩
    obtain rfl := Reply.response.inj (hres.symm.trans hres')
    rw [← hid, hcarried]
    rfl
  · intro h
    obtain ⟨id, hown⟩ := Option.isSome_iff_exists.mp h
    refine ⟨res, id, hres, ?_, hid.trans hown⟩
    rw [seen_requestId, hown]
    rfl

/-! ### A request without an id -/

/-- The deployment with ids of `UuidV7`. -/
def uuidDeployment : Deployment :=
  { cssDeployment with
    makeRequestId := fun _ => some (headerOf "0197a1b2-c3d4-7e5f-8a6b-7c8d9e0f1a2b" (by decide)) }

theorem uuidDeployment_serveDir (request : FileRequest) :
    requestIdOf (uuidDeployment.serveDir.call request).headers = none :=
  (HeaderMap.get_eq_none_iff _ _).mpr
    (serveRaw_getAll_eq_nil guessCss cssTree "static" request (by decide))

/-- The id of a load balancer comes back. -/
theorem incoming_id_carried :
    CarriesId uuidDeployment
      ⟨"GET", "/static/css/app.css", [("x-request-id", headerOf "lb-7" (by decide))]⟩
      (staticOnly uuidDeployment) :=
  (carries_id_iff uuidDeployment uuidDeployment_serveDir _ (staticOnly_of _) _).mpr rfl

/-- An id made here does not. -/
theorem new_id_lost :
    ¬ ∀ (d : Deployment) (routes : Routes),
      (∀ request, requestIdOf (d.serveDir.call request).headers = none) →
      (∀ request, (d.makeRequestId request).isSome = true) → routes.Of d →
      ∀ request, CarriesId d request routes := by
  intro hall
  obtain ⟨res, id, hres, -, hcarried⟩ := hall uuidDeployment _ uuidDeployment_serveDir
    (fun _ => rfl) (staticOnly_of _) ⟨"GET", "/static/css/app.css", []⟩
  obtain ⟨res', hres', hid⟩ := buildRouter_requestId uuidDeployment_serveDir
    (staticOnly_of uuidDeployment) ⟨"GET", "/static/css/app.css", []⟩
  obtain rfl := Reply.response.inj (hres.symm.trans hres')
  rw [hcarried] at hid
  cases hid

end TodoRust.Router
