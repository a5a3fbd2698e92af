import TodoRust.Router.Caching

/-!
# The lines of the outer layers

The outermost layers write the security headers and the version. Every response gets each
of them once, whatever has become of the request, and what the service behind the route
wrote comes through but for the lines that the layers are there to write.
-/

namespace TodoRust.Router
open App Rust StaticFiles

/-! ### Adding lines -/

/-- Lines that are added one after the other, each unless there is one of its name. -/
def HttpResponse.addLines (lines : HeaderMap) (res : HttpResponse) : HttpResponse :=
  lines.foldl (fun res line => res.addIfMissing line.1 line.2) res

section Lines
variable {res : HttpResponse} {name : String}

theorem addIfMissing_getAll_of_nil (h : res.headers.getAll name = []) (value : HeaderValue) :
    (res.addIfMissing name value).headers.getAll name = [value] := by
  unfold HttpResponse.addIfMissing
  rw [(HeaderMap.get_eq_none_iff _ _).mpr h]
  exact HeaderMap.getAll_insert res.headers name value

theorem addIfMissing_getAll_of_ne {other : String} (h : name ≠ other) (value : HeaderValue) :
    (res.addIfMissing other value).headers.getAll name = res.headers.getAll name := by
  unfold HttpResponse.addIfMissing
  split
  · rfl
  · exact HeaderMap.getAll_insert_of_ne res.headers h value

theorem addLines_status (lines : HeaderMap) : (res.addLines lines).status = res.status := by
  induction lines generalizing res with
  | nil => rfl
  | cons line rest ih =>
      calc ((res.addIfMissing line.1 line.2).addLines rest).status
          = (res.addIfMissing line.1 line.2).status := ih
        _ = res.status := addIfMissing_status res line.2

/-- Lines of different names that a response has not are all added. -/
theorem addLines_getAll {lines : HeaderMap} (hnodup : (lines.map Prod.fst).Nodup)
    (hnone : ∀ line ∈ lines, res.headers.getAll line.1 = []) (name : String) :
    (res.addLines lines).headers.getAll name = res.headers.getAll name ++ lines.getAll name := by
  induction lines generalizing res with
  | nil => exact (List.append_nil _).symm
  | cons line rest ih =>
      obtain ⟨own, value⟩ := line
      obtain ⟨hown, hrest⟩ := List.forall_mem_cons.mp hnone
      obtain ⟨hfresh, hnodup⟩ := List.nodup_cons.mp hnodup
      have hstill : ∀ line ∈ rest, (res.addIfMissing own value).headers.getAll line.1 = [] := by
        intro line hline
        have hmem : line.1 ∈ rest.map Prod.fst := List.mem_map_of_mem hline
        have hne : line.1 ≠ own := fun h => hfresh (h ▸ hmem)
        rw [addIfMissing_getAll_of_ne hne, hrest line hline]
      have hadded : (res.addLines ((own, value) :: rest)).headers.getAll name =
          (res.addIfMissing own value).headers.getAll name ++ HeaderMap.getAll rest name :=
        ih hnodup hstill
      rw [hadded]
      by_cases hname : name = own
      · subst hname
        rw [addIfMissing_getAll_of_nil hown, hown]
        simp [HeaderMap.getAll]
      · rw [addIfMissing_getAll_of_ne hname]
        simp [HeaderMap.getAll, Ne.symm hname]

end Lines

/-! ### The lines -/

theorem noSniff_valid : (asBytes "nosniff").all isValidByte = true := by decide

theorem referrerPolicy_valid :
    (asBytes "strict-origin-when-cross-origin").all isValidByte = true := by decide

theorem permissionsPolicy_valid :
    (asBytes "geolocation=(), microphone=(), camera=()").all isValidByte = true := by decide

theorem strictTransport_valid :
    (asBytes "max-age=31536000; includeSubDomains").all isValidByte = true := by decide

/-- What the outer layers write, the innermost first. -/
def outerLines (cookieSecure : Bool) (gitSha : HeaderValue) : HeaderMap :=
  [("x-content-type-options", headerOf "nosniff" noSniff_valid),
    ("referrer-policy", headerOf "strict-origin-when-cross-origin" referrerPolicy_valid),
    ("permissions-policy",
      headerOf "geolocation=(), microphone=(), camera=()" permissionsPolicy_valid)] ++
  (if cookieSecure then
    [("strict-transport-security",
      headerOf "max-age=31536000; includeSubDomains" strictTransport_valid)]
  else []) ++
  [("x-app-version", gitSha)]

/-- The names of the lines that some layer of the router writes. -/
def layerHeaders : List String :=
  outerHeaders ++ ["content-encoding", "vary", "content-length", "accept-ranges", "cache-control",
    "x-request-id"]

theorem outerLines_names (cookieSecure : Bool) (gitSha : HeaderValue) :
    ((outerLines cookieSecure gitSha).map Prod.fst).Nodup ∧
      (outerLines cookieSecure gitSha).map Prod.fst ⊆ outerHeaders := by
  cases cookieSecure with
  | false =>
      show ["x-content-type-options", "referrer-policy", "permissions-policy",
        "x-app-version"].Nodup ∧ ["x-content-type-options", "referrer-policy",
        "permissions-policy", "x-app-version"] ⊆ outerHeaders
      decide
  | true =>
      show ["x-content-type-options", "referrer-policy", "permissions-policy",
        "strict-transport-security", "x-app-version"].Nodup ∧ ["x-content-type-options",
        "referrer-policy", "permissions-policy", "strict-transport-security", "x-app-version"] ⊆
          outerHeaders
      decide

theorem outerLayers_addLines (cookieSecure : Bool) (gitSha : HeaderValue) (inner : Service)
    (request : HttpRequest) :
    applyVersionHeader gitSha (applySecurityHeaders cookieSecure inner) request =
      (inner request).map (·.addLines (outerLines cookieSecure gitSha)) := by
  cases cookieSecure with
  | false =>
      simp only [applyVersionHeader, applySecurityHeaders, setIfNotPresent, Bool.false_eq_true,
        if_false]
      cases inner request with
      | response | panic | pending => rfl
  | true =>
      simp only [applyVersionHeader, applySecurityHeaders, setIfNotPresent, if_true]
      cases inner request with
      | response | panic | pending => rfl

/-! ### The services and the inner layers -/

section Services
variable {d : Deployment} {request : HttpRequest} {name : String}

/-- The file of a hashed path has the lines of `serve_immutable_file` only. -/
theorem serveImmutableFile_getAll {mimeGuess : String → Option HeaderValue} {disk : Disk}
    {path : String} {acceptEncoding : Option String} {res : FileResponse}
    (h : serveImmutableFile mimeGuess disk path acceptEncoding = some res)
    (hname : name ∉ ["content-type", "cache-control", "vary", "content-encoding"]) :
    res.headers.getAll name = [] := by
  simp only [List.mem_cons, List.not_mem_nil, or_false, not_or] at hname
  obtain ⟨htype, hcache, hvary, hencoding⟩ := hname
  unfold serveImmutableFile at h
  generalize pickPrecompressed disk path acceptEncoding = picked at h
  obtain ⟨openPath, coding⟩ := picked
  obtain ⟨bytes, -, rfl⟩ := Option.map_eq_some_iff.mp h
  cases coding with
  | none => simp [HeaderMap.getAll, Ne.symm htype, Ne.symm hcache, Ne.symm hvary]
  | some coding =>
      simp [HeaderMap.getAll, Ne.symm htype, Ne.symm hcache, Ne.symm hvary, Ne.symm hencoding]

variable (hserveDir : ∀ request, ∀ name ∈ outerHeaders,
  (d.serveDir.call request).headers.getAll name = [])
include hserveDir

theorem staticAnswer_getAll (request : HttpRequest) (hname : name ∈ outerHeaders) :
    (d.staticAnswer request).headers.getAll name = [] := by
  have hne : ∀ own ∈ ["content-type", "cache-control", "vary", "content-encoding"], name ≠ own := by
    rintro own hown rfl
    have hapart : (outerHeaders.all fun name => !(["content-type", "cache-control", "vary",
      "content-encoding"].contains name)) = true := by decide
    have hnot := List.all_eq_true.mp hapart name hname
    rw [List.contains_iff_mem.mpr hown] at hnot
    cases hnot
  unfold Deployment.staticAnswer staticService
  dsimp only
  split
  · next onDisk hresolved =>
      cases hserved : serveImmutableFile d.mimeGuess d.disk onDisk
        (((staticRequest request).headers.get "accept-encoding").bind HeaderValue.toStr) with
      | none => rfl
      | some res => exact serveImmutableFile_getAll hserved fun hmem => hne name hmem rfl
  · exact (HeaderMap.getAll_insert_of_ne _ (hne _ (by decide)) _).trans (hserveDir _ name hname)

/-- No service writes a line of the outer layers. -/
theorem Answers.outer_getAll {route : Dispatch} {reply : Reply} (h : Answers d route request reply)
    {res : HttpResponse} (hres : reply = .response res) (hname : name ∈ outerHeaders) :
    res.headers.getAll name = [] := by
  by_cases hroute : route = .static
  · subst hroute
    cases h with
    | static =>
        obtain rfl := Reply.response.inj hres
        exact staticAnswer_getAll hserveDir request hname
    | pending => cases hres
  · have hapart : (outerHeaders.all fun name => !routeHeaders.contains name) = true := by decide
    have hnot := List.all_eq_true.mp hapart name hname
    refine h.getAll hroute hres fun hmem => ?_
    rw [List.contains_iff_mem.mpr hmem] at hnot
    cases hnot

end Services

/-- The layers inside write their own lines only. -/
theorem answered_getAll (d : Deployment) (request : HttpRequest) {name : String}
    (hname : name ∉ ["content-encoding", "vary", "content-length", "accept-ranges"])
    (hcache : name ≠ "cache-control") (res : HttpResponse) :
    (d.answered request (.response res)).headers.getAll name = res.headers.getAll name := by
  rw [Deployment.answered, d.compression.getAll_eq _ _ _ hname, addIfMissing_getAll_of_ne hcache]

theorem withRequestId_getAll (res : HttpResponse) (request : HttpRequest) {name : String}
    (h : name ≠ "x-request-id") :
    (res.withRequestId request).headers.getAll name = res.headers.getAll name := by
  unfold HttpResponse.withRequestId
  split
  · exact HeaderMap.getAll_insert_of_ne res.headers h _
  · rfl

/-- What the outer layers get to see. -/
theorem propagated_answered (d : Deployment) (service : Service) (request : HttpRequest) :
    propagateRequestId (setRequestId d.makeRequestId (catchPanic (normalizePath
      (d.compression.layer (timeout (setIfNotPresent "cache-control" privateNoCache
        service)))))) request =
      .response ((d.answered request (service (d.seen request))).withRequestId request) := by
  rw [propagateRequestId, inner_answered]
  rfl

/-! ### The router -/

/-- Whatever becomes of a request, a panic that unwinds included, its response has the lines
of the outer layers, each once; and of a response that the service gives, the status and
all other lines are kept. -/
theorem every_response_secured (d : Deployment)
    (hserveDir : ∀ request, ∀ name ∈ outerHeaders,
      (d.serveDir.call request).headers.getAll name = [])
    (routes : Routes) (hroutes : routes.Of d) (request : HttpRequest) :
    ∃ res, buildRouter d routes request = .response res ∧
      (∀ name ∈ outerHeaders, res.headers.getAll name =
        (outerLines d.state.cookieSecure d.gitSha).getAll name) ∧
      ∀ before, routes (dispatch d.debugAssertions request.method request.path) (d.seen request) =
        .response before → res.status = before.status ∧
          ∀ name ∉ layerHeaders, res.headers.getAll name = before.headers.getAll name := by
  obtain ⟨hnodup, hnames⟩ := outerLines_names d.state.cookieSecure d.gitSha
  generalize hreply : routes (dispatch d.debugAssertions request.method request.path)
    (d.seen request) = reply
  have hanswers : Answers d _ (d.seen request) reply := hreply ▸ hroutes _ _
  generalize hinner : (d.answered request reply).withRequestId request = inner
  have hbuilt : buildRouter d routes request =
      .response (inner.addLines (outerLines d.state.cookieSecure d.gitSha)) := by
    rw [buildRouter, outerLayers_addLines, propagated_answered, hreply, hinner]
    rfl
  have hapart : (outerHeaders.all fun name => name != "cache-control" && (name != "x-request-id" &&
      !(["content-encoding", "vary", "content-length", "accept-ranges"].contains name))) =
        true := by
    decide
  have hnone : ∀ name ∈ outerHeaders, inner.headers.getAll name = [] := by
    intro name hname
    have hother := List.all_eq_true.mp hapart name hname
    simp only [Bool.and_eq_true, bne_iff_ne, Bool.not_eq_true'] at hother
    obtain ⟨hcache, hid, hcoding⟩ := hother
    have hcoding : name ∉ ["content-encoding", "vary", "content-length", "accept-ranges"] := by
      intro hmem
      rw [List.contains_iff_mem.mpr hmem] at hcoding
      cases hcoding
    rw [← hinner, withRequestId_getAll _ _ hid]
    cases reply with
    | response res =>
        rw [answered_getAll d request hcoding hcache]
        exact hanswers.outer_getAll hserveDir rfl hname
    | pending =>
        rw [Deployment.answered, d.compression.getAll_eq _ _ _ hcoding]
        rfl
    | panic message =>
        have hplain : name ≠ "content-type" := by
          rintro rfl
          exact absurd hname (by decide)
        simp [Deployment.answered, HeaderMap.getAll, Ne.symm hplain]
  have hlines := addLines_getAll hnodup
    fun line hline => hnone line.1 (hnames (List.mem_map_of_mem hline))
  refine ⟨_, hbuilt, ?_, ?_⟩
  · intro name hname
    rw [hlines, hnone name hname, List.nil_append]
  · rintro before rfl
    constructor
    · rw [addLines_status, ← hinner, (withRequestId_sameHead _ _).1, Deployment.answered,
        d.compression.status_eq, addIfMissing_status]
    · intro name hname
      simp only [layerHeaders, List.mem_append, not_or] at hname
      obtain ⟨houter, hlayer⟩ := hname
      have hown : (outerLines d.state.cookieSecure d.gitSha).getAll name = [] := by
        rw [HeaderMap.getAll, List.map_eq_nil_iff, List.filter_eq_nil_iff]
        intro line hline heq
        exact houter (beq_iff_eq.mp heq ▸ hnames (List.mem_map_of_mem hline))
      simp only [List.mem_cons, List.not_mem_nil, or_false, not_or] at hlayer
      rw [hlines, hown, List.append_nil, ← hinner, withRequestId_getAll _ _ (by tauto),
        answered_getAll d request (by simp; tauto) (by tauto)]

/-- A request for the stylesheet, where `ServeDir` writes lines of its own. -/
theorem every_response_secured_css :
    ∃ res, buildRouter cssDeployment (staticOnly cssDeployment) ⟨"GET", "/static/css/app.css", []⟩ =
      .response res ∧ ∀ name ∈ outerHeaders, res.headers.getAll name =
        (outerLines false (headerOf "unknown" (by decide))).getAll name := by
  have hserveDir : ∀ request, ∀ name ∈ outerHeaders,
      (cssDeployment.serveDir.call request).headers.getAll name = [] := by
    intro request name hname
    have hnone : ∀ own ∈ "content-type" :: (cachingHeaders ++ servingHeaders ++ codingHeaders),
        own ∉ outerHeaders := by decide
    exact serveRaw_getAll_eq_nil guessCss cssTree "static" request fun hown =>
      hnone name hown hname
  obtain ⟨res, hres, hlines, _⟩ := every_response_secured cssDeployment hserveDir
    (staticOnly cssDeployment) (staticOnly_of _) ⟨"GET", "/static/css/app.css", []⟩
  exact ⟨res, hres, hlines⟩

end TodoRust.Router
