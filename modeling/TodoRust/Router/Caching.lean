import TodoRust.Router.Assembly
import TodoRust.StaticFiles.ContentCoding

/-!
# What shared caches may keep

The hashed files set their own `Cache-Control`, everything else of the static tree
gets one whatever the status, and the rest gets the default of the router. So a
shared cache may keep an answer of the static tree that is no file.
-/

namespace TodoRust.Router
open App Rust StaticFiles

/-- A line of `Cache-Control` contains `public`. -/
def IsPublic (lines : List HeaderValue) : Prop := ∃ line ∈ lines, asBytes "public" <:+: line.bytes

theorem not_isPublic_nil : ¬ IsPublic [] := by
  rintro ⟨line, hline, -⟩
  cases hline

theorem not_isPublic_default : ¬ IsPublic [privateNoCache] := by
  rintro ⟨line, hline, hpublic⟩
  obtain rfl := List.mem_singleton.mp hline
  exact absurd hpublic (by decide)

theorem isPublic_fiveMinutes : IsPublic [fiveMinutes] :=
  ⟨fiveMinutes, List.mem_singleton_self _, by decide⟩

section Deployment
variable (d : Deployment)

/-- The file a request of the static tree is for, if its path is a hashed one. -/
def hashedFile (request : HttpRequest) : Option String :=
  d.assets.resolveHashedRequest d.order
    (String.ofList ((staticRequest request).path.toList.dropWhile (· == '/')))

variable (request : HttpRequest)

/-- The request is for a file of the static tree: by its hashed path, in which case a
precompressed form may be there instead, or as `ServeDir` reads the path. -/
def ForFile : Prop :=
  isStatic request.path = true ∧ ∃ path, (d.disk path).isSome = true ∧
    match hashedFile d (d.seen request) with
    | some onDisk => path = onDisk ∨ ∃ coding, path = Coding.sibling onDisk coding
    | none => path ∈ d.serveDir.opens (staticRequest (d.seen request))

/-- Only a file that is sent may be kept by shared caches. -/
def CachesFilesOnly (routes : Routes) : Prop :=
  ∀ res, buildRouter d routes request = .response res → IsPublic res.cacheLines →
    res.status ∈ fileStatuses ∧ ForFile d request

/-- The request is outside the static tree, names a hashed path of the manifest, or
reads a file whose conditions and range it meets. -/
def Sendable : Prop :=
  isStatic request.path = false ∨ (hashedFile d (d.seen request)).isSome = true ∨
    (request.method ∈ servedMethods ∧
      (∃ path ∈ d.serveDir.opens (staticRequest (d.seen request)),
        (d.disk path).isSome = true) ∧
      ¬ d.serveDir.unmet (staticRequest (d.seen request)))

end Deployment

/-! ### The services -/

section Services
variable {d : Deployment} {request : HttpRequest}

/-- Outside the static tree, no service speaks of caches. -/
theorem Answers.cacheLines {route : Dispatch} {reply : Reply} (h : Answers d route request reply)
    (hroute : route ≠ .static) {res : HttpResponse} (hres : reply = .response res) :
    res.cacheLines = [] :=
  h.getAll hroute hres (by decide)

/-- The file of a hashed path is sent for good, or it is missing and nothing is said. -/
theorem staticAnswer_hashed {onDisk : String} (h : hashedFile d request = some onDisk) :
    (ofFile (d.staticAnswer request)).cacheLines = [] ∨
      (d.staticAnswer request).status = StatusCode.ok ∧
        ∃ path, (d.disk path).isSome = true ∧
          (path = onDisk ∨ ∃ coding, path = Coding.sibling onDisk coding) := by
  have hanswer : d.staticAnswer request = (serveImmutableFile d.mimeGuess d.disk onDisk
      (acceptEncodingOf (staticRequest request).headers)).getD notFound := by
    have hresolved : d.assets.resolveHashedRequest d.order
        (String.ofList ((staticRequest request).path.toList.dropWhile (· == '/'))) =
          some onDisk := h
    unfold Deployment.staticAnswer staticService
    dsimp only
    rw [hresolved]
    rfl
  rw [hanswer]
  have hpaired := pickPrecompressed_paired d.disk onDisk
    (acceptEncodingOf (staticRequest request).headers)
  unfold serveImmutableFile
  generalize pickPrecompressed d.disk onDisk (acceptEncodingOf (staticRequest request).headers) =
    picked at hpaired
  obtain ⟨path, coding⟩ := picked
  dsimp only
  cases hopen : d.disk path with
  | none => exact Or.inl rfl
  | some bytes =>
      refine Or.inr ⟨rfl, path, by rw [hopen]; rfl, ?_⟩
      cases coding with
      | none => exact Or.inl hpaired
      | some coding => exact Or.inr ⟨coding, hpaired⟩

/-- Any other path of the static tree has the status of `ServeDir`, and five minutes. -/
theorem staticAnswer_other (h : hashedFile d request = none) :
    (d.staticAnswer request).status = (d.serveDir.call (staticRequest request)).status ∧
      (ofFile (d.staticAnswer request)).cacheLines = [fiveMinutes] := by
  have hresolved : d.assets.resolveHashedRequest d.order
      (String.ofList ((staticRequest request).path.toList.dropWhile (· == '/'))) = none := h
  unfold Deployment.staticAnswer staticService
  dsimp only
  rw [hresolved]
  exact ⟨rfl, HeaderMap.getAll_insert _ _ _⟩

/-- The layers make no response public. -/
theorem answered_public {reply : Reply} (h : IsPublic (d.answered request reply).cacheLines) :
    ∃ res, reply = .response res ∧ IsPublic res.cacheLines := by
  cases reply with
  | panic message => exact absurd h not_isPublic_nil
  | pending =>
      have hlines := (Compression.sameHead ⟨StatusCode.requestTimeout, [], .page .empty⟩
        (d.seen request) d.compression).2
      rw [Deployment.answered, hlines] at h
      exact absurd h not_isPublic_nil
  | response res =>
      have hlines := (Compression.sameHead (res.addIfMissing "cache-control" privateNoCache)
        (d.seen request) d.compression).2
      rw [Deployment.answered, hlines, addIfMissing_cacheLines] at h
      split at h
      · exact absurd h not_isPublic_default
      · exact ⟨res, rfl, h⟩

/-- A response with lines of its own keeps its status and the lines. -/
theorem answered_response {res : HttpResponse} (h : res.cacheLines ≠ []) :
    SameHead (d.answered request (.response res)) res := by
  have hkept := Compression.sameHead (res.addIfMissing "cache-control" privateNoCache)
    (d.seen request) d.compression
  refine ⟨hkept.1.trans (addIfMissing_status res _), hkept.2.trans ?_⟩
  rw [addIfMissing_cacheLines, if_neg h]

theorem answered_status (res : HttpResponse) :
    (d.answered request (.response res)).status = res.status :=
  (d.compression.status_eq _ _).trans (addIfMissing_status res _)

end Services

/-! ### The router -/

section Router
variable {d : Deployment} {request : HttpRequest}

theorem dispatch_static (h : isStatic request.path = true) :
    dispatch d.debugAssertions request.method request.path = .static := by
  rw [dispatch, if_pos h]

theorem dispatch_ne_static (h : isStatic request.path = false) :
    dispatch d.debugAssertions request.method request.path ≠ .static := by
  rw [dispatch, if_neg (by rw [h]; exact Bool.false_ne_true)]
  split
  · exact fun hroute => by cases hroute
  · dsimp only
    split
    · exact fun hroute => by cases hroute
    · exact fun hroute => by cases hroute

theorem seen_method (d : Deployment) (request : HttpRequest) :
    (staticRequest (d.seen request)).method = request.method := by
  unfold staticRequest Deployment.seen withNewId
  dsimp only
  split
  · rfl
  · rfl

/-- Where a request can be sent a file, only that is public. -/
theorem cachesFilesOnly_of_sendable (h : Sendable d request) {routes : Routes}
    (hroutes : routes.Of d) : CachesFilesOnly d request routes := by
  intro res hres hpublic
  obtain ⟨res', hres', hhead⟩ := buildRouter_answered d routes request
  obtain rfl := Reply.response.inj (hres.symm.trans hres')
  rw [hhead.2] at hpublic
  obtain ⟨answer, hanswer, hpublic⟩ := answered_public hpublic
  have hroute := hroutes (dispatch d.debugAssertions request.method request.path) (d.seen request)
  rw [hanswer] at hroute
  rw [hhead.1, hanswer, answered_status]
  cases hstatic : isStatic request.path with
  | false =>
      rw [hroute.cacheLines (dispatch_ne_static hstatic) rfl] at hpublic
      exact absurd hpublic not_isPublic_nil
  | true =>
      rw [dispatch_static hstatic] at hroute
      cases hroute with
      | static =>
          cases hhashed : hashedFile d (d.seen request) with
          | some onDisk =>
              rcases staticAnswer_hashed hhashed with hsilent | ⟨hstatus, path, hdisk, hpath⟩
              · rw [hsilent] at hpublic
                exact absurd hpublic not_isPublic_nil
              · refine ⟨?_, hstatic, path, hdisk, ?_⟩
                · rw [show (ofFile _).status = StatusCode.ok from hstatus]
                  decide
                · rw [hhashed]
                  exact hpath
          | none =>
              rcases h with houtside | hnamed | hsent
              · rw [hstatic] at houtside
                cases houtside
              · rw [hhashed] at hnamed
                cases hnamed
              · rw [← seen_method d request] at hsent
                obtain ⟨path, hopens, hdisk⟩ := hsent.2.1
                refine ⟨?_, hstatic, path, hdisk, ?_⟩
                · rw [ofFile, (staticAnswer_other hhashed).1]
                  exact (d.serveDir.sends_iff _).mpr hsent
                · rw [hhashed]
                  exact hopens

/-- The static service answers, and nothing else does in time. -/
def staticOnly (d : Deployment) : Routes := fun route request =>
  match route with
  | .static => .response (ofFile (d.staticAnswer request))
  | _ => .pending

theorem staticOnly_of (d : Deployment) : (staticOnly d).Of d := by
  intro route request
  cases route with
  | static => exact .static request
  | endpoint | methodNotAllowed | fallback => exact .pending _ request

/-- Where it cannot, the answer of `ServeDir` is public all the same. -/
theorem sendable_of_cachesFilesOnly (h : CachesFilesOnly d request (staticOnly d)) :
    Sendable d request := by
  by_contra hnot
  simp only [Sendable, not_or, Bool.not_eq_false, Bool.not_eq_true, Option.isSome_eq_false_iff,
    Option.isNone_iff_eq_none] at hnot
  obtain ⟨hstatic, hhashed, hunsent⟩ := hnot
  obtain ⟨hstatus, hlines⟩ := staticAnswer_other hhashed
  obtain ⟨res, hres, hhead⟩ := buildRouter_answered d (staticOnly d) request
  rw [dispatch_static hstatic] at hhead
  have hkept : SameHead res (ofFile (d.staticAnswer (d.seen request))) :=
    hhead.trans (answered_response (by rw [hlines]; exact List.cons_ne_nil _ _))
  have hpublic : IsPublic res.cacheLines := by
    rw [hkept.2, hlines]
    exact isPublic_fiveMinutes
  have hsent := (h res hres hpublic).1
  rw [hkept.1, ofFile, hstatus, d.serveDir.sends_iff, seen_method] at hsent
  exact hunsent hsent

end Router

/-- Whatever the services behind the routes do, shared caches may keep nothing but
sent files exactly for the requests that can be sent one. -/
theorem caches_files_only_iff (d : Deployment) (request : HttpRequest) :
    (∀ routes : Routes, routes.Of d → CachesFilesOnly d request routes) ↔ Sendable d request := by
  constructor
  · intro h
    exact sendable_of_cachesFilesOnly (h (staticOnly d) (staticOnly_of d))
  · intro h routes hroutes
    exact cachesFilesOnly_of_sendable h hroutes

/-! ### A missing file -/

/-- `ServeDir` on a tree without precompressed siblings, and without conditions. -/
def rawServeDir (mimeGuess : String → Option HeaderValue) (tree : StaticTree) (root : String) :
    ServeDir (tree.disk root) where
  call := serveRaw mimeGuess tree root
  opens request :=
    let path := String.ofList (request.path.toList.drop 1)
    (tree.file path).map fun _ => joinPath root path
  unmet _ := False
  sends_iff request := by
    unfold serveRaw
    by_cases hmethod : request.method ∈ servedMethods
    · rw [if_pos hmethod]
      dsimp only
      cases hfile : tree.file (String.ofList (request.path.toList.drop 1)) with
      | none =>
          refine iff_of_false (show StatusCode.notFound ∉ fileStatuses by decide) ?_
          rintro ⟨-, ⟨path, hpath, -⟩, -⟩
          cases hpath
      | some content =>
          have hdisk : tree.disk root (joinPath root (String.ofList (request.path.toList.drop 1))) =
              some content :=
            (StaticTree.disk_joinPath (StaticTree.relative_of_file hfile)).trans hfile
          refine iff_of_true (List.mem_cons_self ..) ⟨hmethod, ⟨_, rfl, ?_⟩, not_false⟩
          rw [hdisk]
          rfl
    · rw [if_neg hmethod]
      exact iff_of_false (show StatusCode.methodNotAllowed ∉ fileStatuses by decide)
        fun h => hmethod h.1

/-- A deployment of the tree with one style sheet. -/
def cssDeployment : Deployment where
  state := .plain
  debugAssertions := false
  enabledEmail := none
  assets := .hashed "static" cssManifest
  order := .backwards
  mimeGuess := guessCss
  disk := cssTree.disk "static"
  serveDir := rawServeDir guessCss cssTree "static"
  compression := ⟨fun _ res => res, fun _ _ => rfl, fun _ _ _ _ => rfl⟩
  makeRequestId _ := none
  gitSha := headerOf "unknown" (by decide)

/-- A page of another deployment asks for its style sheet. -/
def otherHash : HttpRequest := ⟨"GET", "/static/css/app.486ea462.css", []⟩

/-- The missing style sheet is public for five minutes. -/
theorem missing_file_public :
    ¬ ∀ (d : Deployment) (routes : Routes) (request : HttpRequest), routes.Of d →
      CachesFilesOnly d request routes := by
  intro hall
  have hsendable := sendable_of_cachesFilesOnly
    (hall cssDeployment (staticOnly cssDeployment) otherHash (staticOnly_of cssDeployment))
  have hstatic : isStatic otherHash.path = true := by decide
  have hhashed : hashedFile cssDeployment (cssDeployment.seen otherHash) = none := by decide
  have hmissing : cssDeployment.serveDir.opens (staticRequest (cssDeployment.seen otherHash)) =
      none := by decide
  rcases hsendable with houtside | hnamed | ⟨-, ⟨path, hpath, -⟩, -⟩
  · rw [hstatic] at houtside
    cases houtside
  · rw [hhashed] at hnamed
    cases hnamed
  · rw [hmissing] at hpath
    cases hpath

end TodoRust.Router
