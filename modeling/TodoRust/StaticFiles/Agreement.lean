import TodoRust.StaticFiles.AssetUrls

/-!
# Hashed and unhashed paths

A file can be requested under its hashed path, from the service, and under its own
path, from `ServeDir`. `ServeDir` looks at the method of the request and offers ranges
of the file, the service does neither.
-/

namespace TodoRust.StaticFiles
open Rust

/-- A path that reads the same escaped and unescaped. -/
def UrlSafe (path : String) : Prop := SentAsIs path ∧ '%' ∉ path.toList

def conditionalHeaders : List String :=
  ["range", "if-range", "if-match", "if-none-match", "if-modified-since", "if-unmodified-since"]

/-- The request asks for the whole file, whatever the client has of it. -/
def Unconditional (headers : HeaderMap) : Prop :=
  ∀ name ∈ conditionalHeaders, headers.get name = none

def servedMethods : List String := ["GET", "HEAD"]

def Coding.ext : Coding → String
  | .br => "br"
  | .gzip => "gz"

/-- Header lines on caching: `Cache-Control` and the validators. -/
def cachingHeaders : List String := ["cache-control", "etag", "last-modified"]

/-- Header lines on the coded form of a body, which are gone when the coding is undone. -/
def codingHeaders : List String := ["content-encoding", "content-length"]

/-- Header lines in which a server says what else it can send. -/
def servingHeaders : List String := ["accept-ranges", "vary"]

def acceptRanges : HeaderValue := headerOf "bytes" (by decide)

/-- What `ServeDir` does with a request for a file, as it is documented: it answers GET
and HEAD with the file or a precompressed sibling, offers ranges of it, and refuses other
methods. -/
structure ServesTree (mimeGuess : String → Option HeaderValue) (tree : StaticTree)
    (root : String) (serveDir : FileRequest → FileResponse) : Prop where
  found : ∀ {method path : String} {content : List UInt8} {headers : HeaderMap},
    method ∈ servedMethods → UrlSafe path → tree.file path = some content →
    Unconditional headers →
      (serveDir ⟨method, "/" ++ path, headers⟩).status = StatusCode.ok ∧
      (serveDir ⟨method, "/" ++ path, headers⟩).headers.getAll "content-type" =
        [contentType mimeGuess (joinPath root path)] ∧
      (serveDir ⟨method, "/" ++ path, headers⟩).headers.getAll "accept-ranges" = [acceptRanges] ∧
      ∀ line ∈ (serveDir ⟨method, "/" ++ path, headers⟩).headers,
        line.1 ∈ "content-type" :: (cachingHeaders ++ servingHeaders ++ codingHeaders)
  body : ∀ {path : String} {content : List UInt8} {headers : HeaderMap},
    UrlSafe path → tree.file path = some content → Unconditional headers →
      (serveDir ⟨"GET", "/" ++ path, headers⟩).headers.get "content-encoding" = none ∧
        (serveDir ⟨"GET", "/" ++ path, headers⟩).body = content ∨
      ∃ coding : Coding,
        (serveDir ⟨"GET", "/" ++ path, headers⟩).headers.get "content-encoding" =
          some coding.header ∧
        tree.file (withExtraExt path coding.ext) =
          some (serveDir ⟨"GET", "/" ++ path, headers⟩).body
  refused : ∀ {method : String} (path : String) (headers : HeaderMap),
    method ∉ servedMethods →
      (serveDir ⟨method, path, headers⟩).status = StatusCode.methodNotAllowed

/-- Precompressed siblings hold what their file holds. -/
def SiblingsDecode (decoders : Decoders) (tree : StaticTree) : Prop :=
  ∀ path content coding sibling, tree.file path = some content →
    tree.file (withExtraExt path (Coding.ext coding)) = some sibling →
    decoders coding sibling = some content

/-- The body a client sees. The server sends none in answer to HEAD. -/
def seenBody (decoders : Decoders) (method : String) (response : FileResponse) :
    Option (List UInt8) :=
  if method = "HEAD" then some [] else response.decoded decoders

/-- Two responses say the same, once the coding of the body is undone, and differ at most
in the header lines of these names. -/
structure Agree (decoders : Decoders) (method : String) (apart : List String)
    (r r' : FileResponse) : Prop where
  status : r.status = r'.status
  body : seenBody decoders method r = seenBody decoders method r'
  headers : ∀ name ∉ apart ++ codingHeaders, r.headers.getAll name = r'.headers.getAll name

section Agreement
variable {mimeGuess : String → Option HeaderValue} {tree : StaticTree} {root path : String}
  {content : List UInt8} {decoders : Decoders} {serveDir : FileRequest → FileResponse}

theorem variantDecodes_of_siblings (hsiblings : SiblingsDecode decoders tree)
    (hfile : tree.file path = some content) (acceptEncoding : Option String) :
    VariantDecodes decoders tree path content acceptEncoding content := by
  have hbr := hsiblings path content .br
  have hgz := hsiblings path content .gzip
  unfold VariantDecodes StaticTree.variant
  cases accepts acceptEncoding "br" <;>
    cases hfbr : tree.file (withExtraExt path "br") <;>
      cases accepts acceptEncoding "gzip" <;>
        cases hfgz : tree.file (withExtraExt path "gz") <;>
          first | rfl | exact hbr _ hfile hfbr | exact hgz _ hfile hfgz

/-- What the service sends for a file decodes to the file. -/
theorem hashedResponse_decoded (hsiblings : SiblingsDecode decoders tree)
    (hfile : tree.file path = some content) (acceptEncoding : Option String) :
    (hashedResponse mimeGuess tree root path content acceptEncoding).decoded decoders =
      some content :=
  (hashedResponse_decoded_iff decoders).mpr
    (variantDecodes_of_siblings hsiblings hfile acceptEncoding)

/-- What `ServeDir` sends for a file decodes to the file. -/
theorem serveDir_decoded (hserve : ServesTree mimeGuess tree root serveDir)
    (hsiblings : SiblingsDecode decoders tree) (hsafe : UrlSafe path)
    (hfile : tree.file path = some content) {headers : HeaderMap}
    (hheaders : Unconditional headers) :
    (serveDir ⟨"GET", "/" ++ path, headers⟩).decoded decoders = some content := by
  rw [FileResponse.decoded]
  rcases hserve.body hsafe hfile hheaders with ⟨hcoding, hbody⟩ | ⟨coding, hcoding, hsibling⟩
  · rw [hcoding]
    exact congrArg some hbody
  · rw [hcoding]
    have hdecodes := hsiblings path content coding _ hfile hsibling
    cases coding with
    | br => exact (if_pos rfl).trans hdecodes
    | gzip =>
        have hne : Coding.gzip.header ≠ Coding.br.header := by decide
        exact (if_neg hne).trans ((if_pos rfl).trans hdecodes)

theorem hashedResponse_getAll_contentType (acceptEncoding : Option String) :
    (hashedResponse mimeGuess tree root path content acceptEncoding).headers.getAll
      "content-type" = [contentType mimeGuess (joinPath root path)] := by
  rw [hashedResponse, HeaderMap.getAll, List.filter_append]
  cases (tree.variant path content acceptEncoding).2 with
  | none => rfl
  | some coding => rfl

/-- The service sends no lines but these. -/
theorem hashedResponse_getAll_eq_nil (acceptEncoding : Option String) {name : String}
    (hname : name ∉ ["content-type", "cache-control", "vary", "content-encoding"]) :
    (hashedResponse mimeGuess tree root path content acceptEncoding).headers.getAll name = [] := by
  simp only [List.mem_cons, List.not_mem_nil, or_false, not_or] at hname
  obtain ⟨htype, hcache, hvary, hcoding⟩ := hname
  rw [hashedResponse, HeaderMap.getAll, List.filter_append]
  cases (tree.variant path content acceptEncoding).2 with
  | none => simp [Ne.symm htype, Ne.symm hcache, Ne.symm hvary]
  | some coding => simp [Ne.symm htype, Ne.symm hcache, Ne.symm hvary, Ne.symm hcoding]

/-- Files of one type are sent with the same lines, apart from the coding. -/
theorem hashedResponse_getAll_congr (acceptEncoding : Option String) {path' : String}
    {content' : List UInt8}
    (htype : contentType mimeGuess (joinPath root path') =
      contentType mimeGuess (joinPath root path))
    {name : String} (hname : name ≠ "content-encoding") :
    (hashedResponse mimeGuess tree root path content acceptEncoding).headers.getAll name =
      (hashedResponse mimeGuess tree root path' content' acceptEncoding).headers.getAll name := by
  have hcoding : ∀ coding : Option Coding, List.filter (fun line => line.1 == name)
      (coding.map fun enc => ("content-encoding", enc.header)).toList = [] := by
    intro coding
    cases coding with
    | none => rfl
    | some coding => simp [Ne.symm hname]
  rw [hashedResponse, hashedResponse, HeaderMap.getAll, HeaderMap.getAll, List.filter_append,
    List.filter_append, hcoding, hcoding, htype]

/-- Two files are answered alike exactly when they have one type and, where a body is
sent, one content. -/
theorem hashedResponses_agree_iff (hsiblings : SiblingsDecode decoders tree)
    (hfile : tree.file path = some content) {path' : String} {content' : List UInt8}
    (hfile' : tree.file path' = some content') {method : String} {acceptEncoding : Option String}
    {apart : List String} (hapart : "content-type" ∉ apart ++ codingHeaders) :
    Agree decoders method apart (hashedResponse mimeGuess tree root path content acceptEncoding)
        (hashedResponse mimeGuess tree root path' content' acceptEncoding) ↔
      contentType mimeGuess (joinPath root path') = contentType mimeGuess (joinPath root path) ∧
        (method = "HEAD" ∨ content' = content) := by
  have hbody : seenBody decoders method
      (hashedResponse mimeGuess tree root path content acceptEncoding) = seenBody decoders method
        (hashedResponse mimeGuess tree root path' content' acceptEncoding) ↔
      method = "HEAD" ∨ content' = content := by
    unfold seenBody
    by_cases hhead : method = "HEAD"
    · simp [hhead]
    · rw [if_neg hhead, if_neg hhead, hashedResponse_decoded hsiblings hfile,
        hashedResponse_decoded hsiblings hfile', Option.some.injEq, or_iff_right hhead, eq_comm]
  constructor
  · intro h
    have hcontentType := h.headers _ hapart
    rw [hashedResponse_getAll_contentType, hashedResponse_getAll_contentType,
      List.cons.injEq] at hcontentType
    exact ⟨hcontentType.1.symm, hbody.mp h.body⟩
  · rintro ⟨hcontentType, hsame⟩
    refine ⟨rfl, hbody.mpr hsame, fun name hname => ?_⟩
    have hcoding : name ≠ "content-encoding" := by
      rintro rfl
      exact hname (List.mem_append_right _ (by decide))
    exact hashedResponse_getAll_congr acceptEncoding hcontentType hcoding

/-- What the service and `ServeDir` send for one file differs in the lines on caching and
in what each says it can send besides. -/
theorem hashedResponse_agree_serveDir (hserve : ServesTree mimeGuess tree root serveDir)
    (hsiblings : SiblingsDecode decoders tree) (hsafe : UrlSafe path)
    (hfile : tree.file path = some content) {method : String} (hmethod : method ∈ servedMethods)
    {headers : HeaderMap} (hheaders : Unconditional headers) :
    Agree decoders method (cachingHeaders ++ servingHeaders)
      (hashedResponse mimeGuess tree root path content (acceptEncodingOf headers))
      { serveDir ⟨method, "/" ++ path, headers⟩ with
        headers := (serveDir ⟨method, "/" ++ path, headers⟩).headers.insert "cache-control"
          fiveMinutes } := by
  obtain ⟨hstatus, htype, -, hlines⟩ := hserve.found hmethod hsafe hfile hheaders
  refine ⟨hstatus.symm, ?_, fun name hname => ?_⟩
  · rcases List.mem_pair.mp hmethod with rfl | rfl
    · have hserved := serveDir_decoded hserve hsiblings hsafe hfile hheaders
      rw [FileResponse.decoded] at hserved
      rw [seenBody, seenBody, if_neg (by decide), if_neg (by decide),
        hashedResponse_decoded hsiblings hfile, FileResponse.decoded,
        HeaderMap.get_insert_of_ne _ (by decide)]
      exact hserved.symm
    · rfl
  · have hne : ∀ own ∈ cachingHeaders ++ servingHeaders ++ codingHeaders, name ≠ own :=
      fun own hown h => hname (h ▸ hown)
    rw [HeaderMap.getAll_insert_of_ne _ (hne "cache-control" (by decide))]
    by_cases hown : name = "content-type"
    · subst hown
      rw [htype, hashedResponse_getAll_contentType]
    · have hlisted : name ∉ ["content-type", "cache-control", "vary", "content-encoding"] := by
        simp only [List.mem_cons, List.not_mem_nil, or_false, not_or]
        exact ⟨hown, hne _ (by decide), hne _ (by decide), hne _ (by decide)⟩
      rw [hashedResponse_getAll_eq_nil _ hlisted, HeaderMap.getAll, eq_comm, List.map_eq_nil_iff,
        List.filter_eq_nil_iff]
      intro line hline hline'
      rcases List.mem_cons.mp (beq_iff_eq.mp hline' ▸ hlines line hline) with h | h
      · exact hown h
      · exact hname h

variable {sha : Sha256} {io : Io} {assets : Assets} {order : IterationOrder}

/-- `path` is by accident the hashed path of a file that is sent as `content` is. -/
def HashedAlike (sha : Sha256) (mimeGuess : String → Option HeaderValue) (tree : StaticTree)
    (root path : String) (content : List UInt8) (method : String) : Prop :=
  ∃ path' content', IsHashedPath sha tree path path' content' ∧
    contentType mimeGuess (joinPath root path') = contentType mimeGuess (joinPath root path) ∧
    (method = "HEAD" ∨ content' = content)

/-- A hashed path and the path of its file are answered alike up to the lines on caching
only where both are answered by the service, which they are if the path is by accident
the hashed path of another file. `ServeDir` offers ranges, and the service does not. But
for such lines the two agree exactly where `ServeDir` answers at all. -/
theorem hashed_unhashed_agree_iff (hassets : Assets.production sha io root tree = some assets)
    (hserve : ServesTree mimeGuess tree root serveDir) (hsiblings : SiblingsDecode decoders tree)
    (hsafe : UrlSafe path) (hpre : isPrecompressed path = false)
    (hfile : tree.file path = some content) (method : String) {headers : HeaderMap}
    (hheaders : Unconditional headers) :
    (Agree decoders method cachingHeaders
        (staticService mimeGuess assets order (tree.disk root) serveDir
          ⟨method, "/" ++ assets.resolve path, headers⟩)
        (staticService mimeGuess assets order (tree.disk root) serveDir
          ⟨method, "/" ++ path, headers⟩) ↔
      HashedAlike sha mimeGuess tree root path content method) ∧
    (Agree decoders method (cachingHeaders ++ servingHeaders)
        (staticService mimeGuess assets order (tree.disk root) serveDir
          ⟨method, "/" ++ assets.resolve path, headers⟩)
        (staticService mimeGuess assets order (tree.disk root) serveDir
          ⟨method, "/" ++ path, headers⟩) ↔
      HashedAlike sha mimeGuess tree root path content method ∨
      ((∀ path' content', ¬ IsHashedPath sha tree path path' content') ∧
        method ∈ servedMethods)) := by
  have hown : IsHashedPath sha tree (injectHash path (shortHash sha content)) path content :=
    ⟨hpre, hfile, rfl⟩
  have hhash : tree.hash sha path = some (shortHash sha content) :=
    StaticTree.hash_eq_some_iff.mpr ⟨hpre, content, hfile, rfl⟩
  rw [resolve_of_hash hassets hhash,
    staticService_hashed hassets hown (injectHash_relative hfile _)]
  have hrelative := StaticTree.relative_of_file hfile
  by_cases hother : ∃ path' content', IsHashedPath sha tree path path' content'
  · obtain ⟨path', content', h⟩ := hother
    have halike : HashedAlike sha mimeGuess tree root path content method ↔
        contentType mimeGuess (joinPath root path') = contentType mimeGuess (joinPath root path) ∧
          (method = "HEAD" ∨ content' = content) := by
      constructor
      · rintro ⟨path'', content'', h', hsame⟩
        obtain ⟨rfl, rfl⟩ := isHashedPath_unique h h'
        exact hsame
      · exact fun hsame => ⟨path', content', h, hsame⟩
    rw [staticService_hashed hassets h hrelative,
      hashedResponses_agree_iff hsiblings hfile h.2.1 (by decide),
      hashedResponses_agree_iff hsiblings hfile h.2.1 (by decide), halike]
    exact ⟨Iff.rfl, (or_iff_left fun hnone => hnone.1 path' content' h).symm⟩
  · have hnone : ∀ path' content', ¬ IsHashedPath sha tree path path' content' :=
      fun path' content' h => hother ⟨path', content', h⟩
    have halike : ¬ HashedAlike sha mimeGuess tree root path content method :=
      fun ⟨path', content', h, _⟩ => hnone path' content' h
    rw [staticService_other hassets hnone hrelative, or_iff_right halike]
    by_cases hmethod : method ∈ servedMethods
    · refine ⟨iff_of_false (fun hagree => ?_) halike,
        iff_of_true (hashedResponse_agree_serveDir hserve hsiblings hsafe hfile hmethod hheaders)
          ⟨hnone, hmethod⟩⟩
      -- the service sends no `Accept-Ranges`
      have hranges := hagree.headers "accept-ranges" (by decide)
      rw [hashedResponse_getAll_eq_nil _ (by decide), HeaderMap.getAll_insert_of_ne _ (by decide),
        (hserve.found hmethod hsafe hfile hheaders).2.2.1] at hranges
      cases hranges
    · have hdiffer : ∀ apart, ¬ Agree decoders method apart
          (hashedResponse mimeGuess tree root path content (acceptEncodingOf headers))
          { serveDir ⟨method, "/" ++ path, headers⟩ with
            headers := (serveDir ⟨method, "/" ++ path, headers⟩).headers.insert "cache-control"
              fiveMinutes } := by
        intro apart hagree
        have hok : StatusCode.ok = StatusCode.methodNotAllowed :=
          hagree.status.trans (hserve.refused _ _ hmethod)
        exact absurd hok (by decide)
      exact ⟨iff_of_false (hdiffer _) halike, iff_of_false (hdiffer _) fun h => hmethod h.2⟩

end Agreement

/-- `ServeDir` on a tree without precompressed siblings. -/
def serveRaw (mimeGuess : String → Option HeaderValue) (tree : StaticTree) (root : String)
    (request : FileRequest) : FileResponse :=
  if request.method ∈ servedMethods then
    match tree.file (String.ofList (request.path.toList.drop 1)) with
    | some content =>
        { status := StatusCode.ok
          headers := [("content-type", contentType mimeGuess
              (joinPath root (String.ofList (request.path.toList.drop 1)))),
              ("accept-ranges", acceptRanges),
              ("last-modified", headerOf "Tue, 19 May 2026 22:00:00 GMT" (by decide))] ++
            ((HeaderValue.fromStr (toString content.length)).map ("content-length", ·)).toList
          body := if request.method = "HEAD" then [] else content }
    | none => notFound
  else ⟨StatusCode.methodNotAllowed, [], []⟩

/-- No lines but those of `ServeDir` are sent. -/
theorem serveRaw_getAll_eq_nil (mimeGuess : String → Option HeaderValue) (tree : StaticTree)
    (root : String) (request : FileRequest) {name : String}
    (hname : name ∉ "content-type" :: (cachingHeaders ++ servingHeaders ++ codingHeaders)) :
    (serveRaw mimeGuess tree root request).headers.getAll name = [] := by
  have hne : ∀ own ∈ "content-type" :: (cachingHeaders ++ servingHeaders ++ codingHeaders),
      own ≠ name := fun own hown h => hname (h ▸ hown)
  have htype : "content-type" ≠ name := hne _ (by decide)
  have hranges : "accept-ranges" ≠ name := hne _ (by decide)
  have hmodified : "last-modified" ≠ name := hne _ (by decide)
  have hlength : "content-length" ≠ name := hne _ (by decide)
  unfold serveRaw
  split
  · split
    · rename_i content _
      cases HeaderValue.fromStr (toString content.length) with
      | none => simp [HeaderMap.getAll, htype, hranges, hmodified]
      | some length => simp [HeaderMap.getAll, htype, hranges, hmodified, hlength]
    · rfl
  · rfl

theorem serveRaw_servesTree (mimeGuess : String → Option HeaderValue) (tree : StaticTree)
    (root : String) : ServesTree mimeGuess tree root (serveRaw mimeGuess tree root) := by
  have hdrop : ∀ path : String, String.ofList (("/" ++ path).toList.drop 1) = path := by
    intro path
    simp
  refine ⟨?_, ?_, ?_⟩
  · intro method path content headers hmethod _ hfile _
    simp only [serveRaw, hmethod, if_true, hdrop, hfile]
    cases HeaderValue.fromStr (toString content.length) with
    | none => exact ⟨trivial, rfl, rfl, by simp [cachingHeaders, servingHeaders]⟩
    | some length =>
        exact ⟨trivial, rfl, rfl, by simp [cachingHeaders, servingHeaders, codingHeaders]⟩
  · intro path content headers _ hfile _
    have hget : "GET" ∈ servedMethods := by decide
    simp only [serveRaw, hget, if_true, hdrop, hfile]
    cases HeaderValue.fromStr (toString content.length) with
    | none => exact Or.inl ⟨rfl, rfl⟩
    | some length => exact Or.inl ⟨rfl, rfl⟩
  · intro method path headers hmethod
    simp only [serveRaw, hmethod, if_false]

theorem cssTree_file {path : String} {content : List UInt8}
    (h : cssTree.file path = some content) : path = "css/app.css" ∧ content = asBytes "hello" := by
  have hmem := StaticTree.file_eq_some_iff.mp h
  have hcontents : cssTree.contents = [("css/app.css", asBytes "hello")] := by decide
  rw [hcontents, List.mem_singleton] at hmem
  exact Prod.ext_iff.mp hmem

theorem cssTree_siblingsDecode (decoders : Decoders) : SiblingsDecode decoders cssTree := by
  intro path content coding sibling hfile hsibling
  obtain ⟨rfl, -⟩ := cssTree_file hfile
  have hext := (cssTree_file hsibling).1
  cases coding with
  | br => exact absurd hext (by decide)
  | gzip => exact absurd hext (by decide)

/-- No file of the tree is named like a hashed path. -/
theorem cssTree_not_hashed (path : String) (content : List UInt8) :
    ¬ IsHashedPath .hello cssTree "css/app.css" path content := by
  rintro ⟨-, hfile, hurl⟩
  obtain ⟨rfl, rfl⟩ := cssTree_file hfile
  exact absurd hurl (by decide)

/-- The two answers to a plain GET agree but for what each server says it can send. -/
theorem hashed_unhashed_agree_css :
    ¬ Agree (fun _ _ => none) "GET" cachingHeaders
        (staticService guessCss (.hashed "static" cssManifest) .backwards (cssTree.disk "static")
          (serveRaw guessCss cssTree "static")
          ⟨"GET", "/" ++ (Assets.hashed "static" cssManifest).resolve "css/app.css", []⟩)
        (staticService guessCss (.hashed "static" cssManifest) .backwards (cssTree.disk "static")
          (serveRaw guessCss cssTree "static") ⟨"GET", "/" ++ "css/app.css", []⟩) ∧
      Agree (fun _ _ => none) "GET" (cachingHeaders ++ servingHeaders)
        (staticService guessCss (.hashed "static" cssManifest) .backwards (cssTree.disk "static")
          (serveRaw guessCss cssTree "static")
          ⟨"GET", "/" ++ (Assets.hashed "static" cssManifest).resolve "css/app.css", []⟩)
        (staticService guessCss (.hashed "static" cssManifest) .backwards (cssTree.disk "static")
          (serveRaw guessCss cssTree "static") ⟨"GET", "/" ++ "css/app.css", []⟩) := by
  have hfile : cssTree.file "css/app.css" = some (asBytes "hello") := by decide
  have hplain : Unconditional [] := fun _ _ => rfl
  obtain ⟨hcaching, hserving⟩ := hashed_unhashed_agree_iff production_css
    (serveRaw_servesTree guessCss cssTree "static") (cssTree_siblingsDecode fun _ _ => none)
    ⟨by decide, by decide⟩ (by decide) hfile "GET" hplain
  exact ⟨mt hcaching.mp fun ⟨path, content, h, _⟩ => cssTree_not_hashed path content h,
    hserving.mpr (Or.inr ⟨cssTree_not_hashed, by decide⟩)⟩

theorem hashed_unhashed_differ_post :
    ¬ ∀ (sha : Sha256) (io : Io) (root : String) (tree : StaticTree) (assets : Assets)
      (order : IterationOrder) (mimeGuess : String → Option HeaderValue)
      (serveDir : FileRequest → FileResponse) (decoders : Decoders) (path : String)
      (content : List UInt8) (method : String) (headers : HeaderMap),
      Assets.production sha io root tree = some assets →
      ServesTree mimeGuess tree root serveDir → SiblingsDecode decoders tree → UrlSafe path →
      isPrecompressed path = false → tree.file path = some content → Unconditional headers →
      Agree decoders method cachingHeaders
        (staticService mimeGuess assets order (tree.disk root) serveDir
          ⟨method, "/" ++ assets.resolve path, headers⟩)
        (staticService mimeGuess assets order (tree.disk root) serveDir
          ⟨method, "/" ++ path, headers⟩) := by
  intro h
  have hagree := h .hello .small "static" cssTree (.hashed "static" cssManifest) .backwards guessCss
    (serveRaw guessCss cssTree "static") (fun _ _ => none) "css/app.css" (asBytes "hello") "POST" []
    production_css (serveRaw_servesTree guessCss cssTree "static") (cssTree_siblingsDecode _)
    ⟨by decide, by decide⟩ (by decide) (by decide) fun _ _ => rfl
  exact absurd hagree.status (by decide)

end TodoRust.StaticFiles
