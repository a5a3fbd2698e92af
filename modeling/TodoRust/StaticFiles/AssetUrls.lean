import TodoRust.StaticFiles.Serve

/-!
# The URLs of the asset helper

Templates name files through `asset`, which writes the hashed path as it is. A
browser escapes what a URL path cannot hold, and the service compares the escaped
path with the unescaped names of its manifest.
-/

namespace TodoRust.StaticFiles
open Rust

/-- `asset` -/
def asset (assets : Assets) (logical : String) : String := "/static/" ++ assets.resolve logical

/-! ### What a browser requests -/

/-- The characters that end the path of a URL. -/
def endsPath (c : Char) : Bool := c = '?' || c = '#'

/-- The path percent-encode set. A percent sign is not in it. -/
def isEscaped (c : Char) : Bool :=
  c.toNat < 0x21 || 0x7e < c.toNat || c ∈ ['"', '<', '>', '^', '\x60', '\x7b', '\x7d']

/-- A byte as a browser escapes it. -/
def percentEncode (b : UInt8) : List Char :=
  ['%', (Nat.digitChar (b.toNat / 16)).toUpper, (Nat.digitChar (b.toNat % 16)).toUpper]

def escapeChar (c : Char) : List Char :=
  if isEscaped c then (String.utf8EncodeChar c).flatMap percentEncode else [c]

/-- The path a browser sends for a reference that is an absolute path. -/
def requestPath (url : String) : String :=
  String.ofList ((url.toList.takeWhile fun c => !endsPath c).flatMap escapeChar)

/-- What `nest_service` leaves of the path. -/
def stripStatic (path : String) : String := String.ofList (path.toList.drop "/static".length)

/-- A browser sends the text as it is. -/
def SentAsIs (url : String) : Prop := ∀ c ∈ url.toList, endsPath c = false ∧ isEscaped c = false

instance (url : String) : Decidable (SentAsIs url) :=
  List.decidableBAll (fun c => endsPath c = false ∧ isEscaped c = false) url.toList

theorem requestPath_sentAsIs {url : String} (h : SentAsIs url) : requestPath url = url := by
  have htake : url.toList.takeWhile (fun c => !endsPath c) = url.toList :=
    List.takeWhile_eq_self_iff.mpr fun c hc => by simp [(h c hc).1]
  have hescape : url.toList.flatMap escapeChar = url.toList := by
    calc
      url.toList.flatMap escapeChar = url.toList.flatMap fun c => [c] :=
        List.flatMap_congr fun c hc => by simp [escapeChar, (h c hc).2]
      _ = url.toList := List.flatMap_singleton' _
  rw [requestPath, htake, hescape, String.ofList_toList]

/-- The service is asked for the escaped hashed path. -/
theorem stripStatic_requestPath_asset (assets : Assets) (logical : String) :
    stripStatic (requestPath (asset assets logical)) =
      "/" ++ requestPath (assets.resolve logical) := by
  have hasset : (asset assets logical).toList =
      "/static/".toList ++ (assets.resolve logical).toList := by simp [asset]
  have hstatic : ∀ c ∈ "/static/".toList, (!endsPath c) = true :=
    List.all_eq_true.mp (by decide)
  rw [stripStatic, requestPath, hasset, List.takeWhile_append_of_pos hstatic, String.toList_ofList,
    List.flatMap_append]
  have hstatic : "/static/".toList.flatMap escapeChar = "/static/".toList := by decide
  have hlength : "/static".length = 7 := by decide
  rw [hstatic, hlength, ← String.toList_inj]
  simp [requestPath]

theorem startsWith_requestPath {url : String} (h : startsWith url ['/'] = false) :
    startsWith (requestPath url) ['/'] = false := by
  rw [requestPath, startsWith, String.toList_ofList]
  cases hurl : url.toList with
  | nil => rfl
  | cons c cs =>
      have hc : ('/' == c) = false := by
        simpa [startsWith, hurl, List.isPrefixOf] using h
      rw [List.takeWhile_cons]
      split
      · rw [List.flatMap_cons, escapeChar]
        split
        · obtain ⟨b, bs, hbytes⟩ :=
            List.exists_cons_of_ne_nil (String.utf8EncodeChar_ne_nil (c := c))
          rw [hbytes]
          rfl
        · simp [List.isPrefixOf, hc]
      · rfl

/-- Injecting a hash adds only characters that are sent as they are. -/
theorem sentAsIs_injectHash {path hash : String} (hpath : SentAsIs path) (hhash : SentAsIs hash) :
    SentAsIs (injectHash path hash) := by
  have hdot : endsPath '.' = false ∧ isEscaped '.' = false := by decide
  by_cases h : '.' ∈ path.toList
  · obtain ⟨stem, ext, hlast, hext⟩ := exists_last_dot h
    rw [SentAsIs, hlast] at hpath
    rw [SentAsIs, injectHash_extension hlast hext]
    simp only [List.forall_mem_append, List.forall_mem_cons] at hpath ⊢
    exact ⟨hpath.1, hdot, hhash, hdot, hpath.2.2⟩
  · rw [SentAsIs, injectHash_no_extension h]
    simp only [List.forall_mem_append, List.forall_mem_cons]
    exact ⟨hpath, hdot, hhash⟩

theorem sentAsIs_shortHash (sha : Sha256) (content : List UInt8) :
    SentAsIs (shortHash sha content) := by
  have hdigit : ∀ n < 16,
      endsPath (Nat.digitChar n) = false ∧ isEscaped (Nat.digitChar n) = false := by
    decide
  rw [SentAsIs, shortHash, hexShort, String.toList_ofList]
  intro c hc
  obtain ⟨b, -, hb⟩ := List.mem_flatMap.mp hc
  have hlt := b.toNat_lt
  simp only [List.mem_cons, List.not_mem_nil, or_false] at hb
  rcases hb with rfl | rfl
  · exact hdigit _ (by omega)
  · exact hdigit _ (by omega)

/-! ### What is served -/

/-- The response carries the bytes and may be kept for good. -/
def ServedForGood (decoders : Decoders) (bytes : List UInt8) (response : FileResponse) : Prop :=
  response.status = StatusCode.ok ∧ response.decoded decoders = some bytes ∧
    response.headers.get "cache-control" = some immutable

/-- The URL path is the hashed path of a file, and what is sent for the file decodes to
the bytes. -/
def HashedPathOf (sha : Sha256) (decoders : Decoders) (tree : StaticTree) (url : String)
    (acceptEncoding : Option String) (bytes : List UInt8) : Prop :=
  ∃ path content, IsHashedPath sha tree url path content ∧
    VariantDecodes decoders tree path content acceptEncoding bytes

section Served
variable {sha : Sha256} {io : Io} {root : String} {tree : StaticTree} {assets : Assets}
  {order : IterationOrder} {mimeGuess : String → Option HeaderValue}
  {serveDir : FileRequest → FileResponse} {decoders : Decoders} {bytes : List UInt8}

theorem hashedPathOf_iff {url path : String} {content : List UInt8}
    {acceptEncoding : Option String} (h : IsHashedPath sha tree url path content) :
    HashedPathOf sha decoders tree url acceptEncoding bytes ↔
      VariantDecodes decoders tree path content acceptEncoding bytes := by
  constructor
  · rintro ⟨path', content', h', hdecodes⟩
    obtain ⟨rfl, rfl⟩ := isHashedPath_unique h h'
    exact hdecodes
  · exact fun hdecodes => ⟨path, content, h, hdecodes⟩

/-- Only the hashed path of a file is served for good. -/
theorem servedForGood_iff (hassets : Assets.production sha io root tree = some assets)
    {url : String} (hrelative : startsWith url ['/'] = false) (method : String)
    (headers : HeaderMap) :
    ServedForGood decoders bytes (staticService mimeGuess assets order (tree.disk root) serveDir
        ⟨method, "/" ++ url, headers⟩) ↔
      HashedPathOf sha decoders tree url (acceptEncodingOf headers) bytes := by
  by_cases hhit : ∃ path content, IsHashedPath sha tree url path content
  · obtain ⟨path, content, h⟩ := hhit
    rw [staticService_hashed hassets h hrelative, ServedForGood, hashedResponse_decoded_iff,
      hashedPathOf_iff h]
    exact ⟨fun h => h.2.1, fun h => ⟨rfl, h, rfl⟩⟩
  · rw [staticService_other hassets (fun path content h => hhit ⟨path, content, h⟩)
      hrelative]
    have hheader : fiveMinutes ≠ immutable := by decide
    constructor
    · rintro ⟨-, -, hcache⟩
      rw [HeaderMap.get_insert] at hcache
      exact absurd (Option.some.inj hcache) hheader
    · rintro ⟨path, content, h, -⟩
      exact absurd ⟨path, content, h⟩ hhit

/-- The URL that `asset` writes for a file is served with the file's bytes exactly when
the browser sends it as it is and the sibling that is sent, if any, decodes to the
file, or when by accident the escaped path is the hashed path of another file that
decodes to the same bytes. -/
theorem asset_url_served_iff (hassets : Assets.production sha io root tree = some assets)
    {path : String} {content : List UInt8} (hpre : isPrecompressed path = false)
    (hfile : tree.file path = some content) (headers : HeaderMap) :
    ServedForGood decoders content (staticService mimeGuess assets order (tree.disk root) serveDir
        ⟨"GET", stripStatic (requestPath (asset assets path)), headers⟩) ↔
      (SentAsIs path ∧
        VariantDecodes decoders tree path content (acceptEncodingOf headers) content) ∨
      (¬ SentAsIs path ∧ HashedPathOf sha decoders tree
        (requestPath (injectHash path (shortHash sha content))) (acceptEncodingOf headers)
        content) := by
  have hhash : tree.hash sha path = some (shortHash sha content) :=
    StaticTree.hash_eq_some_iff.mpr ⟨hpre, content, hfile, rfl⟩
  have hown : IsHashedPath sha tree (injectHash path (shortHash sha content)) path content :=
    ⟨hpre, hfile, rfl⟩
  have hrelative := startsWith_requestPath (injectHash_relative hfile (shortHash sha content))
  rw [stripStatic_requestPath_asset, resolve_of_hash hassets hhash,
    servedForGood_iff hassets hrelative]
  by_cases hsent : SentAsIs path
  · rw [requestPath_sentAsIs (sentAsIs_injectHash hsent (sentAsIs_shortHash sha content)),
      hashedPathOf_iff hown]
    exact ⟨fun h => Or.inl ⟨hsent, h⟩, fun h => h.elim And.right fun h => absurd hsent h.1⟩
  · exact ⟨fun h => Or.inr ⟨hsent, h⟩, fun h => h.elim (fun h => absurd h.1 hsent) And.right⟩

end Served

/-- The type of style sheets. -/
def guessCss (path : String) : Option HeaderValue :=
  if endsWith path ".css".toList then some (headerOf "text/css" (by decide)) else none

theorem asset_url_served_css :
    ServedForGood (fun _ _ => none) (asBytes "hello") (staticService guessCss
      (.hashed "static" cssManifest) .backwards (cssTree.disk "static") (fun _ => notFound)
      ⟨"GET", stripStatic (requestPath (asset (.hashed "static" cssManifest) "css/app.css")),
        []⟩) :=
  have hfile : cssTree.file "css/app.css" = some (asBytes "hello") := by decide
  (asset_url_served_iff production_css (by decide) hfile []).mpr (Or.inl ⟨by decide, rfl⟩)

/-- A tree whose only file has a space in its name. -/
def spaceTree : StaticTree where
  directory := .file "a b.css" (asBytes "hello") .empty
  wellFormed := ⟨by decide, by decide, trivial⟩

def spaceManifest : Manifest := (∅ : Manifest).insert "a b.css" "a b.2cf24dba.css"

theorem production_space :
    Assets.production .hello .small "static" spaceTree =
      some (.hashed "static" spaceManifest) := by
  rw [Assets.production, spaceTree]
  simp only [walkFiles, hashFile_hello]
  rfl

theorem asset_url_with_space :
    ¬ ∀ (sha : Sha256) (io : Io) (root : String) (tree : StaticTree) (assets : Assets)
      (order : IterationOrder) (mimeGuess : String → Option HeaderValue)
      (serveDir : FileRequest → FileResponse) (decoders : Decoders) (path : String)
      (content : List UInt8) (headers : HeaderMap),
      Assets.production sha io root tree = some assets → isPrecompressed path = false →
      tree.file path = some content →
      ServedForGood decoders content (staticService mimeGuess assets order (tree.disk root)
        serveDir ⟨"GET", stripStatic (requestPath (asset assets path)), headers⟩) := by
  intro h
  have hserved := h _ _ _ _ _ .backwards guessCss (fun _ => notFound) (fun _ _ => none) "a b.css"
    (asBytes "hello") [] production_space (by decide) (by decide)
  exact absurd hserved.1 (by decide)

end TodoRust.StaticFiles
