import Mathlib.Data.List.Find
import TodoRust.Rust.Http
import TodoRust.StaticFiles.HashedUrls

/-!
# The static service

A path from the manifest is answered with the file and a header that lets caches
keep it for good; any other path is left to `ServeDir`.
-/

namespace TodoRust.StaticFiles
open Rust

structure FileRequest where
  method : String
  path : String
  headers : HeaderMap

structure FileResponse where
  status : StatusCode
  headers : HeaderMap
  body : List UInt8

/-- The content of the file at an absolute path, if there is a file. -/
abbrev Disk := String → Option (List UInt8)

/-- The disk while a tree lies at `root`. -/
def StaticTree.disk (tree : StaticTree) (root : String) : Disk := fun p =>
  (tree.contents.find? fun f => joinPath root f.1 == p).map Prod.snd

/-! ### Serving a file -/

/-- Whether `Accept-Encoding` lists a coding, whatever weight it gives it. -/
def accepts (acceptEncoding : Option String) (needle : String) : Bool :=
  match acceptEncoding with
  | none => false
  | some h => (split h.toList ',').any fun t =>
      (split (trimChars t) ';').head? = some needle.toList

/-- The codings files are kept in. -/
inductive Coding
  | br
  | gzip
  deriving DecidableEq

/-- `with_extra_ext` -/
def withExtraExt (path ext : String) : String := path ++ "." ++ ext

/-- `pick_precompressed` -/
def pickPrecompressed (disk : Disk) (path : String) (acceptEncoding : Option String) :
    String × Option Coding :=
  if accepts acceptEncoding "br" = true ∧ (disk (withExtraExt path "br")).isSome = true then
    (withExtraExt path "br", some .br)
  else if accepts acceptEncoding "gzip" = true ∧
      (disk (withExtraExt path "gz")).isSome = true then
    (withExtraExt path "gz", some .gzip)
  else (path, none)

def headerOf (s : String) (valid : (asBytes s).all isValidByte = true) : HeaderValue :=
  ⟨asBytes s, valid⟩

def octetStream : HeaderValue := headerOf "application/octet-stream" (by decide)

def immutable : HeaderValue := headerOf "public, max-age=31536000, immutable" (by decide)

def fiveMinutes : HeaderValue := headerOf "public, max-age=300" (by decide)

def Coding.header : Coding → HeaderValue
  | .br => headerOf "br" (by decide)
  | .gzip => headerOf "gzip" (by decide)

section Service
variable (mimeGuess : String → Option HeaderValue)

/-- The type of a file, which `mime_guess` tells from the end of its path. -/
def contentType (path : String) : HeaderValue := (mimeGuess path).getD octetStream

/-- `serve_immutable_file`; `none` where the file cannot be opened. -/
def serveImmutableFile (disk : Disk) (path : String) (acceptEncoding : Option String) :
    Option FileResponse :=
  let (openPath, encoding) := pickPrecompressed disk path acceptEncoding
  (disk openPath).map fun body =>
    { status := StatusCode.ok
      headers := [("content-type", contentType mimeGuess path), ("cache-control", immutable),
          ("vary", headerOf "Accept-Encoding" (by decide))] ++
        (encoding.map fun enc => ("content-encoding", enc.header)).toList
      body := body }

/-- `not_found` -/
def notFound : FileResponse := ⟨StatusCode.notFound, [], []⟩

/-- The service of `build_router` for the static tree. -/
def staticService (assets : Assets) (order : IterationOrder) (disk : Disk)
    (serveDir : FileRequest → FileResponse) (request : FileRequest) : FileResponse :=
  let path := String.ofList (request.path.toList.dropWhile (· == '/'))
  match assets.resolveHashedRequest order path with
  | some onDisk =>
      let ae := (request.headers.get "accept-encoding").bind HeaderValue.toStr
      (serveImmutableFile mimeGuess disk onDisk ae).getD notFound
  | none =>
      let response := serveDir request
      { response with headers := response.headers.insert "cache-control" fiveMinutes }

end Service

/-! ### The tree on the disk -/

section OnDisk
variable {tree : StaticTree} {root path : String} {content : List UInt8}

theorem startsWith_slash_append {s : String} (h : startsWith s ['/'] = false) (hs : s ≠ "")
    (t : String) : startsWith (s ++ t) ['/'] = false := by
  obtain ⟨c, cs, hcs⟩ :=
    List.exists_cons_of_ne_nil fun hnil => hs (String.toList_eq_nil_iff.mp hnil)
  simp only [startsWith, String.toList_append, hcs, List.cons_append] at h ⊢
  exact h

/-- A file's path begins with a name, not with a slash. -/
theorem StaticTree.exists_head_of_file (h : tree.file path = some content) :
    ∃ c cs, path.toList = c :: cs ∧ c ≠ '/' := by
  obtain ⟨f, hf, heq⟩ := List.mem_map.mp (file_eq_some_iff.mp h)
  obtain ⟨rfl, rfl⟩ := Prod.ext_iff.mp heq
  obtain ⟨name, _, rest, hpath⟩ := Directory.exists_name_of_mem_files hf
  have hvalid : ValidName name :=
    Directory.validName_of_mem_files tree.wellFormed hf name (by simp [hpath])
  obtain ⟨c, cs, hcs⟩ :=
    List.exists_cons_of_ne_nil fun hnil => hvalid.1 (String.toList_eq_nil_iff.mp hnil)
  have hc : c ≠ '/' := fun h => hvalid.2.1 (by simp [hcs, h])
  simp only [logicalPath, hpath, String.toList_ofList, List.map_cons]
  cases rest with
  | nil => exact ⟨c, cs, by simp [hcs], hc⟩
  | cons name' rest =>
      rw [List.intercalate_cons_of_ne_nil (by simp), hcs]
      exact ⟨c, _, rfl, hc⟩

theorem StaticTree.relative_of_file (h : tree.file path = some content) :
    startsWith path ['/'] = false := by
  obtain ⟨c, cs, hcs, hc⟩ := exists_head_of_file h
  simp [startsWith, hcs, List.isPrefixOf, Ne.symm hc]

theorem StaticTree.ne_empty_of_file (h : tree.file path = some content) : path ≠ "" := by
  obtain ⟨c, cs, hcs, _⟩ := exists_head_of_file h
  rintro rfl
  cases hcs

/-- What `Path::join` puts before a relative path. -/
def joinPrefix (root : String) : String :=
  if root = "" || endsWith root ['/'] then root else root ++ "/"

theorem joinPath_relative (h : startsWith path ['/'] = false) :
    joinPath root path = joinPrefix root ++ path := by
  unfold joinPath joinPrefix
  rw [h, if_neg Bool.false_ne_true]
  split <;> rfl

theorem joinPath_inj {path' : String} (h : startsWith path ['/'] = false)
    (h' : startsWith path' ['/'] = false) :
    joinPath root path = joinPath root path' ↔ path = path' := by
  rw [joinPath_relative h, joinPath_relative h', ← String.toList_inj, String.toList_append,
    String.toList_append, List.append_cancel_left_eq, String.toList_inj]

/-- The disk below `root` is the tree. -/
theorem StaticTree.disk_joinPath (h : startsWith path ['/'] = false) :
    tree.disk root (joinPath root path) = tree.file path := by
  rw [disk, file]
  congr 1
  refine List.find?_congr fun f hf => ?_
  have hrelative := relative_of_file (file_eq_some_iff.mpr hf)
  rw [Bool.eq_iff_iff, beq_iff_eq, beq_iff_eq, joinPath_inj hrelative h]

theorem withExtraExt_joinPath (h : tree.file path = some content) (ext : String) :
    withExtraExt (joinPath root path) ext = joinPath root (withExtraExt path ext) := by
  have hrelative := StaticTree.relative_of_file h
  have hext : startsWith (withExtraExt path ext) ['/'] = false := by
    rw [withExtraExt, String.append_assoc]
    exact startsWith_slash_append hrelative (StaticTree.ne_empty_of_file h) _
  rw [joinPath_relative hrelative, joinPath_relative hext, withExtraExt, withExtraExt,
    String.append_assoc, String.append_assoc, String.append_assoc]

theorem StaticTree.disk_sibling (h : tree.file path = some content) (ext : String) :
    tree.disk root (withExtraExt (joinPath root path) ext) = tree.file (withExtraExt path ext) := by
  have hext : startsWith (withExtraExt path ext) ['/'] = false := by
    rw [withExtraExt, String.append_assoc]
    exact startsWith_slash_append (relative_of_file h) (ne_empty_of_file h) _
  rw [withExtraExt_joinPath h, disk_joinPath hext]

end OnDisk

/-! ### What is sent for a file -/

/-- What is sent for a file: a precompressed sibling that the request accepts, or the
content. -/
def StaticTree.variant (tree : StaticTree) (path : String) (content : List UInt8)
    (acceptEncoding : Option String) : List UInt8 × Option Coding :=
  match accepts acceptEncoding "br", tree.file (withExtraExt path "br") with
  | true, some br => (br, some .br)
  | _, _ =>
      match accepts acceptEncoding "gzip", tree.file (withExtraExt path "gz") with
      | true, some gz => (gz, some .gzip)
      | _, _ => (content, none)

/-- The response to a request for the hashed path of a file. -/
def hashedResponse (mimeGuess : String → Option HeaderValue) (tree : StaticTree)
    (root path : String) (content : List UInt8) (acceptEncoding : Option String) :
    FileResponse where
  status := StatusCode.ok
  headers := [("content-type", contentType mimeGuess (joinPath root path)),
      ("cache-control", immutable), ("vary", headerOf "Accept-Encoding" (by decide))] ++
    ((tree.variant path content acceptEncoding).2.map fun enc =>
      ("content-encoding", enc.header)).toList
  body := (tree.variant path content acceptEncoding).1

/-- `Accept-Encoding` as the service reads it. -/
def acceptEncodingOf (headers : HeaderMap) : Option String :=
  (headers.get "accept-encoding").bind HeaderValue.toStr

section Sent
variable {mimeGuess : String → Option HeaderValue} {tree : StaticTree} {root path : String}
  {content : List UInt8}

theorem serveImmutableFile_file (h : tree.file path = some content)
    (acceptEncoding : Option String) :
    serveImmutableFile mimeGuess (tree.disk root) (joinPath root path) acceptEncoding =
      some (hashedResponse mimeGuess tree root path content acceptEncoding) := by
  have hraw : tree.disk root (joinPath root path) = some content := by
    rw [StaticTree.disk_joinPath (StaticTree.relative_of_file h), h]
  have hsibling : ∀ ext, tree.disk root (withExtraExt (joinPath root path) ext) =
      tree.file (withExtraExt path ext) := StaticTree.disk_sibling h
  unfold serveImmutableFile pickPrecompressed hashedResponse StaticTree.variant
  rw [hsibling "br", hsibling "gz"]
  cases accepts acceptEncoding "br" <;> cases hfbr : tree.file (withExtraExt path "br") <;>
    cases accepts acceptEncoding "gzip" <;> cases hfgz : tree.file (withExtraExt path "gz") <;>
      simp [hsibling, hfbr, hfgz, hraw]

variable {sha : Sha256} {io : Io} {assets : Assets} {order : IterationOrder}
  {serveDir : FileRequest → FileResponse}

/-- The slash before the path is trimmed. -/
theorem trimmed_path {url : String} (h : startsWith url ['/'] = false) :
    String.ofList (("/" ++ url).toList.dropWhile (· == '/')) = url := by
  have hdrop : url.toList.dropWhile (· == '/') = url.toList := by
    cases hurl : url.toList with
    | nil => rfl
    | cons c cs =>
        simp only [startsWith, hurl, List.isPrefixOf, Bool.and_true] at h
        rw [List.dropWhile_cons, BEq.comm, h]
        rfl
  have hslash : ("/" ++ url).toList = '/' :: url.toList := by simp
  rw [hslash, List.dropWhile_cons, beq_self_eq_true, if_pos rfl, hdrop, String.ofList_toList]

/-- The hashed path of a file is answered with the file. -/
theorem staticService_hashed (hassets : Assets.production sha io root tree = some assets)
    {url : String} (h : IsHashedPath sha tree url path content)
    (hrelative : startsWith url ['/'] = false) (method : String) (headers : HeaderMap) :
    staticService mimeGuess assets order (tree.disk root) serveDir ⟨method, "/" ++ url, headers⟩ =
      hashedResponse mimeGuess tree root path content (acceptEncodingOf headers) := by
  have hhash : tree.hash sha path = some (shortHash sha content) :=
    StaticTree.hash_eq_some_iff.mpr ⟨h.1, content, h.2.1, rfl⟩
  have hresolved : assets.resolveHashedRequest order url = some (joinPath root path) :=
    (resolveHashedRequest_eq_some_iff hassets order url _).mpr ⟨path, _, hhash, h.2.2, rfl⟩
  simp only [staticService, trimmed_path hrelative, hresolved]
  exact congrArg (·.getD notFound) (serveImmutableFile_file h.2.1 (acceptEncodingOf headers))

/-- Any other path is answered by `ServeDir`, with a header of its own. -/
theorem staticService_other (hassets : Assets.production sha io root tree = some assets)
    {url : String} (h : ∀ path content, ¬ IsHashedPath sha tree url path content)
    (hrelative : startsWith url ['/'] = false) (method : String) (headers : HeaderMap) :
    staticService mimeGuess assets order (tree.disk root) serveDir ⟨method, "/" ++ url, headers⟩ =
      { serveDir ⟨method, "/" ++ url, headers⟩ with
        headers := (serveDir ⟨method, "/" ++ url, headers⟩).headers.insert "cache-control"
          fiveMinutes } := by
  have hresolved : assets.resolveHashedRequest order url = none := by
    refine Option.eq_none_iff_forall_ne_some.mpr fun p hp => ?_
    obtain ⟨path, hash, hhash, hurl, _⟩ :=
      (resolveHashedRequest_eq_some_iff hassets order url p).mp hp
    obtain ⟨hpre, content, hfile, rfl⟩ := StaticTree.hash_eq_some_iff.mp hhash
    exact h path content ⟨hpre, hfile, hurl⟩
  simp only [staticService, trimmed_path hrelative, hresolved]

/-- A hashed path begins as the path of its file or with a dot. -/
theorem injectHash_relative (h : tree.file path = some content) (hash : String) :
    startsWith (injectHash path hash) ['/'] = false := by
  obtain ⟨c, cs, hcs, hc⟩ := StaticTree.exists_head_of_file h
  have hhead : ∃ d ds, (injectHash path hash).toList = d :: ds ∧ d ≠ '/' := by
    by_cases hdot : '.' ∈ path.toList
    · obtain ⟨stem, ext, hpath, hext⟩ := exists_last_dot hdot
      rw [injectHash_extension hpath hext]
      cases stem with
      | nil => exact ⟨'.', _, rfl, by decide⟩
      | cons d stem =>
          rw [hcs] at hpath
          exact ⟨d, _, rfl, (List.cons.inj hpath).1 ▸ hc⟩
    · rw [injectHash_no_extension hdot, hcs]
      exact ⟨c, _, rfl, hc⟩
  obtain ⟨d, ds, hds, hd⟩ := hhead
  simp [startsWith, hds, List.isPrefixOf, Ne.symm hd]

end Sent

/-! ### Undoing the coding -/

/-- Decoders for the codings. -/
abbrev Decoders := Coding → List UInt8 → Option (List UInt8)

/-- The body of a response after undoing its `Content-Encoding`. -/
def FileResponse.decoded (decoders : Decoders) (response : FileResponse) : Option (List UInt8) :=
  match response.headers.get "content-encoding" with
  | none => some response.body
  | some coding =>
      if coding = Coding.br.header then decoders .br response.body
      else if coding = Coding.gzip.header then decoders .gzip response.body
      else none

/-- What is sent for the file decodes to these bytes. -/
def VariantDecodes (decoders : Decoders) (tree : StaticTree) (path : String)
    (content : List UInt8) (acceptEncoding : Option String) (bytes : List UInt8) : Prop :=
  match tree.variant path content acceptEncoding with
  | (body, none) => body = bytes
  | (body, some coding) => decoders coding body = some bytes

theorem hashedResponse_decoded_iff {mimeGuess : String → Option HeaderValue} {tree : StaticTree}
    {root path : String} {content bytes : List UInt8} {acceptEncoding : Option String}
    (decoders : Decoders) :
    (hashedResponse mimeGuess tree root path content acceptEncoding).decoded decoders =
        some bytes ↔
      VariantDecodes decoders tree path content acceptEncoding bytes := by
  unfold FileResponse.decoded hashedResponse VariantDecodes
  rcases tree.variant path content acceptEncoding with ⟨body, coding⟩
  rcases coding with _ | _ | _
  · simp [HeaderMap.get]
  · simp [HeaderMap.get]
  · have hne : Coding.gzip.header ≠ Coding.br.header := by decide
    simp [HeaderMap.get, hne]

end TodoRust.StaticFiles
