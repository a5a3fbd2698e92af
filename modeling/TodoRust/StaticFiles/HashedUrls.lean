import TodoRust.Lib.Split
import TodoRust.StaticFiles.Walk

/-!
# Hashed paths across deployments

A served path determines the file and the hash it was made from. What one
deployment hands out, another resolves to the same file with the same hash or
not at all.
-/

namespace TodoRust.StaticFiles
open Lib Rust

/-! ### Injecting a hash -/

theorem injectHash_extension {logical hash : String} {stem ext : List Char}
    (hlogical : logical.toList = stem ++ '.' :: ext) (hext : '.' ∉ ext) :
    (injectHash logical hash).toList = stem ++ '.' :: (hash.toList ++ '.' :: ext) := by
  rw [injectHash, hlogical, rfind_append_cons hext]
  simp

theorem injectHash_no_extension {logical hash : String} (h : '.' ∉ logical.toList) :
    (injectHash logical hash).toList = logical.toList ++ '.' :: hash.toList := by
  rw [injectHash, rfind_eq_none h, String.toList_ofList]

/-- A text with a dot has a last one. -/
theorem exists_last_dot {cs : List Char} (h : '.' ∈ cs) :
    ∃ stem ext, cs = stem ++ '.' :: ext ∧ '.' ∉ ext :=
  exists_split_last h

/-- A served path determines the path and the hash in it. -/
theorem injectHash_inj {logical logical' hash hash' : String} (h : '.' ∉ hash.toList)
    (h' : '.' ∉ hash'.toList) :
    injectHash logical hash = injectHash logical' hash' ↔ logical = logical' ∧ hash = hash' := by
  constructor
  · intro heq
    have hchars := congrArg String.toList heq
    by_cases hdot : '.' ∈ logical.toList <;> by_cases hdot' : '.' ∈ logical'.toList
    · obtain ⟨stem, ext, hlogical, hext⟩ := exists_last_dot hdot
      obtain ⟨stem', ext', hlogical', hext'⟩ := exists_last_dot hdot'
      rw [injectHash_extension hlogical hext, injectHash_extension hlogical' hext'] at hchars
      -- the last dot ends the hash, the one before it the stem
      have hchars' : (stem ++ '.' :: hash.toList) ++ '.' :: ext =
          (stem' ++ '.' :: hash'.toList) ++ '.' :: ext' := by simpa using hchars
      obtain ⟨hstem, rfl⟩ := (split_last_inj hext hext').mp hchars'
      obtain ⟨rfl, hhash⟩ := (split_last_inj h h').mp hstem
      exact ⟨String.toList_inj.mp (hlogical.trans hlogical'.symm), String.toList_inj.mp hhash⟩
    · obtain ⟨stem, ext, hlogical, hext⟩ := exists_last_dot hdot
      rw [injectHash_extension hlogical hext, injectHash_no_extension hdot'] at hchars
      have hchars' : (stem ++ '.' :: hash.toList) ++ '.' :: ext =
          logical'.toList ++ '.' :: hash'.toList := by simpa using hchars
      obtain ⟨hstem, _⟩ := (split_last_inj hext h').mp hchars'
      exact absurd (hstem ▸ by simp) hdot'
    · obtain ⟨stem', ext', hlogical', hext'⟩ := exists_last_dot hdot'
      rw [injectHash_no_extension hdot, injectHash_extension hlogical' hext'] at hchars
      have hchars' : logical.toList ++ '.' :: hash.toList =
          (stem' ++ '.' :: hash'.toList) ++ '.' :: ext' := by simpa using hchars
      obtain ⟨hstem, _⟩ := (split_last_inj h hext').mp hchars'
      exact absurd (hstem ▸ by simp) hdot
    · rw [injectHash_no_extension hdot, injectHash_no_extension hdot'] at hchars
      obtain ⟨hlogical, hhash⟩ := (split_last_inj h h').mp hchars
      exact ⟨String.toList_inj.mp hlogical, String.toList_inj.mp hhash⟩
  · rintro ⟨rfl, rfl⟩
    rfl

theorem digitChar_ne_dot : ∀ n < 16, Nat.digitChar n ≠ '.' := by decide

theorem dot_notMem_hexShort (bytes : List UInt8) : '.' ∉ (hexShort bytes).toList := by
  rw [hexShort, String.toList_ofList, List.mem_flatMap]
  rintro ⟨b, -, hb⟩
  have hlt := b.toNat_lt
  simp only [List.mem_cons, List.not_mem_nil, or_false] at hb
  rcases hb with hhigh | hlow
  · exact digitChar_ne_dot _ (by omega) hhigh.symm
  · exact digitChar_ne_dot _ (by omega) hlow.symm

theorem dot_notMem_hash {tree : StaticTree} {sha : Sha256} {path hash : String}
    (h : tree.hash sha path = some hash) : '.' ∉ hash.toList := by
  obtain ⟨_, content, _, rfl⟩ := StaticTree.hash_eq_some_iff.mp h
  exact dot_notMem_hexShort _

/-- The URL path is the hashed path of this file. -/
def IsHashedPath (sha : Sha256) (tree : StaticTree) (url path : String)
    (content : List UInt8) : Prop :=
  isPrecompressed path = false ∧ tree.file path = some content ∧
    injectHash path (shortHash sha content) = url

/-- A hashed path is that of one file only. -/
theorem isHashedPath_unique {sha : Sha256} {tree : StaticTree} {url path path' : String}
    {content content' : List UInt8} (h : IsHashedPath sha tree url path content)
    (h' : IsHashedPath sha tree url path' content') :
    path = path' ∧ content = content' := by
  obtain ⟨rfl, -⟩ := (injectHash_inj (dot_notMem_hexShort _) (dot_notMem_hexShort _)).mp
    (h.2.2.trans h'.2.2.symm)
  exact ⟨rfl, Option.some.inj (h.2.1.symm.trans h'.2.1)⟩

/-! ### Resolving -/

section Deployment
variable {sha : Sha256} {io : Io} {root : String} {tree : StaticTree} {assets : Assets}

theorem resolve_of_hash (h : Assets.production sha io root tree = some assets)
    {path hash : String} (hhash : tree.hash sha path = some hash) :
    assets.resolve path = injectHash path hash := by
  obtain ⟨manifest, rfl, hlookup⟩ := production_eq h
  rw [Assets.resolve, hlookup, hhash, Option.map_some, Option.getD_some]

theorem mem_manifest_iff (h : Assets.production sha io root tree = some assets) {path : String} :
    path ∈ assets.manifest ↔ ∃ hash, tree.hash sha path = some hash := by
  obtain ⟨manifest, rfl, hlookup⟩ := production_eq h
  rw [Assets.manifest, ← AList.lookup_isSome, hlookup, Option.isSome_map,
    Option.isSome_iff_exists]

/-- A request resolves to the one file that is served under its path, in whatever
order the map is searched. -/
theorem resolveHashedRequest_eq_some_iff
    (h : Assets.production sha io root tree = some assets) (order : IterationOrder)
    (url p : String) :
    assets.resolveHashedRequest order url = some p ↔ ∃ path hash,
      tree.hash sha path = some hash ∧ injectHash path hash = url ∧ p = joinPath root path := by
  obtain ⟨manifest, rfl, hlookup⟩ := production_eq h
  have hfound : ∀ unhashed, (order.iter manifest).findSome? (fun entry =>
      if entry.2 = url then some entry.1 else none) = some unhashed →
      ∃ hash, tree.hash sha unhashed = some hash ∧ injectHash unhashed hash = url := by
    intro unhashed hfind
    obtain ⟨entry, hmem, hsome⟩ := List.exists_of_findSome?_eq_some hfind
    split at hsome
    · rename_i heq
      have hentry := AList.mem_lookup_iff.mpr ((order.perm manifest).mem_iff.mp hmem)
      rw [hlookup, Option.mem_def, Option.map_eq_some_iff] at hentry
      rw [← Option.some.inj hsome, ← heq]
      exact hentry
    · cases hsome
  simp only [Assets.resolveHashedRequest, Option.map_eq_some_iff]
  constructor
  · rintro ⟨unhashed, hfind, rfl⟩
    obtain ⟨hash, hhash, hurl⟩ := hfound unhashed hfind
    exact ⟨unhashed, hash, hhash, hurl, rfl⟩
  · rintro ⟨path, hash, hhash, hurl, rfl⟩
    have hmem : ⟨path, url⟩ ∈ order.iter manifest := by
      rw [(order.perm manifest).mem_iff, ← AList.mem_lookup_iff, hlookup, hhash, ← hurl]
      rfl
    have hsome : ((order.iter manifest).findSome? fun entry =>
        if entry.2 = url then some entry.1 else none).isSome = true :=
      List.findSome?_isSome_iff.mpr ⟨_, hmem, by simp⟩
    obtain ⟨unhashed, hfind⟩ := Option.isSome_iff_exists.mp hsome
    -- whatever entry is found first is the one of this file
    obtain ⟨hash', hhash', hurl'⟩ := hfound unhashed hfind
    obtain ⟨rfl, -⟩ := (injectHash_inj (dot_notMem_hash hhash') (dot_notMem_hash hhash)).mp
      (hurl'.trans hurl.symm)
    exact ⟨unhashed, hfind, rfl⟩

theorem resolveHashedRequest_injectHash_iff
    (h : Assets.production sha io root tree = some assets) (order : IterationOrder)
    {path hash : String} (hdot : '.' ∉ hash.toList) (p : String) :
    assets.resolveHashedRequest order (injectHash path hash) = some p ↔
      tree.hash sha path = some hash ∧ p = joinPath root path := by
  rw [resolveHashedRequest_eq_some_iff h]
  constructor
  · rintro ⟨path', hash', hhash', hurl, rfl⟩
    obtain ⟨rfl, rfl⟩ := (injectHash_inj (dot_notMem_hash hhash') hdot).mp hurl
    exact ⟨hhash', rfl⟩
  · rintro ⟨hhash, rfl⟩
    exact ⟨path, hash, hhash, rfl, rfl⟩

/-- The entries of a manifest, one for each file that is no precompressed sibling. -/
theorem lookup_manifest_iff (h : Assets.production sha io root tree = some assets)
    (path url : String) :
    assets.manifest.lookup path = some url ↔ isPrecompressed path = false ∧
      ∃ content, tree.file path = some content ∧ url = injectHash path (shortHash sha content) := by
  obtain ⟨manifest, rfl, hlookup⟩ := production_eq h
  rw [Assets.manifest, hlookup, StaticTree.hash]
  cases hpath : isPrecompressed path with
  | true => simp
  | false => cases hfile : tree.file path <;> simp [eq_comm (a := url)]

end Deployment

/-- A hashed path of one deployment resolves in another one to the same file if its
hash is the same there, and to nothing otherwise. Two deployments that hand out the
same path hand it out for one file, whose contents have the same short hash. -/
theorem hashed_paths_cache_safe {sha : Sha256} {io₁ io₂ : Io} {root₁ root₂ : String}
    {tree₁ tree₂ : StaticTree} {assets₁ assets₂ : Assets}
    (h₁ : Assets.production sha io₁ root₁ tree₁ = some assets₁)
    (h₂ : Assets.production sha io₂ root₂ tree₂ = some assets₂) (order : IterationOrder) :
    (∀ path url, assets₁.manifest.lookup path = some url ↔ isPrecompressed path = false ∧
      ∃ content, tree₁.file path = some content ∧
        url = injectHash path (shortHash sha content)) ∧
    ∀ path ∈ assets₁.manifest,
      (∀ p, assets₂.resolveHashedRequest order (assets₁.resolve path) = some p ↔
        (path ∈ assets₂.manifest ∧ tree₂.hash sha path = tree₁.hash sha path) ∧
          p = joinPath root₂ path) ∧
      assets₁.resolveHashedRequest order (assets₁.resolve path) = some (joinPath root₁ path) ∧
      ∀ path' ∈ assets₂.manifest, assets₂.resolve path' = assets₁.resolve path →
        path' = path ∧ ∀ content₁ content₂, tree₁.file path = some content₁ →
          tree₂.file path = some content₂ → shortHash sha content₂ = shortHash sha content₁ := by
  refine ⟨lookup_manifest_iff h₁, fun path hpath => ?_⟩
  obtain ⟨hash, hhash⟩ := (mem_manifest_iff h₁).mp hpath
  have hdot := dot_notMem_hash hhash
  rw [resolve_of_hash h₁ hhash]
  refine ⟨fun p => ?_, ?_, fun path' hpath' heq => ?_⟩
  · rw [resolveHashedRequest_injectHash_iff h₂ order hdot, mem_manifest_iff h₂, hhash]
    constructor
    · exact fun h => ⟨⟨⟨hash, h.1⟩, h.1⟩, h.2⟩
    · exact fun h => ⟨h.1.2, h.2⟩
  · exact (resolveHashedRequest_injectHash_iff h₁ order hdot _).mpr ⟨hhash, rfl⟩
  · obtain ⟨hash', hhash'⟩ := (mem_manifest_iff h₂).mp hpath'
    rw [resolve_of_hash h₂ hhash'] at heq
    obtain ⟨rfl, rfl⟩ := (injectHash_inj (dot_notMem_hash hhash') hdot).mp heq
    refine ⟨rfl, fun content₁ content₂ hfile₁ hfile₂ => ?_⟩
    obtain ⟨_, _, hfile₁', hshort₁⟩ := StaticTree.hash_eq_some_iff.mp hhash
    obtain ⟨_, _, hfile₂', hshort₂⟩ := StaticTree.hash_eq_some_iff.mp hhash'
    rw [hfile₁] at hfile₁'
    rw [hfile₂] at hfile₂'
    rw [Option.some.inj hfile₁', Option.some.inj hfile₂', hshort₁, hshort₂]

/-- SHA-256 of the text "hello", for the trees below. -/
def helloDigest : Vector UInt8 32 :=
  #v[0x2c, 0xf2, 0x4d, 0xba, 0x5f, 0xb0, 0xa3, 0x0e, 0x26, 0xe8, 0x3b, 0x2a, 0xc5, 0xb9, 0xe2, 0x9e,
    0x1b, 0x16, 0x1e, 0x5c, 0x1f, 0xa7, 0x42, 0x5e, 0x73, 0x04, 0x33, 0x62, 0x93, 0x8b, 0x98, 0x24]

/-- A hasher that knows the digest of one content. -/
def Sha256.hello : Sha256 where
  Hasher := List UInt8
  new := []
  update := List.append
  finalize content := if content = asBytes "hello" then helloDigest else .replicate 32 0
  digest content := if content = asBytes "hello" then helloDigest else .replicate 32 0
  finalize_update chunks := by
    have hfold : ∀ start : List UInt8,
        chunks.foldl List.append start = start ++ chunks.flatten := by
      induction chunks with
      | nil => simp
      | cons chunk chunks ih => simp [ih]
    rw [hfold, List.nil_append]

/-- Everything can be read, three bytes at a time. -/
def Io.small : Io := ⟨fun _ => true, fun _ _ => some 3⟩

def cssTree : StaticTree where
  directory := .subdirectory "css" (.file "app.css" (asBytes "hello") .empty) .empty
  wellFormed := ⟨by decide, by decide, ⟨by decide, by decide, trivial⟩, trivial⟩

/-- The next deployment has one more file. -/
def jsTree : StaticTree where
  directory := .file "app.js" (asBytes "hello")
    (.subdirectory "css" (.file "app.css" (asBytes "hello") .empty) .empty)
  wellFormed :=
    ⟨by decide, by decide, by decide, by decide, ⟨by decide, by decide, trivial⟩, trivial⟩

def cssManifest : Manifest := (∅ : Manifest).insert "css/app.css" "css/app.2cf24dba.css"

def jsManifest : Manifest :=
  ((∅ : Manifest).insert "app.js" "app.2cf24dba.js").insert "css/app.css" "css/app.2cf24dba.css"

theorem hashFile_hello (rel : List String) :
    hashFile .hello (Io.small.read rel) (asBytes "hello") = some "2cf24dba" :=
  (hashFile_of_reads fun _ => rfl).trans (by decide)

theorem production_css :
    Assets.production .hello .small "static" cssTree = some (.hashed "static" cssManifest) := by
  rw [Assets.production, cssTree]
  simp only [walkFiles, hashFile_hello]
  rfl

theorem production_js :
    Assets.production .hello .small "assets" jsTree = some (.hashed "assets" jsManifest) := by
  rw [Assets.production, jsTree]
  simp only [walkFiles, hashFile_hello]
  rfl

/-- Iteration from the last entry to the first. -/
def IterationOrder.backwards : IterationOrder :=
  ⟨fun manifest => manifest.entries.reverse, fun manifest => manifest.entries.reverse_perm⟩

theorem hashed_paths_cache_safe_css :
    (Assets.hashed "assets" jsManifest).resolveHashedRequest .backwards
      ((Assets.hashed "static" cssManifest).resolve "css/app.css") = some "assets/css/app.css" :=
  (((hashed_paths_cache_safe production_css production_js .backwards).2 "css/app.css"
    (by decide)).1 "assets/css/app.css").mpr ⟨⟨by decide, by decide⟩, by decide⟩

end TodoRust.StaticFiles
