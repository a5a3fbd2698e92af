import Mathlib.Data.List.AList
import TodoRust.Rust.Str

/-!
# The manifest of static files

At startup in production the static tree is walked and every file hashed. The
manifest maps the path of a file to the path it is served under, which carries
the hash.
-/

namespace TodoRust.StaticFiles
open Rust

/-! ### The static tree -/

/-- A directory in the order `read_dir` enumerates it. -/
inductive Directory
  | empty
  | file (name : String) (content : List UInt8) (rest : Directory)
  | subdirectory (name : String) (entries : Directory) (rest : Directory)

/-- A name as a file system without backslashes in its names allows it. -/
def ValidName (name : String) : Prop :=
  name ≠ "" ∧ '/' ∉ name.toList ∧ '\\' ∉ name.toList

instance (name : String) : Decidable (ValidName name) :=
  inferInstanceAs (Decidable (name ≠ "" ∧ '/' ∉ name.toList ∧ '\\' ∉ name.toList))

namespace Directory

def names : Directory → List String
  | empty => []
  | file name _ rest => name :: rest.names
  | subdirectory name _ rest => name :: rest.names

/-- Names are valid, and distinct within one directory. -/
def WellFormed : Directory → Prop
  | empty => True
  | file name _ rest => ValidName name ∧ name ∉ rest.names ∧ rest.WellFormed
  | subdirectory name entries rest =>
      ValidName name ∧ name ∉ rest.names ∧ entries.WellFormed ∧ rest.WellFormed

/-- The files below a directory, with the names on the way to them. -/
def files : Directory → List (List String × List UInt8)
  | empty => []
  | file name content rest => ([name], content) :: rest.files
  | subdirectory name entries rest =>
      (entries.files.map fun f => (name :: f.1, f.2)) ++ rest.files

end Directory

/-- The names on the way to a file, with slashes between them. -/
def logicalPath (rel : List String) : String :=
  String.ofList (['/'].intercalate (rel.map String.toList))

/-- `replace('\\', "/")` -/
def replaceBackslashes (path : String) : String :=
  String.ofList (path.toList.map fun c => if c = '\\' then '/' else c)

/-- Precompressed siblings are told by the end of their names. -/
def isPrecompressed (path : String) : Bool :=
  endsWith path ".gz".toList || endsWith path ".br".toList

structure StaticTree where
  directory : Directory
  wellFormed : directory.WellFormed

/-- The files of a tree under their paths. -/
def StaticTree.contents (tree : StaticTree) : List (String × List UInt8) :=
  tree.directory.files.map fun f => (logicalPath f.1, f.2)

/-- The content of the file at a path. -/
def StaticTree.file (tree : StaticTree) (path : String) : Option (List UInt8) :=
  (tree.contents.find? fun f => f.1 == path).map Prod.snd

/-! ### Hashing -/

/-- The hasher of the `sha2` crate. A content may be fed to it in pieces. -/
structure Sha256 where
  Hasher : Type
  new : Hasher
  update : Hasher → List UInt8 → Hasher
  finalize : Hasher → Vector UInt8 32
  digest : List UInt8 → Vector UInt8 32
  finalize_update : ∀ chunks : List (List UInt8),
    finalize (chunks.foldl update new) = digest chunks.flatten

/-- What the operating system answers at startup: whether a directory can be listed,
and how many bytes a `read` returns when so many are left, if it does not fail. -/
structure Io where
  readDir : List String → Bool
  read : List String → Nat → Option Nat

/-- `hex_short`: two digits for each of the first four bytes. -/
def hexShort (bytes : List UInt8) : String :=
  String.ofList ((bytes.take 4).flatMap fun b =>
    [Nat.digitChar (b.toNat / 16), Nat.digitChar (b.toNat % 16)])

/-- The part of `buf` a `read` fills, nothing only at the end of the file. -/
def readBuf (n : Nat) (rest : List UInt8) : List UInt8 := rest.take (min (max 1 n) 8192)

theorem readBuf_eq_nil_iff {n : Nat} {rest : List UInt8} : readBuf n rest = [] ↔ rest = [] := by
  have hpos : min (max 1 n) 8192 ≠ 0 := by omega
  rw [readBuf, List.take_eq_nil_iff, or_iff_right hpos]

/-- The loop of `hash_file` from some point of the file on. -/
def hashLoop (sha : Sha256) (read : Nat → Option Nat) (hasher : sha.Hasher)
    (rest : List UInt8) : Option sha.Hasher :=
  match read rest.length with
  | none => none
  | some n =>
      if readBuf n rest = [] then some hasher
      else hashLoop sha read (sha.update hasher (readBuf n rest))
        (rest.drop (readBuf n rest).length)
termination_by rest.length
decreasing_by
  rename_i hne
  rw [List.length_drop]
  have hbuf := List.length_pos_iff.mpr hne
  have hrest : rest ≠ [] := fun h => hne (readBuf_eq_nil_iff.mpr h)
  have hlength := List.length_pos_iff.mpr hrest
  omega

/-- `hash_file` -/
def hashFile (sha : Sha256) (read : Nat → Option Nat) (content : List UInt8) : Option String :=
  (hashLoop sha read sha.new content).map fun hasher => hexShort (sha.finalize hasher).toList

/-- `inject_hash`: "css/app.css" + "abcd1234" -> "css/app.abcd1234.css" -/
def injectHash (logical hash : String) : String :=
  match rfind logical.toList '.' with
  | some dot =>
      let (stem, ext) := logical.toList.splitAt dot
      String.ofList (stem ++ '.' :: hash.toList ++ ext)
  | none => String.ofList (logical.toList ++ '.' :: hash.toList)

/-! ### The manifest -/

/-- Served paths under the paths of the files. -/
abbrev Manifest := AList fun _ : String => String

/-- `walk_files` on the rest of a directory's listing. -/
def walkFiles (sha : Sha256) (io : Io) (dir : List String) :
    Directory → Manifest → Option Manifest
  | .empty, manifest => some manifest
  | .subdirectory name entries rest, manifest =>
      if io.readDir (dir ++ [name]) then
        (walkFiles sha io (dir ++ [name]) entries manifest).bind fun manifest =>
          walkFiles sha io dir rest manifest
      else none
  | .file name content rest, manifest =>
      if isPrecompressed name then walkFiles sha io dir rest manifest
      else
        let rel := dir ++ [name]
        let logical := replaceBackslashes (logicalPath rel)
        (hashFile sha (io.read rel) content).bind fun hash =>
          walkFiles sha io dir rest (manifest.insert logical (injectHash logical hash))

inductive Assets
  | hashed (root : String) (manifest : Manifest)
  | passthrough (root : String)

/-- The order in which iteration over a map visits its entries. -/
structure IterationOrder where
  iter : Manifest → List (Sigma fun _ : String => String)
  perm : ∀ manifest, (iter manifest).Perm manifest.entries

/-- `Path::join` -/
def joinPath (root path : String) : String :=
  if startsWith path ['/'] then path
  else if root = "" || endsWith root ['/'] then root ++ path
  else root ++ "/" ++ path

namespace Assets

/-- `Assets::production`; `none` is an `AssetsError`. -/
def production (sha : Sha256) (io : Io) (root : String) (tree : StaticTree) : Option Assets :=
  if io.readDir [] then
    (walkFiles sha io [] tree.directory ∅).map fun manifest => .hashed root manifest
  else none

/-- `Assets::dev` -/
def dev (root : String) : Assets := .passthrough root

/-- `Assets::resolve` -/
def resolve (assets : Assets) (logical : String) : String :=
  match assets with
  | .hashed _ manifest => (manifest.lookup logical).getD logical
  | .passthrough _ => logical

/-- `Assets::resolve_hashed_request` -/
def resolveHashedRequest (assets : Assets) (order : IterationOrder) (urlPath : String) :
    Option String :=
  match assets with
  | .passthrough _ => none
  | .hashed root manifest =>
      ((order.iter manifest).findSome? fun entry =>
        if entry.2 = urlPath then some entry.1 else none).map fun unhashed =>
          joinPath root unhashed

/-- The entries of the manifest; there are none in development. -/
def manifest : Assets → Manifest
  | .hashed _ manifest => manifest
  | .passthrough _ => ∅

end Assets

end TodoRust.StaticFiles
