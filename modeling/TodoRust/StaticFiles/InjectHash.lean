import TodoRust.StaticFiles.HashedUrls

/-!
# Where the hash goes

`inject_hash` looks for the last dot of the whole path. The dot is one of the name,
unless the name has none and a directory on the way to it does: then the hash goes
into the directory.
-/

namespace TodoRust.StaticFiles
open Lib Rust

/-- The path of a name in a directory, which is empty for the root. -/
def logicalIn (dir name : String) : String := if dir = "" then name else dir ++ "/" ++ name

/-- Eight digits of a hash, as `hex_short` writes them. -/
def IsShortHash (hash : String) : Prop :=
  hash.toList.length = 8 ∧ ∀ c ∈ hash.toList, c ∈ "0123456789abcdef".toList

instance (hash : String) : Decidable (IsShortHash hash) :=
  decidable_of_iff (hash.toList.length = 8 ∧
      hash.toList.all (fun c => "0123456789abcdef".toList.contains c) = true)
    (by simp only [IsShortHash, List.all_eq_true, List.contains_iff_mem])

/-- The hash goes into the name: in front of its last extension, or behind a name
without one. -/
def RespectsName (dir name hash : String) : Prop :=
  (∀ stem ext : String, name = stem ++ "." ++ ext → '.' ∉ ext.toList →
    injectHash (logicalIn dir name) hash = logicalIn dir (stem ++ "." ++ hash ++ "." ++ ext)) ∧
  ('.' ∉ name.toList →
    injectHash (logicalIn dir name) hash = logicalIn dir (name ++ "." ++ hash))

/-- What stands in front of a name. -/
def front (dir : String) : List Char := if dir = "" then [] else dir.toList ++ ['/']

section Path
variable {dir name hash : String}

theorem toList_logicalIn (dir name : String) :
    (logicalIn dir name).toList = front dir ++ name.toList := by
  unfold logicalIn front
  split
  · rfl
  · simp

theorem dot_mem_front : '.' ∈ front dir ↔ '.' ∈ dir.toList := by
  unfold front
  split
  · next hempty => simp [hempty]
  · simp

theorem IsShortHash.slash_notMem (h : IsShortHash hash) : '/' ∉ hash.toList := by
  intro hmem
  exact absurd (h.2 '/' hmem) (by decide)

/-- A dot of the name is the last one of the path. -/
theorem injectHash_dotted {stem ext : String} (hname : name = stem ++ "." ++ ext)
    (hext : '.' ∉ ext.toList) (dir hash : String) :
    injectHash (logicalIn dir name) hash = logicalIn dir (stem ++ "." ++ hash ++ "." ++ ext) := by
  have hpath : (logicalIn dir name).toList = (front dir ++ stem.toList) ++ '.' :: ext.toList := by
    rw [toList_logicalIn, hname]
    simp
  apply String.toList_inj.mp
  rw [injectHash_extension hpath hext, toList_logicalIn]
  simp

/-- Without a dot in the path the hash stands at its end. -/
theorem injectHash_undotted (hname : '.' ∉ name.toList) (hdir : '.' ∉ dir.toList)
    (hash : String) :
    injectHash (logicalIn dir name) hash = logicalIn dir (name ++ "." ++ hash) := by
  have hpath : '.' ∉ (logicalIn dir name).toList := by
    rw [toList_logicalIn, List.mem_append, dot_mem_front]
    exact fun h => h.elim hdir hname
  apply String.toList_inj.mp
  rw [injectHash_no_extension hpath, toList_logicalIn, toList_logicalIn]
  simp

/-- A dot of the directory takes the hash away from the name. -/
theorem injectHash_dotted_directory (hslash : '/' ∉ name.toList) (hhash : IsShortHash hash)
    (hname : '.' ∉ name.toList) (hdir : '.' ∈ dir.toList) :
    injectHash (logicalIn dir name) hash ≠ logicalIn dir (name ++ "." ++ hash) := by
  intro heq
  obtain ⟨stem, ext, hstem, hext⟩ := exists_last_dot hdir
  have hfront : front dir = stem ++ '.' :: (ext ++ ['/']) := by
    have hne : dir ≠ "" := by
      rintro rfl
      cases hdir
    rw [front, if_neg hne, hstem]
    simp
  have hpath : (logicalIn dir name).toList = stem ++ '.' :: (ext ++ '/' :: name.toList) := by
    rw [toList_logicalIn, hfront]
    simp
  have htail : '.' ∉ ext ++ '/' :: name.toList := by
    simp only [List.mem_append, List.mem_cons, not_or]
    exact ⟨hext, by decide, hname⟩
  have hchars := congrArg String.toList heq
  rw [injectHash_extension hpath htail, toList_logicalIn, hfront] at hchars
  -- after the last slash stands the name, on one side with the hash behind it
  have hsides : (stem ++ '.' :: (hash.toList ++ '.' :: ext)) ++ '/' :: name.toList =
      (stem ++ '.' :: ext) ++ '/' :: (name.toList ++ '.' :: hash.toList) := by
    simpa using hchars
  have hslash' : '/' ∉ name.toList ++ '.' :: hash.toList := by
    simp only [List.mem_append, List.mem_cons, not_or]
    exact ⟨hslash, by decide, hhash.slash_notMem⟩
  obtain ⟨-, hnames⟩ := (split_last_inj hslash hslash').mp hsides
  exact hname (hnames ▸ List.mem_append_right _ (List.mem_cons_self ..))

end Path

/-- The hash goes into the name exactly if the name has a dot or the directory has none. -/
theorem injectHash_respectsName_iff (dir name hash : String) (hslash : '/' ∉ name.toList)
    (hhash : IsShortHash hash) :
    RespectsName dir name hash ↔ '.' ∈ name.toList ∨ '.' ∉ dir.toList := by
  constructor
  · rintro ⟨-, hundotted⟩
    by_contra hnot
    obtain ⟨hname, hdir⟩ := not_or.mp hnot
    exact injectHash_dotted_directory hslash hhash hname (not_not.mp hdir) (hundotted hname)
  · intro h
    refine ⟨fun stem ext hname hext => injectHash_dotted hname hext dir hash, fun hname => ?_⟩
    exact injectHash_undotted hname (h.resolve_left hname) hash

theorem injectHash_respectsName_css : RespectsName "css" "app.css" "abcd1234" :=
  (injectHash_respectsName_iff "css" "app.css" "abcd1234" (by decide) (by decide)).mpr (by decide)

/-- A licence in the directory of a version. -/
theorem injectHash_version_directory :
    ¬ ∀ dir name hash : String, '/' ∉ name.toList → IsShortHash hash →
      RespectsName dir name hash := by
  intro hall
  obtain ⟨-, hundotted⟩ := hall "lib-1.2" "LICENSE" "abcd1234" (by decide) (by decide)
  exact injectHash_dotted_directory (by decide) (by decide) (by decide) (by decide)
    (hundotted (by decide))

end TodoRust.StaticFiles
