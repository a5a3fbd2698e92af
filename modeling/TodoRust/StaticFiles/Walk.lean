import TodoRust.Lib.Table
import TodoRust.StaticFiles.Manifest

/-!
# What the walk collects

The walk leaves one entry for each file that is no precompressed sibling, whatever
order the directories are enumerated in and however the files are read.
-/

namespace TodoRust.StaticFiles
open Rust

/-- The hash in the path a content is served under. -/
def shortHash (sha : Sha256) (content : List UInt8) : String :=
  hexShort (sha.digest content).toList

/-- The hash of the file at a path, if it gets one. -/
def StaticTree.hash (tree : StaticTree) (sha : Sha256) (path : String) : Option String :=
  if isPrecompressed path then none else (tree.file path).map (shortHash sha)

theorem StaticTree.hash_eq_some_iff {tree : StaticTree} {sha : Sha256} {path hash : String} :
    tree.hash sha path = some hash ↔
      isPrecompressed path = false ∧ ∃ content, tree.file path = some content ∧
      shortHash sha content = hash := by
  unfold StaticTree.hash
  cases isPrecompressed path <;> simp

/-! ### Hashing -/

section Hashing
variable {sha : Sha256} {read : Nat → Option Nat}

/-- Whatever the reads return, their pieces make up the content. -/
theorem hashLoop_eq {hasher hasher' : sha.Hasher} {rest : List UInt8}
    (h : hashLoop sha read hasher rest = some hasher') :
    ∃ chunks : List (List UInt8), chunks.flatten = rest ∧
      hasher' = chunks.foldl sha.update hasher := by
  fun_induction hashLoop sha read hasher rest with
  | case1 hasher rest hfail => cases h
  | case2 hasher rest n hread hbuf =>
      exact ⟨[], (readBuf_eq_nil_iff.mp hbuf).symm, (Option.some.inj h).symm⟩
  | case3 hasher rest n hread hbuf ih =>
      obtain ⟨chunks, hchunks, rfl⟩ := ih h
      refine ⟨readBuf n rest :: chunks, ?_, rfl⟩
      rw [List.flatten_cons, hchunks]
      exact List.prefix_iff_eq_append.mp (List.take_prefix _ _)

theorem hashFile_eq {content : List UInt8} {hash : String}
    (h : hashFile sha read content = some hash) : hash = shortHash sha content := by
  obtain ⟨hasher, hloop, rfl⟩ := Option.map_eq_some_iff.mp h
  obtain ⟨chunks, rfl, rfl⟩ := hashLoop_eq hloop
  rw [shortHash, sha.finalize_update]

/-- Reads that do not fail reach the end of the file. -/
theorem hashFile_of_reads {content : List UInt8} (hread : ∀ n, (read n).isSome = true) :
    hashFile sha read content = some (shortHash sha content) := by
  have hloop : ∀ hasher rest, (hashLoop sha read hasher rest).isSome = true := by
    intro hasher rest
    fun_induction hashLoop sha read hasher rest with
    | case1 hasher rest hfail => exact absurd (hread rest.length) (by simp [hfail])
    | case2 hasher rest n hread hbuf => rfl
    | case3 hasher rest n hread hbuf ih => exact ih
  obtain ⟨hasher, hsome⟩ := Option.isSome_iff_exists.mp (hloop sha.new content)
  have hfile : hashFile sha read content = some (hexShort (sha.finalize hasher).toList) := by
    rw [hashFile, hsome, Option.map_some]
  rw [hfile, ← hashFile_eq hfile]

end Hashing

/-! ### Paths -/

theorem replaceBackslashes_eq {path : String} (h : '\\' ∉ path.toList) :
    replaceBackslashes path = path := by
  have hmap : path.toList.map (fun c => if c = '\\' then '/' else c) = path.toList := by
    conv_rhs => rw [← List.map_id path.toList]
    refine List.map_congr_left fun c hc => ?_
    rw [if_neg (ne_of_mem_of_not_mem hc h), id]
  rw [replaceBackslashes, hmap, String.ofList_toList]

theorem backslash_notMem_logicalPath {rel : List String} (h : ∀ name ∈ rel, ValidName name) :
    '\\' ∉ (logicalPath rel).toList := by
  rw [logicalPath, String.toList_ofList]
  induction rel with
  | nil => simp
  | cons name rel ih =>
      obtain ⟨hname, hrel⟩ := List.forall_mem_cons.mp h
      cases rel with
      | nil => simpa using hname.2.2
      | cons name' rel =>
          rw [List.map_cons, List.intercalate_cons_of_ne_nil (by simp)]
          have htail := ih hrel
          simp only [List.mem_append, List.mem_singleton, not_or]
          exact ⟨⟨hname.2.2, by decide⟩, htail⟩

/-- A path determines the names on it. -/
theorem logicalPath_inj {rel rel' : List String} (hrel : rel ≠ []) (hrel' : rel' ≠ [])
    (h : ∀ name ∈ rel, ValidName name) (h' : ∀ name ∈ rel', ValidName name) :
    logicalPath rel = logicalPath rel' ↔ rel = rel' := by
  have hsplit : ∀ names : List String, names ≠ [] → (∀ name ∈ names, ValidName name) →
      (logicalPath names).toList.splitOn '/' = names.map String.toList := by
    intro names hne hvalid
    rw [logicalPath, String.toList_ofList, List.splitOn_intercalate]
    · rintro _ hl
      obtain ⟨name, hname, rfl⟩ := List.mem_map.mp hl
      exact (hvalid name hname).2.1
    · simpa using hne
  constructor
  · intro heq
    have hmap : rel.map String.toList = rel'.map String.toList := by
      rw [← hsplit rel hrel h, ← hsplit rel' hrel' h', heq]
    exact List.map_injective_iff.mpr (fun _ _ => String.toList_inj.mp) hmap
  · rintro rfl
    rfl

/-! ### The files of a directory -/

namespace Directory

/-- A file is found below one of the directory's names. -/
theorem exists_name_of_mem_files {d : Directory} {f : List String × List UInt8}
    (hf : f ∈ d.files) : ∃ name ∈ d.names, ∃ rest, f.1 = name :: rest := by
  induction d generalizing f with
  | empty => cases hf
  | file name content rest ih =>
      rcases List.mem_cons.mp hf with rfl | hrest
      · exact ⟨name, List.mem_cons_self, [], rfl⟩
      · obtain ⟨name', hname', hpath⟩ := ih hrest
        exact ⟨name', List.mem_cons_of_mem _ hname', hpath⟩
  | subdirectory name entries rest ihEntries ihRest =>
      rcases List.mem_append.mp hf with hentries | hrest
      · obtain ⟨g, _, rfl⟩ := List.mem_map.mp hentries
        exact ⟨name, List.mem_cons_self, g.1, rfl⟩
      · obtain ⟨name', hname', hpath⟩ := ihRest hrest
        exact ⟨name', List.mem_cons_of_mem _ hname', hpath⟩

theorem validName_of_mem_files {d : Directory} (h : d.WellFormed)
    {f : List String × List UInt8} (hf : f ∈ d.files) : ∀ name ∈ f.1, ValidName name := by
  induction d generalizing f with
  | empty => cases hf
  | file name content rest ih =>
      rcases List.mem_cons.mp hf with rfl | hrest
      · exact fun name' hname' => List.mem_singleton.mp hname' ▸ h.1
      · exact ih h.2.2 hrest
  | subdirectory name entries rest ihEntries ihRest =>
      rcases List.mem_append.mp hf with hentries | hrest
      · obtain ⟨g, hg, rfl⟩ := List.mem_map.mp hentries
        exact List.forall_mem_cons.mpr ⟨h.1, ihEntries h.2.2.1 hg⟩
      · exact ihRest h.2.2.2 hrest

theorem files_nodup {d : Directory} (h : d.WellFormed) : (d.files.map Prod.fst).Nodup := by
  induction d with
  | empty => exact List.nodup_nil
  | file name content rest ih =>
      refine List.nodup_cons.mpr ⟨fun hmem => ?_, ih h.2.2⟩
      obtain ⟨f, hf, hpath⟩ := List.mem_map.mp hmem
      obtain ⟨name', hname', _, hcons⟩ := exists_name_of_mem_files hf
      rw [hcons] at hpath
      exact h.2.1 ((List.cons.inj hpath).1 ▸ hname')
  | subdirectory name entries rest ihEntries ihRest =>
      rw [files, List.map_append, List.map_map]
      refine List.Nodup.append ?_ (ihRest h.2.2.2) ?_
      · have hcomp : Prod.fst ∘ (fun f : List String × List UInt8 => (name :: f.1, f.2)) =
            List.cons name ∘ Prod.fst := rfl
        rw [hcomp, ← List.map_map]
        exact (ihEntries h.2.2.1).map (List.cons_injective)
      · -- what is below this name is not below another one
        intro rel hentries hrest
        obtain ⟨g, _, rfl⟩ := List.mem_map.mp hentries
        obtain ⟨f, hf, hpath⟩ := List.mem_map.mp hrest
        obtain ⟨name', hname', _, hcons⟩ := exists_name_of_mem_files hf
        rw [hcons] at hpath
        exact h.2.1 ((List.cons.inj hpath).1 ▸ hname')

end Directory

section Tree
variable {tree : StaticTree} {path : String} {content : List UInt8}

theorem StaticTree.contents_nodup (tree : StaticTree) : (tree.contents.map Prod.fst).Nodup := by
  have hcomp : Prod.fst ∘ (fun f : List String × List UInt8 => (logicalPath f.1, f.2)) =
      logicalPath ∘ Prod.fst := rfl
  rw [contents, List.map_map, hcomp, ← List.map_map]
  refine (Directory.files_nodup tree.wellFormed).map_on ?_
  have hfile : ∀ rel ∈ tree.directory.files.map Prod.fst,
      rel ≠ [] ∧ ∀ name ∈ rel, ValidName name := by
    intro rel hrel
    obtain ⟨f, hf, rfl⟩ := List.mem_map.mp hrel
    obtain ⟨_, _, _, hcons⟩ := Directory.exists_name_of_mem_files hf
    exact ⟨by simp [hcons], Directory.validName_of_mem_files tree.wellFormed hf⟩
  intro rel hrel rel' hrel' heq
  exact (logicalPath_inj (hfile rel hrel).1 (hfile rel' hrel').1 (hfile rel hrel).2
    (hfile rel' hrel').2).mp heq

/-- The tree is a map from paths to contents. -/
theorem StaticTree.file_eq_some_iff :
    tree.file path = some content ↔ (path, content) ∈ tree.contents := by
  constructor
  · intro h
    obtain ⟨f, hfind, rfl⟩ := Option.map_eq_some_iff.mp h
    have hpath : f.1 = path := by simpa using List.find?_some hfind
    rw [← hpath]
    exact List.mem_of_find?_eq_some hfind
  · intro h
    have hfind : tree.contents.find? (fun f => f.1 == path) = some (path, content) :=
      Lib.Table.find?_key tree.contents_nodup h
    rw [file, hfind, Option.map_some]

end Tree

/-! ### The walk -/

section Walk
variable {sha : Sha256} {io : Io}

/-- A path without a slash ends a longer one exactly when it ends its last name. -/
theorem suffix_append_slash {pat x y : List Char} (h : '/' ∉ pat) :
    pat <:+ x ++ '/' :: y ↔ pat <:+ y := by
  constructor
  · intro hpat
    by_cases hlength : pat.length ≤ y.length
    · exact List.suffix_of_suffix_length_le hpat
        ((List.suffix_cons _ _).trans (List.suffix_append _ _)) hlength
    · have hslash : '/' :: y <:+ pat :=
        List.suffix_of_suffix_length_le (List.suffix_append _ _) hpat (Nat.not_le.mp hlength)
      exact absurd (hslash.subset List.mem_cons_self) h
  · exact fun hpat => hpat.trans ((List.suffix_cons _ _).trans (List.suffix_append _ _))

theorem logicalPath_append (dir : List String) (name : String) :
    logicalPath (dir ++ [name]) = name ∨
      ∃ x, (logicalPath (dir ++ [name])).toList = x ++ '/' :: name.toList := by
  simp only [logicalPath, String.toList_ofList, List.map_append, List.map_singleton]
  induction dir with
  | nil => exact Or.inl (by simp)
  | cons parent dir ih =>
      rw [List.map_cons, List.cons_append, List.intercalate_cons_of_ne_nil (by simp)]
      right
      rcases ih with hname | ⟨x, hx⟩
      · refine ⟨parent.toList, ?_⟩
        rw [← String.toList_ofList (l := ['/'].intercalate _), hname]
        simp
      · exact ⟨parent.toList ++ ['/'] ++ x, by rw [hx]; simp⟩

/-- A file's path ends as its name does. -/
theorem isPrecompressed_logicalPath (dir : List String) (name : String) :
    isPrecompressed (logicalPath (dir ++ [name])) = isPrecompressed name := by
  have hends : ∀ pat : List Char, '/' ∉ pat →
      endsWith (logicalPath (dir ++ [name])) pat = endsWith name pat := by
    intro pat hpat
    rcases logicalPath_append dir name with hname | ⟨x, hx⟩
    · rw [hname]
    · rw [endsWith, endsWith, hx, Bool.eq_iff_iff, List.isSuffixOf_iff_suffix,
        List.isSuffixOf_iff_suffix, suffix_append_slash hpat]
  rw [isPrecompressed, isPrecompressed, hends _ (by decide), hends _ (by decide)]

/-- The files of a directory that get an entry, under their paths. -/
def hashedFiles (dir : List String) (d : Directory) : List (String × List UInt8) :=
  (d.files.map fun f => (logicalPath (dir ++ f.1), f.2)).filter fun f => !isPrecompressed f.1

def addEntry (sha : Sha256) (manifest : Manifest) (f : String × List UInt8) : Manifest :=
  manifest.insert f.1 (injectHash f.1 (shortHash sha f.2))

theorem walkFiles_eq {dir : List String} {d : Directory} (hdir : ∀ name ∈ dir, ValidName name)
    (hd : d.WellFormed) {manifest manifest' : Manifest}
    (h : walkFiles sha io dir d manifest = some manifest') :
    manifest' = (hashedFiles dir d).foldl (addEntry sha) manifest := by
  induction d generalizing dir manifest manifest' with
  | empty => exact (Option.some.inj h).symm
  | subdirectory name entries rest ihEntries ihRest =>
      simp only [walkFiles] at h
      split at h
      · obtain ⟨between, hentries, hrest⟩ := Option.bind_eq_some_iff.mp h
        have hsub : ∀ n ∈ dir ++ [name], ValidName n := by
          simpa [or_imp, forall_and] using ⟨hdir, hd.1⟩
        rw [ihRest hdir hd.2.2.2 hrest, ihEntries hsub hd.2.2.1 hentries]
        simp [hashedFiles, Directory.files, Function.comp_def]
      · cases h
  | file name content rest ih =>
      simp only [walkFiles] at h
      have hpath := isPrecompressed_logicalPath dir name
      split at h
      · rename_i hname
        rw [ih hdir hd.2.2 h]
        simp [hashedFiles, Directory.files, hpath, hname]
      · rename_i hname
        obtain ⟨hash, hfile, hrest⟩ := Option.bind_eq_some_iff.mp h
        have hlogical : replaceBackslashes (logicalPath (dir ++ [name])) =
            logicalPath (dir ++ [name]) := by
          refine replaceBackslashes_eq (backslash_notMem_logicalPath ?_)
          simpa [or_imp, forall_and] using ⟨hdir, hd.1⟩
        rw [ih hdir hd.2.2 hrest, hashFile_eq hfile, hlogical]
        simp [hashedFiles, Directory.files, hpath, hname, addEntry]

/-- Entries with distinct paths do not overwrite each other. -/
theorem lookup_foldl_addEntry {files : List (String × List UInt8)}
    (hnodup : (files.map Prod.fst).Nodup) (manifest : Manifest) (path url : String) :
    (files.foldl (addEntry sha) manifest).lookup path = some url ↔
      (∃ content, (path, content) ∈ files ∧ url = injectHash path (shortHash sha content)) ∨
        path ∉ files.map Prod.fst ∧ manifest.lookup path = some url := by
  induction files generalizing manifest with
  | nil => simp
  | cons f files ih =>
      obtain ⟨hnew, hrest⟩ := List.nodup_cons.mp hnodup
      rw [List.foldl_cons, ih hrest]
      by_cases hpath : path = f.1
      · subst hpath
        have hno : ∀ content, (f.1, content) ∉ files := fun content hmem =>
          hnew (List.mem_map.mpr ⟨_, hmem, rfl⟩)
        have hother : ∀ content, (f.1, content) = f ↔ content = f.2 := by
          intro content
          rw [Prod.ext_iff, and_iff_right rfl]
        simp [addEntry, hno, hnew, hother, eq_comm]
      · have hother : ∀ content, (path, content) ≠ f := fun content h => hpath (h ▸ rfl)
        simp [addEntry, hpath, hother, AList.lookup_insert_ne hpath]

/-- A manifest has one entry for each file that gets a hash. -/
theorem production_eq {root : String} {tree : StaticTree} {assets : Assets}
    (h : Assets.production sha io root tree = some assets) :
    ∃ manifest, assets = .hashed root manifest ∧
      ∀ path, manifest.lookup path = (tree.hash sha path).map (injectHash path) := by
  unfold Assets.production at h
  split at h
  · obtain ⟨manifest, hwalk, rfl⟩ := Option.map_eq_some_iff.mp h
    refine ⟨manifest, rfl, fun path => ?_⟩
    have hfiles : hashedFiles [] tree.directory =
        tree.contents.filter fun f => !isPrecompressed f.1 := rfl
    have hnodup : ((tree.contents.filter fun f => !isPrecompressed f.1).map Prod.fst).Nodup :=
      tree.contents_nodup.sublist (List.filter_sublist.map Prod.fst)
    rw [walkFiles_eq (by simp) tree.wellFormed hwalk, hfiles]
    refine Option.ext fun url => ?_
    rw [lookup_foldl_addEntry hnodup]
    simp only [List.mem_filter, AList.lookup_empty, StaticTree.hash,
      ← StaticTree.file_eq_some_iff]
    cases hpath : isPrecompressed path with
    | true => simp
    | false => cases hfile : tree.file path <;> simp [eq_comm (a := url)]
  · cases h

end Walk

end TodoRust.StaticFiles
