import TodoRust.Lib.Split
import TodoRust.StaticFiles.Serve

/-!
# Paths and the file system

A path is resolved one component at a time, from the root or from the working
directory. There are directories and regular files, and no links.
-/

namespace TodoRust.StaticFiles
open Rust

/-- What a name in a directory stands for. -/
inductive Node
  | file (content : List UInt8)
  | directory (entries : Directory)

/-- A name as every file system allows it. -/
def EntryName (name : String) : Prop :=
  name ≠ "" ∧ '/' ∉ name.toList ∧ name ≠ "." ∧ name ≠ ".."

instance (name : String) : Decidable (EntryName name) :=
  inferInstanceAs (Decidable (name ≠ "" ∧ '/' ∉ name.toList ∧ name ≠ "." ∧ name ≠ ".."))

namespace Directory

/-- Names are those of a file system, and distinct within one directory. -/
def Sound : Directory → Prop
  | empty => True
  | file name _ rest => EntryName name ∧ name ∉ rest.names ∧ rest.Sound
  | subdirectory name entries rest =>
      EntryName name ∧ name ∉ rest.names ∧ entries.Sound ∧ rest.Sound

instance decidableSound : (d : Directory) → Decidable d.Sound
  | empty => isTrue trivial
  | file name _ rest =>
      haveI := decidableSound rest
      inferInstanceAs (Decidable (EntryName name ∧ name ∉ rest.names ∧ rest.Sound))
  | subdirectory name entries rest =>
      haveI := decidableSound entries
      haveI := decidableSound rest
      inferInstanceAs
        (Decidable (EntryName name ∧ name ∉ rest.names ∧ entries.Sound ∧ rest.Sound))

/-- The entry of a name. -/
def entry : Directory → String → Option Node
  | empty, _ => none
  | file own content rest, name => if own = name then some (.file content) else rest.entry name
  | subdirectory own entries rest, name =>
      if own = name then some (.directory entries) else rest.entry name

/-- What lies at the end of a row of names. -/
def node (d : Directory) : List String → Option Node
  | [] => some (.directory d)
  | name :: rel =>
      match d.entry name with
      | some (.directory entries) => entries.node rel
      | some (.file content) => if rel = [] then some (.file content) else none
      | none => none

section Tree
variable {d entries : Directory} {name : String} {rel : List String} {n : Node}

theorem names_of_entry (h : d.entry name = some n) : name ∈ d.names := by
  induction d with
  | empty => cases h
  | file own content rest ih =>
      by_cases hown : own = name
      · exact hown ▸ List.mem_cons_self
      · rw [entry, if_neg hown] at h
        exact List.mem_cons_of_mem _ (ih h)
  | subdirectory own entries rest ihEntries ihRest =>
      by_cases hown : own = name
      · exact hown ▸ List.mem_cons_self
      · rw [entry, if_neg hown] at h
        exact List.mem_cons_of_mem _ (ihRest h)

theorem Sound.entryName (h : d.Sound) (hname : name ∈ d.names) : EntryName name := by
  induction d with
  | empty => cases hname
  | file own content rest ih =>
      obtain ⟨hown, -, hrest⟩ := h
      rcases List.mem_cons.mp hname with rfl | hname
      · exact hown
      · exact ih hrest hname
  | subdirectory own entries rest ihEntries ihRest =>
      obtain ⟨hown, -, -, hrest⟩ := h
      rcases List.mem_cons.mp hname with rfl | hname
      · exact hown
      · exact ihRest hrest hname

theorem Sound.entry (h : d.Sound) (hentry : d.entry name = some (.directory entries)) :
    entries.Sound := by
  induction d with
  | empty => cases hentry
  | file own content rest ih =>
      obtain ⟨-, -, hrest⟩ := h
      by_cases hown : own = name
      · rw [Directory.entry, if_pos hown] at hentry
        cases hentry
      · rw [Directory.entry, if_neg hown] at hentry
        exact ih hrest hentry
  | subdirectory own inner rest ihEntries ihRest =>
      obtain ⟨-, -, hinner, hrest⟩ := h
      by_cases hown : own = name
      · rw [Directory.entry, if_pos hown] at hentry
        cases hentry
        exact hinner
      · rw [Directory.entry, if_neg hown] at hentry
        exact ihRest hrest hentry

theorem node_singleton (d : Directory) (name : String) : d.node [name] = d.entry name := by
  rw [node]
  cases d.entry name with
  | none => rfl
  | some n =>
      cases n with
      | file content => rfl
      | directory entries => rfl

theorem node_append (h : d.node rel = some (.directory entries)) (more : List String) :
    d.node (rel ++ more) = entries.node more := by
  induction rel generalizing d with
  | nil =>
      cases h
      rfl
  | cons name rel ih =>
      rw [node] at h
      rw [List.cons_append, node]
      cases hentry : d.entry name with
      | none =>
          rw [hentry] at h
          cases h
      | some n =>
          rw [hentry] at h
          cases n with
          | directory inner => exact ih h
          | file content =>
              dsimp only at h
              split at h
              · cases h
              · cases h

theorem node_concat (h : d.node rel = some (.directory entries)) (name : String) :
    d.node (rel ++ [name]) = entries.entry name := by
  rw [node_append h, node_singleton]

theorem Sound.node (h : d.Sound) (hnode : d.node rel = some (.directory entries)) :
    entries.Sound := by
  induction rel generalizing d with
  | nil =>
      cases hnode
      exact h
  | cons name rel ih =>
      rw [Directory.node] at hnode
      cases hentry : d.entry name with
      | none =>
          rw [hentry] at hnode
          cases hnode
      | some n =>
          rw [hentry] at hnode
          cases n with
          | directory inner => exact ih (h.entry hentry) hnode
          | file content =>
              dsimp only at hnode
              split at hnode
              · cases hnode
              · cases hnode

section First
variable {own first : String} {content : List UInt8} {rest : Directory}

theorem node_file_of_ne (h : own ≠ first) :
    (file own content rest).node (first :: rel) = rest.node (first :: rel) := by
  rw [node, entry, if_neg h, ← node]

theorem node_subdirectory_of_ne (h : own ≠ first) :
    (subdirectory own entries rest).node (first :: rel) = rest.node (first :: rel) := by
  rw [node, entry, if_neg h, ← node]

theorem node_subdirectory_self :
    (subdirectory own entries rest).node (own :: rel) = entries.node rel := by
  rw [node, entry, if_pos rfl]

end First

/-- The files of a directory are what rows of names lead to. -/
theorem mem_files_iff (h : d.Sound) {content : List UInt8} :
    (rel, content) ∈ d.files ↔ d.node rel = some (.file content) := by
  induction d generalizing rel with
  | empty =>
      cases rel with
      | nil => exact iff_of_false (List.not_mem_nil) (fun hnode => by cases hnode)
      | cons name rel => exact iff_of_false (List.not_mem_nil) (fun hnode => by cases hnode)
  | file own bytes rest ih =>
      obtain ⟨-, hfresh, hrest⟩ := h
      cases rel with
      | nil => simp [files, node, ih hrest]
      | cons name rel =>
          by_cases hown : own = name
          · subst hown
            have hnot : (own :: rel, content) ∉ rest.files := by
              intro hmem
              obtain ⟨name', hname', tail, htail⟩ := exists_name_of_mem_files hmem
              exact hfresh ((List.cons.inj htail).1 ▸ hname')
            by_cases hrel : rel = []
            · simp [files, node, entry, hrel, hrel ▸ hnot, eq_comm]
            · simp [files, node, entry, hrel, hnot]
          · rw [node_file_of_ne hown, ← ih hrest]
            simp [files, Ne.symm hown]
  | subdirectory own entries rest ihEntries ihRest =>
      obtain ⟨-, hfresh, hentries, hrest⟩ := h
      cases rel with
      | nil => simp [files, node, ihRest hrest]
      | cons name rel =>
          by_cases hown : own = name
          · subst hown
            have hnot : (own :: rel, content) ∉ rest.files := by
              intro hmem
              obtain ⟨name', hname', tail, htail⟩ := exists_name_of_mem_files hmem
              exact hfresh ((List.cons.inj htail).1 ▸ hname')
            rw [node_subdirectory_self, ← ihEntries hentries]
            simp [files, hnot]
          · rw [node_subdirectory_of_ne hown, ← ihRest hrest]
            simp [files, hown]

end Tree

end Directory

end TodoRust.StaticFiles

namespace TodoRust.Preview
open Lib Rust StaticFiles

/-- `std::io::Error` -/
inductive IoError
  | notFound
  | notADirectory
  | isADirectory
  | invalidData
  | other (message : String)
  deriving DecidableEq

def IoError.toString : IoError → String
  | .notFound => "No such file or directory (os error 2)"
  | .notADirectory => "Not a directory (os error 20)"
  | .isADirectory => "Is a directory (os error 21)"
  | .invalidData => "stream did not contain valid UTF-8"
  | .other message => message

/-- The names from the root to a file or directory. -/
abbrev Position := List String

structure FileSystem where
  root : Directory
  sound : root.Sound
  cwd : Position

/-- The components of a path, empty ones included. -/
def components (path : String) : List String := (split path.toList '/').map String.ofList

namespace FileSystem
variable (fs : FileSystem)

/-- One component of a path, which is looked up in a directory. -/
def step (pos : Position) (component : String) : Except IoError Position :=
  match fs.root.node pos with
  | some (.directory entries) =>
      if component = "" ∨ component = "." then .ok pos
      else if component = ".." then .ok pos.dropLast
      else
        match entries.entry component with
        | some _ => .ok (pos ++ [component])
        | none => .error .notFound
  | some (.file _) => .error .notADirectory
  | none => .error .notFound

/-- Where a path starts. -/
def start (path : String) : Position := if startsWith path ['/'] then [] else fs.cwd

/-- Where a path leads; nothing is said of the empty one. -/
def base (path : String) : Except IoError Position :=
  (components path).foldlM fs.step (fs.start path)

/-- One component of a path as a text, where `..` takes back the name before it. -/
def lexicalStep (pos : Position) (component : String) : Position :=
  if component = "" ∨ component = "." then pos
  else if component = ".." then pos.dropLast
  else pos ++ [component]

/-- The names of a path as a text. -/
def lexical (path : String) : Position := (components path).foldl lexicalStep (fs.start path)

def resolve (path : String) : Except IoError Position :=
  if path = "" then .error .notFound else fs.base path

/-- What is at a path. -/
def stat (path : String) : Except IoError Node := do
  let pos ← fs.resolve path
  match fs.root.node pos with
  | some node => .ok node
  | none => .error .notFound

/-- `Path::exists` -/
def pathExists (path : String) : Bool :=
  match fs.stat path with
  | .ok _ => true
  | .error _ => false

/-- `Path::is_file` -/
def isFile (path : String) : Bool :=
  match fs.stat path with
  | .ok (.file _) => true
  | _ => false

/-- `std::fs::read_dir` -/
def readDir (path : String) : Except IoError Directory := do
  match ← fs.stat path with
  | .directory entries => .ok entries
  | .file _ => .error .notADirectory

/-- `std::fs::read_to_string` -/
def readToString (path : String) : Except IoError String := do
  match ← fs.stat path with
  | .file content => (String.fromUTF8? ⟨content.toArray⟩).elim (.error .invalidData) .ok
  | .directory _ => .error .isADirectory

/-- A path leads to some place below a directory, if it leads anywhere. -/
def Below (dir path : String) : Prop :=
  ∀ pos, fs.resolve path = .ok pos → ∃ top, fs.base dir = .ok top ∧ top <+: pos

end FileSystem

/-! ### Components -/

theorem components_append (a b : String) :
    components (a ++ "/" ++ b) = components a ++ components b := by
  have hchars : (a ++ "/" ++ b).toList = a.toList ++ '/' :: b.toList := by simp
  rw [components, hchars, split, List.splitOn_append_cons_self, List.map_append]
  rfl

theorem components_ne_nil (path : String) : components path ≠ [] := by
  rw [components, Ne, List.map_eq_nil_iff]
  exact List.splitOn_ne_nil _ _

theorem components_of_slash_notMem {name : String} (h : '/' ∉ name.toList) :
    components name = [name] := by
  rw [components, split, List.splitOn_eq_singleton h, List.map_singleton, String.ofList_toList]

theorem relative_of_slash_notMem {name : String} (h : '/' ∉ name.toList) :
    startsWith name ['/'] = false := by
  exact startsWith_eq_false_iff.mpr fun hinit => h (hinit.subset List.mem_cons_self)

theorem slash_notMem_of_mem_components {path component : String} (h : component ∈ components path) :
    '/' ∉ component.toList := by
  obtain ⟨chars, hchars, rfl⟩ := List.mem_map.mp h
  rw [String.toList_ofList]
  exact notMem_of_mem_splitOn hchars

/-- A path of names has these names as its components. -/
theorem components_logicalPath {rel : List String} (hne : rel ≠ [])
    (h : ∀ name ∈ rel, '/' ∉ name.toList) : components (logicalPath rel) = rel := by
  rw [components, logicalPath, String.toList_ofList, split, List.splitOn_intercalate]
  · rw [List.map_map]
    exact (List.map_congr_left fun name _ => String.ofList_toList).trans (List.map_id rel)
  · rintro _ hl
    obtain ⟨name, hname, rfl⟩ := List.mem_map.mp hl
    exact h name hname
  · simpa using hne

section Join
variable {path : String}

theorem components_joinPath (dir : String) (hpath : startsWith path ['/'] = false) :
    ∃ front, (components dir = front ∨ components dir = front ++ [""]) ∧
      components (joinPath dir path) = front ++ components path := by
  have hempty : components "" = [""] := components_of_slash_notMem (by decide)
  rw [joinPath, if_neg (by rw [hpath]; exact Bool.false_ne_true)]
  by_cases hdir : dir = ""
  · refine ⟨[], Or.inr (hdir ▸ hempty), ?_⟩
    simp [hdir]
  · by_cases hslash : endsWith dir ['/'] = true
    · obtain ⟨chars, hchars⟩ := List.isSuffixOf_iff_suffix.mp hslash
      have hfront : dir = String.ofList chars ++ "/" ++ "" := by
        apply String.toList_inj.mp
        rw [← hchars]
        simp
      refine ⟨components (String.ofList chars), Or.inr ?_, ?_⟩
      · conv_lhs => rw [hfront]
        rw [components_append, hempty]
      · have hjoined : dir ++ path = String.ofList chars ++ "/" ++ path := by
          rw [hfront]
          simp
        rw [if_pos (by rw [hslash]; simp), hjoined, components_append]
    · refine ⟨components dir, Or.inl rfl, ?_⟩
      rw [if_neg (by simp [hdir, hslash]), components_append]

theorem startsWith_joinPath (dir : String) (hpath : startsWith path ['/'] = false) :
    startsWith (joinPath dir path) ['/'] = startsWith dir ['/'] := by
  rw [joinPath_relative hpath, joinPrefix]
  by_cases hdir : dir = ""
  · rw [if_pos (by simp [hdir]), hdir, String.empty_append, hpath]
    rfl
  · obtain ⟨c, cs, hcs⟩ :=
      List.exists_cons_of_ne_nil fun hnil => hdir (String.toList_eq_nil_iff.mp hnil)
    split
    · simp only [startsWith, String.toList_append, hcs, List.cons_append, List.isPrefixOf]
    · simp only [startsWith, String.toList_append, hcs, List.cons_append, List.isPrefixOf]

end Join

/-! ### Steps -/

namespace FileSystem
variable {fs : FileSystem} {pos pos' : Position} {entries : Directory} {component name : String}
  {rel : List String} {n : Node}

theorem step_eq_ok (h : fs.step pos component = .ok pos') : lexicalStep pos component = pos' := by
  unfold step at h
  unfold lexicalStep
  split at h
  · split at h
    · next hstay =>
        rw [if_pos hstay]
        exact Except.ok.inj h
    · next hgo =>
        rw [if_neg hgo]
        split at h
        · next hup =>
            rw [if_pos hup]
            exact Except.ok.inj h
        · next hdown =>
            rw [if_neg hdown]
            split at h
            · exact Except.ok.inj h
            · cases h
  · cases h
  · cases h

/-- Without links, a path leads where its text says. -/
theorem foldlM_step_eq_ok (h : rel.foldlM fs.step pos = .ok pos') :
    rel.foldl lexicalStep pos = pos' := by
  induction rel generalizing pos with
  | nil => exact Except.ok.inj h
  | cons component rel ih =>
      rw [List.foldlM_cons] at h
      cases hstep : fs.step pos component with
      | error e =>
          rw [hstep] at h
          cases h
      | ok mid =>
          rw [hstep] at h
          rw [List.foldl_cons, step_eq_ok hstep]
          exact ih h

/-- Except for `..`, a component stays or goes down. -/
theorem lexicalStep_extends (hup : component ≠ "..") : pos <+: lexicalStep pos component := by
  unfold lexicalStep
  split
  · exact List.prefix_rfl
  · exact List.prefix_append pos [component]

theorem foldl_lexicalStep_extends (hup : ∀ component ∈ rel, component ≠ "..") :
    pos <+: rel.foldl lexicalStep pos := by
  induction rel generalizing pos with
  | nil => exact List.prefix_rfl
  | cons component rel ih =>
      obtain ⟨hhead, htail⟩ := List.forall_mem_cons.mp hup
      rw [List.foldl_cons]
      exact (lexicalStep_extends hhead).trans (ih htail)

/-- Before another component, an empty one makes no difference. -/
theorem step_empty_bind (fs : FileSystem) (pos : Position) (component : String) :
    (fs.step pos "" >>= fun pos => fs.step pos component) = fs.step pos component := by
  cases hnode : fs.root.node pos with
  | none => simp [step, hnode, bind, Except.bind]
  | some n =>
      cases n with
      | file content => simp [step, hnode, bind, Except.bind]
      | directory entries => simp [step, hnode, bind, Except.bind]

theorem step_empty_foldlM (fs : FileSystem) (pos : Position) (hrel : rel ≠ []) :
    (fs.step pos "" >>= fun pos => rel.foldlM fs.step pos) = rel.foldlM fs.step pos := by
  obtain ⟨component, rest, rfl⟩ := List.exists_cons_of_ne_nil hrel
  simp only [List.foldlM_cons, ← bind_assoc, step_empty_bind]

theorem step_entry (hpos : fs.root.node pos = some (.directory entries))
    (hentry : entries.entry name = some n) : fs.step pos name = .ok (pos ++ [name]) := by
  obtain ⟨hempty, -, hdot, hup⟩ := (fs.sound.node hpos).entryName (Directory.names_of_entry hentry)
  simp only [step, hpos, hempty, hdot, or_self, hup, if_false, hentry]

/-- Names that lead somewhere are followed. -/
theorem foldlM_step_node (hpos : fs.root.node pos = some (.directory entries))
    (hnode : entries.node rel = some n) : rel.foldlM fs.step pos = .ok (pos ++ rel) := by
  induction rel generalizing pos entries with
  | nil =>
      rw [List.append_nil]
      rfl
  | cons name rel ih =>
      rw [Directory.node] at hnode
      cases hentry : entries.entry name with
      | none =>
          rw [hentry] at hnode
          cases hnode
      | some inner =>
          rw [hentry] at hnode
          rw [List.foldlM_cons, step_entry hpos hentry]
          cases inner with
          | directory inner =>
              rw [List.append_cons pos name rel]
              exact ih ((Directory.node_concat hpos name).trans hentry) hnode
          | file content =>
              by_cases hrel : rel = []
              · rw [hrel]
                rfl
              · simp only [if_neg hrel] at hnode
                cases hnode

/-! ### Joined paths -/

section Join
variable {dir path : String}

/-- A relative path is resolved from its directory. -/
theorem base_joinPath (fs : FileSystem) (dir : String) (hpath : startsWith path ['/'] = false) :
    fs.base (joinPath dir path) =
      fs.base dir >>= fun pos => (components path).foldlM fs.step pos := by
  have hstart : fs.start (joinPath dir path) = fs.start dir := by
    rw [start, startsWith_joinPath dir hpath, start]
  obtain ⟨front, hdir, hjoined⟩ := components_joinPath dir hpath
  rw [base, hstart, hjoined, List.foldlM_append, base]
  rcases hdir with hdir | hdir
  · rw [hdir]
  · simp only [hdir, List.foldlM_append, List.foldlM_cons, List.foldlM_nil, bind_pure, bind_assoc,
      step_empty_foldlM fs _ (components_ne_nil path)]

theorem readDir_eq_ok_iff {listing : Directory} :
    fs.readDir dir = .ok listing ↔ fs.stat dir = .ok (.directory listing) := by
  unfold readDir
  cases fs.stat dir with
  | error e => simp [bind, Except.bind]
  | ok n =>
      cases n with
      | file content => simp [bind, Except.bind]
      | directory entries => simp [bind, Except.bind]

theorem isFile_iff : fs.isFile path = true ↔ ∃ content, fs.stat path = .ok (.file content) := by
  unfold isFile
  cases fs.stat path with
  | error e => simp
  | ok n =>
      cases n with
      | file content => simp
      | directory entries => simp

theorem pathExists_iff : fs.pathExists path = true ↔ ∃ n, fs.stat path = .ok n := by
  unfold pathExists
  cases fs.stat path with
  | error e => simp
  | ok n => simp

theorem stat_eq_ok_iff : fs.stat path = .ok n ↔
    path ≠ "" ∧ ∃ pos, fs.base path = .ok pos ∧ fs.root.node pos = some n := by
  unfold stat resolve
  by_cases hempty : path = ""
  · simp [hempty, bind, Except.bind]
  · simp only [hempty, if_false, not_false_eq_true, ne_eq, true_and]
    cases fs.base path with
    | error e => simp [bind, Except.bind]
    | ok pos =>
        cases hnode : fs.root.node pos with
        | none => simp [bind, Except.bind, hnode]
        | some m => simp [bind, Except.bind, hnode]

/-- The empty path starts at a directory, if it starts anywhere. -/
theorem node_of_base_empty (h : fs.base "" = .ok pos) :
    ∃ entries, fs.root.node pos = some (.directory entries) := by
  have hempty : components "" = [""] := components_of_slash_notMem (by decide)
  simp only [base, hempty, List.foldlM_cons, List.foldlM_nil, bind_pure] at h
  unfold step at h
  split at h
  · next entries hentries =>
      rw [if_pos (Or.inl rfl)] at h
      cases h
      exact ⟨entries, hentries⟩
  · cases h
  · cases h

/-- `read_dir` lists a directory that the path leads to. -/
theorem readDir_eq_ok {listing : Directory} (h : fs.readDir dir = .ok listing) :
    dir ≠ "" ∧ ∃ pos, fs.base dir = .ok pos ∧ fs.root.node pos = some (.directory listing) :=
  stat_eq_ok_iff.mp (readDir_eq_ok_iff.mp h)

theorem joinPath_ne_empty (hdir : dir ≠ "") (path : String) (hpath : path ≠ "") :
    joinPath dir path ≠ "" := by
  unfold joinPath
  split
  · exact hpath
  · split
    · exact fun h => hdir (String.append_eq_empty_iff.mp h).1
    · exact fun h => hpath (String.append_eq_empty_iff.mp h).2

/-- What a relative path leads to in a directory that can be listed. -/
theorem stat_joinPath {listing : Directory} (h : fs.readDir dir = .ok listing)
    (hrelative : startsWith path ['/'] = false) (hpath : path ≠ "")
    (hnode : listing.node (components path) = some n) : fs.stat (joinPath dir path) = .ok n := by
  obtain ⟨hdir, pos, hbase, hpos⟩ := readDir_eq_ok h
  have hresolved : fs.resolve (joinPath dir path) = .ok (pos ++ components path) := by
    rw [resolve, if_neg (joinPath_ne_empty hdir path hpath), base_joinPath fs dir hrelative, hbase]
    exact foldlM_step_node hpos hnode
  rw [stat, hresolved]
  simp only [bind, Except.bind, Directory.node_append hpos, hnode]

/-- The entries of a subdirectory are those `read_dir` lists. -/
theorem readDir_joinPath {listing : Directory} (h : fs.readDir dir = .ok listing)
    (hentry : listing.entry name = some (.directory entries)) :
    fs.readDir (joinPath dir name) = .ok entries := by
  obtain ⟨-, pos, -, hpos⟩ := readDir_eq_ok h
  obtain ⟨hempty, hslash, -⟩ := (fs.sound.node hpos).entryName (Directory.names_of_entry hentry)
  refine readDir_eq_ok_iff.mpr (stat_joinPath h (relative_of_slash_notMem hslash) hempty ?_)
  rw [components_of_slash_notMem hslash, Directory.node_singleton, hentry]

end Join

end FileSystem

end TodoRust.Preview
