import TodoRust.Preview.Stories

/-!
# What discovery finds

Discovery finds every template with all its stories, and in one order only, whatever the
order in which the directories are enumerated.
-/

namespace TodoRust.StaticFiles.Directory

/-- There is no backslash in a name at any depth. -/
def NoBackslashes (d : Directory) : Prop :=
  ∀ rel, (d.node rel).isSome = true → ∀ name ∈ rel, '\\' ∉ name.toList

/-- The file or directory at the end of a row of names, without the order of the
directory. -/
def look (d : Directory) (rel : List String) : Option (Option (List UInt8)) :=
  (d.node rel).map fun
    | .file content => some content
    | .directory _ => none

end TodoRust.StaticFiles.Directory

namespace TodoRust.Preview
open Lib Rust StaticFiles

/-- The same files and directories, in another order of enumeration. -/
def FileSystem.Reordered (fs fs' : FileSystem) : Prop :=
  fs.cwd = fs'.cwd ∧ ∀ rel, fs.root.look rel = fs'.root.look rel

/-- A file for which there is an entry: its name is not hidden, and it ends in `.html`. -/
def isTemplate (rel : List String) : Bool :=
  match rel.getLast? with
  | some name => !startsWith name ['_'] && endsWith name ".html".toList
  | none => false

/-- Where the fixtures of a template are. -/
def storiesDir (fixturesDir templatePath : String) : String :=
  joinPath fixturesDir (trimEndMatches templatePath ".html".toList)

/-- The entries are the templates of a directory, in order, with their stories. -/
structure Discovered (fs : FileSystem) (templates : Directory) (fixturesDir : String)
    (entries : List TemplateEntry) : Prop where
  ordered : (entries.map TemplateEntry.templatePath).Pairwise (· < ·)
  paths : (entries.map TemplateEntry.templatePath).Perm
    ((templates.files.filter fun f => isTemplate f.1).map fun f => logicalPath f.1)
  stories : ∀ e ∈ entries, StoriesOf fs (storiesDir fixturesDir e.templatePath) e.stories

/-! ### The walk -/

section Walk
variable {fs : FileSystem} {root fixturesDir dir : String} {d : Directory} {names : List String}
  {out : List TemplateEntry}

/-- The templates of a directory, in the order of the walk. -/
def templateRels (d : Directory) : List (List String) := (d.files.map Prod.fst).filter isTemplate

/-- One template of the walk. -/
def addEntry (fs : FileSystem) (fixturesDir : String) (out : List TemplateEntry)
    (rel : List String) : Except FixtureError (List TemplateEntry) := do
  let templatePath := replaceBackslashes (logicalPath rel)
  let stories ← storiesFor fs (storiesDir fixturesDir templatePath)
  return out ++ [⟨templatePath, stories⟩]

theorem templateRels_file (name : String) (content : List UInt8) (rest : Directory) :
    templateRels (.file name content rest) =
      if startsWith name ['_'] then templateRels rest
      else if !endsWith name ".html".toList then templateRels rest
      else [name] :: templateRels rest := by
  rw [templateRels, Directory.files, List.map_cons, List.filter_cons]
  cases hstart : startsWith name ['_'] with
  | true => simp [isTemplate, hstart, templateRels]
  | false =>
      cases hend : endsWith name ".html".toList with
      | true => simp only [isTemplate, List.getLast?_singleton, hstart, hend]; rfl
      | false => simp only [isTemplate, List.getLast?_singleton, hstart, hend]; rfl

theorem templateRels_subdirectory (name : String) (entries rest : Directory) :
    templateRels (.subdirectory name entries rest) =
      (templateRels entries).map (name :: ·) ++ templateRels rest := by
  have hkeys : (entries.files.map fun f => (name :: f.1, f.2)).map Prod.fst =
      (entries.files.map Prod.fst).map (name :: ·) := by
    rw [List.map_map, List.map_map]
    rfl
  have hlast : ∀ rel ∈ entries.files.map Prod.fst,
      (isTemplate ∘ (name :: ·)) rel = isTemplate rel := by
    intro rel hrel
    obtain ⟨f, hf, rfl⟩ := List.mem_map.mp hrel
    obtain ⟨first, -, tail, htail⟩ := Directory.exists_name_of_mem_files hf
    rw [Function.comp_apply, isTemplate, isTemplate, htail, List.getLast?_cons_cons]
  rw [templateRels, Directory.files, List.map_append, List.filter_append, hkeys, List.filter_map,
    List.filter_congr hlast]
  rfl

/-- A subdirectory is walked as the directory itself is. -/
theorem walkEntries_subdirectory {listing rest : Directory} {name : String}
    (h : fs.readDir dir = .ok listing) (hentry : listing.entry name = some (.directory d)) :
    walkEntries fs root fixturesDir dir (.subdirectory name d rest) out = (do
      let out ← walkTemplates fs root (joinPath dir name) fixturesDir out
      walkEntries fs root fixturesDir dir rest out) := by
  rw [walkEntries, walkTemplates, FileSystem.readDir_joinPath h hentry]

/-- The walk adds the templates one after the other. -/
theorem walkEntries_eq (hsound : d.Sound)
    (hdir : pathComponents dir = pathComponents root ++ names) (out : List TemplateEntry) :
    walkEntries fs root fixturesDir dir d out =
      (templateRels d).foldlM (fun out rel => addEntry fs fixturesDir out (names ++ rel)) out := by
  induction d generalizing dir names out with
  | empty => rfl
  | subdirectory name entries rest ihEntries ihRest =>
      obtain ⟨hname, -, hentries, hrest⟩ := hsound
      have hbelow :
          pathComponents (joinPath dir name) = pathComponents root ++ (names ++ [name]) := by
        rw [pathComponents_joinPath dir hname, hdir, List.append_assoc]
      rw [walkEntries, ihEntries hentries hbelow, templateRels_subdirectory, List.foldlM_append,
        List.foldlM_map]
      simp only [List.append_assoc, List.singleton_append]
      exact bind_congr fun out => ihRest hrest hdir out
  | file name content rest ih =>
      obtain ⟨hname, -, hrest⟩ := hsound
      have hbelow :
          pathComponents (joinPath dir name) = pathComponents root ++ (names ++ [name]) := by
        rw [pathComponents_joinPath dir hname, hdir, List.append_assoc]
      rw [walkEntries, templateRels_file]
      dsimp only
      split
      · exact ih hrest hdir out
      · split
        · exact ih hrest hdir out
        · rw [stripPrefix_eq hbelow, List.foldlM_cons, addEntry]
          simp only [bind_assoc, pure_bind]
          exact bind_congr fun stories => ih hrest hdir _

/-- The entries a walk over these templates adds. -/
theorem foldlM_addEntry_of_ok {rels : List (List String)} {result : List TemplateEntry}
    (h : rels.foldlM (addEntry fs fixturesDir) out = .ok result) :
    ∃ added, result = out ++ added ∧
      added.map TemplateEntry.templatePath =
        rels.map (fun rel => replaceBackslashes (logicalPath rel)) ∧
      ∀ e ∈ added, StoriesOf fs (storiesDir fixturesDir e.templatePath) e.stories := by
  induction rels generalizing out with
  | nil =>
      obtain rfl := Except.ok.inj h
      exact ⟨[], (List.append_nil out).symm, rfl, fun e he => by cases he⟩
  | cons rel rels ih =>
      rw [List.foldlM_cons, addEntry] at h
      cases hstories : storiesFor fs
          (storiesDir fixturesDir (replaceBackslashes (logicalPath rel))) with
      | error e =>
          rw [hstories] at h
          cases h
      | ok stories =>
          rw [hstories] at h
          obtain ⟨added, hresult, hpaths, hadded⟩ := ih h
          refine ⟨⟨replaceBackslashes (logicalPath rel), stories⟩ :: added, ?_, ?_, ?_⟩
          · rw [hresult, List.append_assoc]
            rfl
          · rw [List.map_cons, List.map_cons, hpaths]
          · exact List.forall_mem_cons.mpr ⟨storiesOf_of_ok hstories, hadded⟩

theorem foldlM_addEntry_ok {rels : List (List String)} (h : ∀ rel ∈ rels,
    fs.isFile (storiesDir fixturesDir (replaceBackslashes (logicalPath rel))) = false) :
    ∃ result, rels.foldlM (addEntry fs fixturesDir) out = .ok result := by
  induction rels generalizing out with
  | nil => exact ⟨out, rfl⟩
  | cons rel rels ih =>
      obtain ⟨hrel, hrels⟩ := List.forall_mem_cons.mp h
      obtain ⟨stories, hstories⟩ := storiesFor_ok hrel
      obtain ⟨result, hresult⟩ :=
        @ih (out ++ [⟨replaceBackslashes (logicalPath rel), stories⟩]) hrels
      refine ⟨result, ?_⟩
      rw [List.foldlM_cons, addEntry]
      simp only [hstories, bind_assoc, pure_bind]
      exact hresult

end Walk

/-! ### The entries -/

section Entries
variable {fs fs' : FileSystem} {templatesDir fixturesDir : String} {templates : Directory}
  {entries : List TemplateEntry}

theorem mem_names_of_node {d : Directory} {first : String} {rel : List String}
    (h : (d.node (first :: rel)).isSome = true) : first ∈ d.names := by
  rw [Directory.node] at h
  cases hentry : d.entry first with
  | none =>
      rw [hentry] at h
      cases h
  | some n => exact Directory.names_of_entry hentry

theorem wellFormed_of_noBackslashes {d : Directory} (h : d.Sound) (hnames : d.NoBackslashes) :
    d.WellFormed := by
  induction d with
  | empty => trivial
  | file own content rest ih =>
      obtain ⟨⟨hempty, hslash, -, -⟩, hfresh, hrest⟩ := h
      have hown : '\\' ∉ own.toList :=
        hnames [own] (by simp [Directory.node, Directory.entry]) own List.mem_cons_self
      refine ⟨⟨hempty, hslash, hown⟩, hfresh, ih hrest fun rel hrel => ?_⟩
      cases rel with
      | nil => exact fun name hname => by cases hname
      | cons first rel =>
          have hne : own ≠ first := fun heq => hfresh (heq ▸ mem_names_of_node hrel)
          refine hnames (first :: rel) ?_
          rwa [Directory.node_file_of_ne hne]
  | subdirectory own entries rest ihEntries ihRest =>
      obtain ⟨⟨hempty, hslash, -, -⟩, hfresh, hentries, hrest⟩ := h
      have hown : '\\' ∉ own.toList :=
        hnames [own] (by simp [Directory.node, Directory.entry]) own List.mem_cons_self
      refine ⟨⟨hempty, hslash, hown⟩, hfresh, ihEntries hentries fun rel hrel => ?_,
        ihRest hrest fun rel hrel => ?_⟩
      · have hbelow := hnames (own :: rel) (by rwa [Directory.node_subdirectory_self])
        exact fun name hname => hbelow name (List.mem_cons_of_mem own hname)
      · cases rel with
        | nil => exact fun name hname => by cases hname
        | cons first rel =>
            have hne : own ≠ first := fun heq => hfresh (heq ▸ mem_names_of_node hrel)
            refine hnames (first :: rel) ?_
            rwa [Directory.node_subdirectory_of_ne hne]

theorem noBackslashes_of_wellFormed {d : Directory} (h : d.WellFormed) : d.NoBackslashes := by
  intro rel hrel
  induction d generalizing rel with
  | empty =>
      cases rel with
      | nil => exact fun name hname => by cases hname
      | cons first rel => cases hrel
  | file own content rest ih =>
      obtain ⟨⟨-, -, hown⟩, -, hrest⟩ := h
      cases rel with
      | nil => exact fun name hname => by cases hname
      | cons first rel =>
          by_cases hfirst : own = first
          · subst hfirst
            obtain rfl : rel = [] := by
              by_contra hne
              simp [Directory.node, Directory.entry, hne] at hrel
            simpa using hown
          · refine ih hrest (first :: rel) ?_
            rwa [Directory.node_file_of_ne hfirst] at hrel
  | subdirectory own entries rest ihEntries ihRest =>
      obtain ⟨⟨-, -, hown⟩, -, hentries, hrest⟩ := h
      cases rel with
      | nil => exact fun name hname => by cases hname
      | cons first rel =>
          by_cases hfirst : own = first
          · subst hfirst
            rw [Directory.node_subdirectory_self] at hrel
            exact List.forall_mem_cons.mpr ⟨hown, ihEntries hentries rel hrel⟩
          · refine ihRest hrest (first :: rel) ?_
            rwa [Directory.node_subdirectory_of_ne hfirst] at hrel

theorem mem_templateRels {d : Directory} {rel : List String} :
    rel ∈ templateRels d ↔ ∃ f ∈ d.files, isTemplate f.1 = true ∧ f.1 = rel := by
  rw [templateRels, List.mem_filter, List.mem_map]
  constructor
  · rintro ⟨⟨f, hf, rfl⟩, htemplate⟩
    exact ⟨f, hf, htemplate, rfl⟩
  · rintro ⟨f, hf, htemplate, rfl⟩
    exact ⟨⟨f, hf, rfl⟩, htemplate⟩

section Paths
variable {d : Directory} {rel : List String} (h : d.WellFormed)
include h

theorem validNames_of_mem_templateRels (hrel : rel ∈ templateRels d) :
    rel ≠ [] ∧ ∀ name ∈ rel, ValidName name := by
  obtain ⟨f, hf, -, rfl⟩ := mem_templateRels.mp hrel
  obtain ⟨first, -, tail, htail⟩ := Directory.exists_name_of_mem_files hf
  refine ⟨?_, Directory.validName_of_mem_files h hf⟩
  rw [htail]
  exact List.cons_ne_nil _ _

theorem replaceBackslashes_templateRel (hrel : rel ∈ templateRels d) :
    replaceBackslashes (logicalPath rel) = logicalPath rel :=
  replaceBackslashes_eq (backslash_notMem_logicalPath (validNames_of_mem_templateRels h hrel).2)

/-- Every template has a path of its own. -/
theorem templatePaths_nodup : ((templateRels d).map logicalPath).Nodup := by
  refine List.Nodup.map_on ?_ ((Directory.files_nodup h).filter _)
  intro rel hrel rel' hrel' heq
  obtain ⟨hne, hvalid⟩ := validNames_of_mem_templateRels h hrel
  obtain ⟨hne', hvalid'⟩ := validNames_of_mem_templateRels h hrel'
  exact (logicalPath_inj hne hne' hvalid hvalid').mp heq

end Paths

theorem sound_of_readDir (hdir : fs.readDir templatesDir = .ok templates) : templates.Sound := by
  obtain ⟨-, pos, -, hpos⟩ := FileSystem.readDir_eq_ok hdir
  exact fs.sound.node hpos

/-- Discovery is one fold over the templates, and a sort. -/
theorem discover_eq (hdir : fs.readDir templatesDir = .ok templates) :
    discover fs templatesDir fixturesDir = (do
      let out ← (templateRels templates).foldlM (addEntry fs fixturesDir) []
      return sortBy (fun a b => compare a.templatePath b.templatePath) out) := by
  have hwalk := @walkEntries_eq fs templatesDir fixturesDir templatesDir templates []
    (sound_of_readDir hdir) (List.append_nil _).symm []
  simp only [List.nil_append] at hwalk
  rw [discover, walkTemplates, hdir, ← hwalk]

theorem wellFormed_of_readDir (hdir : fs.readDir templatesDir = .ok templates)
    (hnames : templates.NoBackslashes) : templates.WellFormed :=
  wellFormed_of_noBackslashes (sound_of_readDir hdir) hnames

/-- What discovery gives are the templates and their stories. -/
theorem discovered_of_ok (hdir : fs.readDir templatesDir = .ok templates)
    (hnames : templates.NoBackslashes) (h : discover fs templatesDir fixturesDir = .ok entries) :
    Discovered fs templates fixturesDir entries := by
  have hwell := wellFormed_of_readDir hdir hnames
  rw [discover_eq hdir] at h
  cases hresult : (templateRels templates).foldlM (addEntry fs fixturesDir) [] with
  | error e =>
      rw [hresult] at h
      cases h
  | ok result =>
      rw [hresult] at h
      obtain rfl := Except.ok.inj h
      obtain ⟨_, rfl, hpaths, hstories⟩ := foldlM_addEntry_of_ok hresult
      rw [List.map_congr_left fun rel hrel => replaceBackslashes_templateRel hwell hrel] at hpaths
      have hperm := sortBy_perm (fun a b => compare a.templatePath b.templatePath) result
      constructor
      · rw [List.pairwise_map]
        refine sortBy_pairwise (fun a b => ?_) (hpaths ▸ templatePaths_nodup hwell)
        rw [Ne, compare_gt_iff_gt, not_lt]
      · refine (hperm.map _).trans ?_
        rw [hpaths, templateRels, List.filter_map, List.map_map]
        exact .refl _
      · exact fun e he => hstories e (hperm.mem_iff.mp he)

/-- Discovery fails only where a file is in place of the fixtures of a template. -/
theorem discover_ok (hdir : fs.readDir templatesDir = .ok templates)
    (hnames : templates.NoBackslashes) (hfixtures : ∀ f ∈ templates.files, isTemplate f.1 = true →
      fs.isFile (storiesDir fixturesDir (logicalPath f.1)) = false) :
    ∃ entries, discover fs templatesDir fixturesDir = .ok entries := by
  have hwell := wellFormed_of_readDir hdir hnames
  have hrels : ∀ rel ∈ templateRels templates,
      fs.isFile (storiesDir fixturesDir (replaceBackslashes (logicalPath rel))) = false := by
    intro rel hrel
    rw [replaceBackslashes_templateRel hwell hrel]
    obtain ⟨f, hf, htemplate, rfl⟩ := mem_templateRels.mp hrel
    exact hfixtures f hf htemplate
  obtain ⟨result, hresult⟩ := foldlM_addEntry_ok hrels
  exact ⟨_, by rw [discover_eq hdir, hresult]; rfl⟩

/-- There is one list of the templates and their stories. -/
theorem Discovered.unique {entries' : List TemplateEntry}
    (h : Discovered fs templates fixturesDir entries)
    (h' : Discovered fs templates fixturesDir entries') : entries = entries' := by
  have hmem {l l' : List TemplateEntry} (hl : Discovered fs templates fixturesDir l)
      (hl' : Discovered fs templates fixturesDir l') (e : TemplateEntry) (he : e ∈ l) : e ∈ l' := by
    have hpath := (hl.paths.trans hl'.paths.symm).mem_iff.mp (List.mem_map_of_mem he)
    obtain ⟨e', he', hsame⟩ := List.mem_map.mp hpath
    have hstories : e'.stories = e.stories := by
      refine (hl'.stories e' he').unique ?_
      rw [hsame]
      exact hl.stories e he
    have heq : e' = e := by
      obtain ⟨path, stories⟩ := e
      obtain ⟨path', stories'⟩ := e'
      obtain rfl : path' = path := hsame
      obtain rfl : stories' = stories := hstories
      rfl
    exact heq ▸ he'
  exact eq_of_pairwise_lt (List.pairwise_map.mp h.ordered) (List.pairwise_map.mp h'.ordered)
    fun e => ⟨hmem h h' e, hmem h' h e⟩

end Entries

/-! ### The order of enumeration -/

section Look
variable {d : Directory} {rel : List String} {name : String}

theorem look_eq_file_iff {content : List UInt8} :
    d.look rel = some (some content) ↔ d.node rel = some (.file content) := by
  rw [Directory.look]
  cases d.node rel with
  | none => simp
  | some n =>
      cases n with
      | file content => simp
      | directory entries => simp

theorem look_eq_directory_iff :
    d.look rel = some none ↔ ∃ entries, d.node rel = some (.directory entries) := by
  rw [Directory.look]
  cases d.node rel with
  | none => simp
  | some n =>
      cases n with
      | file content => simp
      | directory entries => simp

theorem isSome_look : (d.look rel).isSome = (d.node rel).isSome := by
  rw [Directory.look, Option.isSome_map]

end Look

section Reordered
variable {fs fs' : FileSystem} {path dir file : String} {listing : Directory}

theorem FileSystem.Reordered.symm (h : fs.Reordered fs') : fs'.Reordered fs :=
  ⟨h.1.symm, fun rel => (h.2 rel).symm⟩

/-- A directory has the same names in the other order. -/
theorem FileSystem.Reordered.directory (h : fs.Reordered fs') {pos : Position}
    (hpos : fs.root.node pos = some (.directory listing)) :
    ∃ listing', fs'.root.node pos = some (.directory listing') ∧
      ∀ rel, listing.look rel = listing'.look rel := by
  obtain ⟨listing', hpos'⟩ :=
    look_eq_directory_iff.mp ((h.2 pos).symm.trans (look_eq_directory_iff.mpr ⟨listing, hpos⟩))
  refine ⟨listing', hpos', fun rel => ?_⟩
  have hrel := h.2 (pos ++ rel)
  rwa [Directory.look, Directory.look, Directory.node_append hpos,
    Directory.node_append hpos', ← Directory.look, ← Directory.look] at hrel

theorem FileSystem.Reordered.step (h : fs.Reordered fs') : fs.step = fs'.step := by
  funext pos component
  unfold FileSystem.step
  cases hnode : fs.root.node pos with
  | none =>
      have hnone : fs'.root.node pos = none := by
        rw [← Option.not_isSome_iff_eq_none, ← isSome_look, ← h.2 pos, isSome_look, hnode]
        exact Bool.false_ne_true
      rw [hnone]
  | some n =>
      cases n with
      | file content =>
          rw [look_eq_file_iff.mp ((h.2 pos).symm.trans (look_eq_file_iff.mpr hnode))]
      | directory entries =>
          obtain ⟨entries', hnode', hlook⟩ := h.directory hnode
          rw [hnode']
          dsimp only
          have hentry : (entries.entry component).isSome = (entries'.entry component).isSome := by
            rw [← Directory.node_singleton, ← Directory.node_singleton, ← isSome_look,
              ← isSome_look, hlook]
          cases hown : entries.entry component with
          | none =>
              rw [hown, eq_comm, Option.isSome_none, Option.isSome_eq_false_iff,
                Option.isNone_iff_eq_none] at hentry
              rw [hentry]
          | some n =>
              rw [hown, eq_comm, Option.isSome_some, Option.isSome_iff_exists] at hentry
              obtain ⟨n', hn'⟩ := hentry
              rw [hn']

theorem FileSystem.Reordered.base (h : fs.Reordered fs') (path : String) :
    fs.base path = fs'.base path := by
  rw [FileSystem.base, FileSystem.base, h.step, FileSystem.start, FileSystem.start, h.1]

theorem FileSystem.Reordered.isFile (h : fs.Reordered fs') (hfile : fs.isFile path = true) :
    fs'.isFile path = true := by
  obtain ⟨content, hstat⟩ := FileSystem.isFile_iff.mp hfile
  obtain ⟨hempty, pos, hbase, hpos⟩ := FileSystem.stat_eq_ok_iff.mp hstat
  refine FileSystem.isFile_iff.mpr ⟨content, FileSystem.stat_eq_ok_iff.mpr ⟨hempty, pos, ?_, ?_⟩⟩
  · rw [← h.base, hbase]
  · exact look_eq_file_iff.mp ((h.2 pos).symm.trans (look_eq_file_iff.mpr hpos))

theorem FileSystem.Reordered.readDir (h : fs.Reordered fs')
    (hdir : fs.readDir dir = .ok listing) :
    ∃ listing', fs'.readDir dir = .ok listing' ∧ ∀ rel, listing.look rel = listing'.look rel := by
  obtain ⟨hempty, pos, hbase, hpos⟩ := FileSystem.readDir_eq_ok hdir
  obtain ⟨listing', hpos', hlook⟩ := h.directory hpos
  refine ⟨listing', ?_, hlook⟩
  rw [FileSystem.readDir_eq_ok_iff, FileSystem.stat_eq_ok_iff, ← h.base]
  exact ⟨hempty, pos, hbase, hpos'⟩

theorem FileSystem.Reordered.hasFile (h : fs.Reordered fs') (hfile : fs.HasFile dir file) :
    fs'.HasFile dir file := by
  obtain ⟨listing, content, hdir, hentry⟩ := hfile
  obtain ⟨listing', hdir', hlook⟩ := h.readDir hdir
  rw [← Directory.node_singleton, ← look_eq_file_iff, hlook, look_eq_file_iff,
    Directory.node_singleton] at hentry
  exact ⟨listing', content, hdir', hentry⟩

theorem StoriesOf.reordered {stories : List Story} (h : StoriesOf fs dir stories)
    (hfs : fs.Reordered fs') : StoriesOf fs' dir stories := by
  have hfile (file : String) : fs.HasFile dir file ↔ fs'.HasFile dir file :=
    ⟨hfs.hasFile, hfs.symm.hasFile⟩
  refine ⟨h.ordered, fun story => ?_⟩
  simp only [h.mem_iff story, hfile]

theorem noBackslashes_of_look {d d' : Directory} (h : d.NoBackslashes)
    (hlook : ∀ rel, d.look rel = d'.look rel) : d'.NoBackslashes := by
  intro rel hrel
  refine h rel ?_
  rwa [← isSome_look, hlook, isSome_look]

theorem files_perm {d d' : Directory} (h : d.Sound) (h' : d'.Sound) (hnames : d.NoBackslashes)
    (hlook : ∀ rel, d.look rel = d'.look rel) : d.files.Perm d'.files := by
  have hnames' := noBackslashes_of_look hnames hlook
  have hnodup {d : Directory} (h : d.Sound) (hnames : d.NoBackslashes) : d.files.Nodup :=
    List.Nodup.of_map _ (Directory.files_nodup (wellFormed_of_noBackslashes h hnames))
  refine (List.perm_ext_iff_of_nodup (hnodup h hnames) (hnodup h' hnames')).mpr fun f => ?_
  rw [← Prod.eta f, Directory.mem_files_iff h, Directory.mem_files_iff h', ← look_eq_file_iff,
    ← look_eq_file_iff, hlook]

/-- The templates and their stories do not depend on the order. -/
theorem Discovered.reordered {templates templates' : Directory} {fixturesDir : String}
    {entries : List TemplateEntry} (h : Discovered fs templates fixturesDir entries)
    (hfs : fs.Reordered fs') (hfiles : templates.files.Perm templates'.files) :
    Discovered fs' templates' fixturesDir entries :=
  ⟨h.ordered, h.paths.trans ((hfiles.filter _).map _), fun e he => (h.stories e he).reordered hfs⟩

end Reordered

/-- Discovery lists every template with all its stories, sorted, whatever the order of
enumeration. -/
theorem discover_complete (fs : FileSystem) (templatesDir fixturesDir : String)
    (templates : Directory) (hdir : fs.readDir templatesDir = .ok templates)
    (hnames : templates.NoBackslashes)
    (hfixtures : ∀ f ∈ templates.files, isTemplate f.1 = true →
      fs.isFile (storiesDir fixturesDir (logicalPath f.1)) = false) :
    ∃ entries, Discovered fs templates fixturesDir entries ∧
      ∀ fs' : FileSystem, fs.Reordered fs' →
        discover fs' templatesDir fixturesDir = .ok entries := by
  obtain ⟨entries, hentries⟩ := discover_ok hdir hnames hfixtures
  have hdiscovered := discovered_of_ok hdir hnames hentries
  refine ⟨entries, hdiscovered, fun fs' hfs => ?_⟩
  obtain ⟨templates', hdir', hlook⟩ := hfs.readDir hdir
  have hnames' := noBackslashes_of_look hnames hlook
  have hfiles := files_perm (sound_of_readDir hdir) (sound_of_readDir hdir') hnames hlook
  have hfixtures' : ∀ f ∈ templates'.files, isTemplate f.1 = true →
      fs'.isFile (storiesDir fixturesDir (logicalPath f.1)) = false := by
    intro f hf htemplate
    rw [← Bool.not_eq_true]
    intro hfile
    have hnot := hfixtures f (hfiles.mem_iff.mpr hf) htemplate
    rw [hfs.symm.isFile hfile] at hnot
    cases hnot
  obtain ⟨entries', hentries'⟩ := @discover_ok fs' _ fixturesDir _ hdir' hnames' hfixtures'
  have hdiscovered' := (discovered_of_ok hdir' hnames' hentries').reordered hfs.symm hfiles.symm
  rw [hentries', hdiscovered.unique hdiscovered']

/-- What is listed of a small disk -/
def sampleEntries : List TemplateEntry :=
  [⟨"index.html", [⟨"default", "/srv/fixtures/index/default.toml"⟩,
      ⟨"empty", "/srv/fixtures/index/empty.toml"⟩]⟩,
    ⟨"partials/todo.html", []⟩]

example : discover sampleDisk "/srv/templates" "/srv/fixtures" = .ok sampleEntries := by
  rfl

theorem sampleTemplates_noBackslashes : sampleTemplates.NoBackslashes :=
  noBackslashes_of_wellFormed ⟨by decide, by decide, by decide, by decide, by decide, by decide,
    ⟨by decide, by decide, trivial⟩, trivial⟩

/-- Discovery of a small disk. -/
theorem sample_discovered : ∃ entries,
    Discovered sampleDisk sampleTemplates "/srv/fixtures" entries ∧
      ∀ fs' : FileSystem, sampleDisk.Reordered fs' →
        discover fs' "/srv/templates" "/srv/fixtures" = .ok entries :=
  discover_complete sampleDisk "/srv/templates" "/srv/fixtures" sampleTemplates rfl
    sampleTemplates_noBackslashes (by decide)

end TodoRust.Preview
