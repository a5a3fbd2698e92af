import TodoRust.Pages.Markup
import TodoRust.Preview.Browser
import TodoRust.Preview.Confinement
import TodoRust.Preview.Discovery

/-!
# The links of the index

The index writes the paths that discovery lists into its page, and the path of a template
as it is. The path of a listed story opens the story. The link in the page leads there
only if the browser and the router read the path of the template as it was.
-/

namespace TodoRust.Preview
open Lib Rust StaticFiles

/-- The path behind `/__preview/render/` of a story. -/
def storyPath (templatePath story : String) : String := templatePath ++ "/" ++ story

/-- A request for this path below `/__preview/render/` opens the fixture of the story. -/
structure Opens (state : PreviewState) (path templatePath : String) (story : Story) : Prop where
  split : splitLastSegment path = some (templatePath, story.name)
  template : state.fs.isFile (joinPath state.templatesDir templatePath) = true
  fixture : state.fs.pathExists (fixtureFile state.fixturesDir templatePath story.name) = true
  file : fixtureFile state.fixturesDir templatePath story.name = story.file
  page : state.previewEnabled = true → ∀ q nonce,
    let page := render state path q nonce
    state.fs.answer page ≠ .error .notFound ∧
      (state.fs.opened page).head? = some (.fixture story.file)

section Listed
variable {fs : FileSystem} {templatesDir fixturesDir dir : String} {templates : Directory}
  {entries : List TemplateEntry} {e : TemplateEntry} {stories : List Story} {story : Story}

/-- The template of an entry is a file. -/
theorem Discovered.isFile (h : Discovered fs templates fixturesDir entries) (he : e ∈ entries)
    (hdir : fs.readDir templatesDir = .ok templates) (hwell : templates.WellFormed) :
    fs.isFile (joinPath templatesDir e.templatePath) = true := by
  obtain ⟨f, hf, hpath⟩ := List.mem_map.mp (h.paths.mem_iff.mp (List.mem_map_of_mem he))
  obtain ⟨hmem, -⟩ := List.mem_filter.mp hf
  have hfile : StaticTree.file ⟨templates, hwell⟩ (logicalPath f.1) = some f.2 :=
    StaticTree.file_eq_some_iff.mpr (List.mem_map_of_mem hmem)
  have hne : f.1 ≠ [] := by
    obtain ⟨first, -, tail, htail⟩ := Directory.exists_name_of_mem_files hmem
    rw [htail]
    exact List.cons_ne_nil _ _
  have hnode : templates.node (components (logicalPath f.1)) = some (.file f.2) := by
    rw [components_logicalPath hne fun name hname =>
      (Directory.validName_of_mem_files hwell hmem name hname).2.1]
    exact (Directory.mem_files_iff (sound_of_readDir hdir)).mp hmem
  rw [← hpath]
  exact FileSystem.isFile_iff.mpr ⟨f.2, FileSystem.stat_joinPath hdir
    (StaticTree.relative_of_file hfile) (StaticTree.ne_empty_of_file hfile) hnode⟩

/-- A story has a name without slashes, and its fixture is on the disk. -/
theorem StoriesOf.fixture (h : StoriesOf fs dir stories) (hstory : story ∈ stories) :
    '/' ∉ story.name.toList ∧ joinPath dir (story.name ++ ".toml") = story.file ∧
      fs.pathExists story.file = true := by
  obtain ⟨file, ⟨listing, content, hlisting, hentry⟩, hext, hstem, hfile⟩ :=
    (h.mem_iff story).mp hstory
  obtain ⟨stem, hne, rfl⟩ := extension_toml_iff.mp hext
  obtain rfl : stem = story.name := Option.some.inj ((fileStem_toml hne).symm.trans hstem)
  obtain ⟨hempty, hslash, -⟩ :=
    (sound_of_readDir hlisting).entryName (Directory.names_of_entry hentry)
  have hnode : listing.node (components (story.name ++ ".toml")) = some (.file content) := by
    rw [components_of_slash_notMem hslash, Directory.node_singleton, hentry]
  refine ⟨fun hmem => hslash ?_, hfile, FileSystem.pathExists_iff.mpr ⟨.file content, ?_⟩⟩
  · rw [String.toList_append]
    exact List.mem_append_left _ hmem
  · rw [← hfile]
    exact FileSystem.stat_joinPath hlisting (relative_of_slash_notMem hslash) hempty hnode

end Listed

/-- The path of every listed story opens the fixture that was listed. -/
theorem listed_opens (state : PreviewState) (templates : Directory)
    (entries : List TemplateEntry) (hdir : state.fs.readDir state.templatesDir = .ok templates)
    (hnames : templates.NoBackslashes)
    (hlisted : discover state.fs state.templatesDir state.fixturesDir = .ok entries) :
    ∀ e ∈ entries, ∀ story ∈ e.stories,
      Opens state (storyPath e.templatePath story.name) e.templatePath story := by
  intro e he story hstory
  have hdiscovered := discovered_of_ok hdir hnames hlisted
  obtain ⟨hslash, hjoined, hexists⟩ := (hdiscovered.stories e he).fixture hstory
  have hfile : fixtureFile state.fixturesDir e.templatePath story.name = story.file := hjoined
  have hsplit : splitLastSegment (storyPath e.templatePath story.name) =
      some (e.templatePath, story.name) := splitLastSegment_eq_some_iff.mpr ⟨rfl, hslash⟩
  have htemplate := hdiscovered.isFile he hdir (wellFormed_of_readDir hdir hnames)
  refine ⟨hsplit, htemplate, by rwa [hfile], hfile, fun henabled q nonce => ?_⟩
  have hfound : state.Found (storyPath e.templatePath story.name) e.templatePath story.name :=
    ⟨henabled, hsplit, htemplate, by rwa [hfile]⟩
  dsimp only
  rw [render_found hfound]
  have hanswer := (run_of_obeys (renderFixture_answers state e.templatePath story.name q nonce)).1
  refine ⟨mt answer_eq_notFound_iff.mp hanswer, ?_⟩
  rw [← hfile]
  rfl

/-! ### The page of the index -/

/-- How a browser reads the character references in an attribute, as the standard has it.
A reference begins with an ampersand, stands for less than it is long, and no slash is
in it. -/
structure References where
  read : List Char → Option (List Char × Nat)
  ampersand : ∀ {c : Char}, c ≠ '&' → ∀ cs, read (c :: cs) = none
  nil : read [] = none
  longer : ∀ {c cs d n}, read (c :: cs) = some (d, n) → d.length ≤ n ∧ n ≤ cs.length
  slash : ∀ cs rest rest', read (cs ++ '/' :: rest) = read (cs ++ '/' :: rest')
  inside : ∀ {c cs rest d n}, read (c :: cs ++ '/' :: rest) = some (d, n) → n ≤ cs.length
  escaped : ∀ {c : Char}, Pages.htmlEscape c ≠ [c] → ∀ rest,
    read (Pages.htmlEscape c ++ rest) = some ([c], (Pages.htmlEscape c).length - 1)

def References.reader (references : References) : Coded.Reader Char Char :=
  ⟨references.read, fun c => [c]⟩

/-- The value of a quoted attribute, from the text behind the quote. -/
def References.attribute (references : References) (source : List Char) : List Char :=
  references.reader.decode (source.takeWhile fun c => c != '"')

def renderPrefix : String := "/__preview/render/"

def htmlEscaped (value : String) : List Char := value.toList.flatMap Pages.htmlEscape

/-- What `_preview_index.html` writes into `href` for a story: the path of the template is
marked as safe, and the values are escaped. -/
def hrefSource (templatePath story locale tz : String) : List Char :=
  renderPrefix.toList ++ templatePath.toList ++ '/' :: (htmlEscaped story ++
    "?locale=".toList ++ htmlEscaped locale ++ "&tz=".toList ++ htmlEscaped tz)

/-- What `/render/*path`, nested below `/__preview`, takes from the path of a request. -/
def routeParam (sent : String) : Option String :=
  if startsWith sent renderPrefix.toList then
    let rest := sent.toList.drop renderPrefix.length
    if rest = [] then none else String.fromUTF8? ⟨(percentDecode rest).toArray⟩
  else none

/-- The path for which the handler is called when the link is followed. -/
def References.follow (references : References) (source : List Char) : Option String :=
  routeParam (sentPath (references.attribute source))

/-- The browser reads the text as text, whatever elements hold. -/
def ReadAsText (text : String) : Prop :=
  ∀ contentOf, Html.run contentOf .data (text.toList.map .char) =
    some (.data, text.toList.map fun c => Html.Token.text (η := Empty) (.char c))

/-- The link that is written for a story opens it. -/
def LinkOpens (references : References) (state : PreviewState) (templatePath : String)
    (story : Story) : Prop :=
  ∀ locale tz, ∃ path,
    references.follow (hrefSource templatePath story.name locale tz) = some path ∧
      Opens state path templatePath story

/-- The item of a template in the index is read as it is written: it names the template,
and links to each of its stories. -/
structure ItemOpens (references : References) (state : PreviewState) (e : TemplateEntry) :
    Prop where
  shown : ReadAsText e.templatePath
  listed : ∀ story ∈ e.stories,
    Opens state (storyPath e.templatePath story.name) e.templatePath story
  linked : ∀ story ∈ e.stories, LinkOpens references state e.templatePath story

/-! ### Names that come through -/

/-- Nothing in the path of a story means something else to the browser or to the router. -/
structure Linkable (references : References) (templatePath story : String) : Prop where
  quote : '"' ∉ templatePath.toList
  references : references.reader.Free (templatePath.toList ++ ['/'])
  kept : ∀ c ∈ (storyPath templatePath story).toList,
    isDropped c = false ∧ endsPath c = false ∧ c ≠ '\\'
  dots : ∀ segment ∈ split (storyPath templatePath story).toList '/',
    isDoubleDot segment = false ∧ isSingleDot segment = false
  escapes : escapes.Free (storyPath templatePath story).toList

section Follow
variable {references : References} {templatePath story locale tz : String}

theorem References.shrinks (references : References) :
    references.reader.Shrinks fun _ => true where
  plain _ := rfl
  code hread := by
    rw [List.countP_true]
    exact references.longer hread
  nil := references.nil

theorem References.length_decode_le (references : References) (cs : List Char) :
    (references.reader.decode cs).length ≤ cs.length := by
  have hcount := Coded.Reader.countP_decode_le references.shrinks cs
  rwa [List.countP_true] at hcount

/-- What stands before a slash is read without what follows: it gets shorter, or there is
no reference in it. -/
theorem References.exists_decodeFrom (references : References) {cs : List Char} {n : Nat}
    (hn : n ≤ cs.length) : ∃ read : List Char, read.length ≤ cs.length - n ∧
      (n = 0 → references.reader.Free (cs ++ ['/']) ∧ read = cs ∨ read.length < cs.length) ∧
      ∀ rest, references.reader.decodeFrom n (cs ++ '/' :: rest) =
        read ++ '/' :: references.reader.decode rest := by
  induction cs generalizing n with
  | nil =>
      obtain rfl := Nat.le_zero.mp hn
      have hslash : ∀ rest, references.read ('/' :: rest) = none :=
        references.ampersand (by decide)
      refine ⟨[], Nat.zero_le _, fun _ => Or.inl ⟨fun tail htail => ?_, rfl⟩, fun rest => ?_⟩
      · rcases List.suffix_cons_iff.mp htail with rfl | htail
        · exact hslash []
        · rw [List.suffix_nil.mp htail]
          exact references.nil
      · exact Coded.Reader.decode_cons_of_none (r := references.reader) (hslash rest)
  | cons c cs ih =>
      cases n with
      | succ n =>
          obtain ⟨read, hlength, -, hread⟩ := ih (Nat.le_of_succ_le_succ hn)
          exact ⟨read, by simpa using hlength, fun h => absurd h n.succ_ne_zero, hread⟩
      | zero =>
          have hsame : ∀ rest, references.reader.read (c :: (cs ++ '/' :: rest)) =
              references.read (c :: cs ++ ['/']) := fun rest => references.slash (c :: cs) rest []
          cases hcode : references.read (c :: cs ++ ['/']) with
          | some code =>
              obtain ⟨d, k⟩ := code
              obtain ⟨hlonger, -⟩ := references.longer hcode
              have hinside := references.inside hcode
              obtain ⟨read, hlength, -, hread⟩ := ih hinside
              have hshort : (d ++ read).length ≤ cs.length := by
                rw [List.length_append]
                omega
              refine ⟨d ++ read, hshort.trans (Nat.le_succ _),
                fun _ => Or.inr (Nat.lt_succ_of_le hshort), fun rest => ?_⟩
              rw [List.cons_append, Coded.Reader.decodeFrom, hsame, hcode]
              exact (congrArg (d ++ ·) (hread rest)).trans (List.append_assoc ..).symm
          | none =>
              obtain ⟨read, hlength, hexact, hread⟩ := ih (Nat.zero_le _)
              refine ⟨c :: read, Nat.succ_le_succ hlength, fun _ => ?_, fun rest => ?_⟩
              · rcases hexact rfl with ⟨hfree, heq⟩ | hlt
                · refine Or.inl ⟨fun tail htail => ?_, congrArg (c :: ·) heq⟩
                  rcases List.suffix_cons_iff.mp htail with rfl | htail
                  · exact hcode
                  · exact hfree tail htail
                · exact Or.inr (Nat.succ_lt_succ hlt)
              · rw [List.cons_append, Coded.Reader.decodeFrom, hsame, hcode]
                exact congrArg (c :: ·) (hread rest)

/-- What was escaped is read as it was. -/
theorem References.decode_escaped (references : References) (value : String)
    (rest : List Char) : references.reader.decode (htmlEscaped value ++ rest) =
      value.toList ++ references.reader.decode rest := by
  rw [htmlEscaped]
  induction value.toList with
  | nil => rfl
  | cons c cs ih =>
      rw [List.flatMap_cons, List.append_assoc, List.cons_append, ← ih]
      rcases Pages.htmlEscape_encodes c with hmem | ⟨hsame, hne⟩
      · obtain ⟨code, hcode⟩ := List.head?_eq_some_iff.mp
          (Pages.references_unambiguous.ampersand _ hmem)
        dsimp only at hcode
        have hescaped : Pages.htmlEscape c ≠ [c] := by
          intro hsame
          have hc : '&' = c := (List.cons.inj (hcode.symm.trans hsame)).1
          rw [← hc] at hsame
          exact absurd hsame (by decide)
        have hread := references.escaped hescaped (cs.flatMap Pages.htmlEscape ++ rest)
        rw [hcode] at hread ⊢
        exact Coded.Reader.decode_code (r := references.reader) _ hread
      · rw [hsame]
        exact Coded.Reader.decode_cons_of_none (r := references.reader)
          (references.ampersand hne _)

theorem quote_notMem_htmlEscaped (value : String) : '"' ∉ htmlEscaped value := by
  intro hquote
  obtain ⟨c, -, hc⟩ := List.mem_flatMap.mp hquote
  rcases Pages.htmlEscape_encodes c with hmem | ⟨hsame, -⟩
  · exact (Pages.references_clear _ hmem).2 hc
  · rw [hsame] at hc
    obtain rfl := List.mem_singleton.mp hc
    exact absurd hsame (by decide)

/-- The path of the link of a story, where nothing in it is read otherwise. -/
def hrefPath (templatePath story : String) : List Char :=
  renderPrefix.toList ++ (storyPath templatePath story).toList

theorem toList_storyPath (templatePath story : String) :
    (storyPath templatePath story).toList = templatePath.toList ++ '/' :: story.toList := by
  simp [storyPath]

theorem length_hrefPath (templatePath story : String) : (hrefPath templatePath story).length =
    (renderPrefix.toList ++ templatePath.toList).length + (story.toList.length + 1) := by
  rw [hrefPath, toList_storyPath, ← List.append_assoc, List.length_append, List.length_cons]

/-- Text without ampersands adds no reference in front of another. -/
theorem References.free_append (references : References) {cs rest : List Char} (hcs : '&' ∉ cs)
    (hrest : references.reader.Free rest) : references.reader.Free (cs ++ rest) :=
  hrest.append fun _ hc => references.ampersand (ne_of_mem_of_not_mem hc hcs)

/-- A quote in the path of the template ends the attribute early. -/
theorem References.length_attribute_lt (references : References)
    (hquote : '"' ∈ templatePath.toList) :
    (references.attribute (hrefSource templatePath story locale tz)).length <
      (hrefPath templatePath story).length := by
  have hcut : ((hrefSource templatePath story locale tz).takeWhile fun c => c != '"').length ≤
      (renderPrefix.toList ++ templatePath.toList).length := by
    rw [hrefSource, List.takeWhile_append, if_neg]
    · exact (List.takeWhile_prefix _).length_le
    · intro hwhole
      have hall := List.takeWhile_eq_self_iff.mp
        ((List.takeWhile_prefix _).eq_of_length hwhole) '"' (List.mem_append_right _ hquote)
      cases hall
  have hread := references.length_decode_le
    ((hrefSource templatePath story locale tz).takeWhile fun c => c != '"')
  rw [length_hrefPath, References.attribute]
  omega

/-- Without a quote there, the attribute goes on to its query. -/
theorem takeWhile_hrefSource (story locale tz : String) (hquote : '"' ∉ templatePath.toList) :
    ∃ query,
    (hrefSource templatePath story locale tz).takeWhile (fun c => c != '"') =
      renderPrefix.toList ++ templatePath.toList ++ '/' :: (htmlEscaped story ++ '?' :: query) := by
  have hplain : ∀ c ∈ renderPrefix.toList ++ templatePath.toList ++ '/' :: htmlEscaped story,
      (c != '"') = true := by
    intro c hc
    rw [bne_iff_ne]
    rintro rfl
    have hfront : '"' ∉ renderPrefix.toList := by decide
    have hstory := quote_notMem_htmlEscaped story
    simp [hfront, hquote, hstory] at hc
  have hquery : "?locale=".toList = '?' :: "locale=".toList := rfl
  refine ⟨List.takeWhile (fun c => c != '"')
    ("locale=".toList ++ htmlEscaped locale ++ "&tz=".toList ++ htmlEscaped tz), ?_⟩
  have hshape : hrefSource templatePath story locale tz =
      (renderPrefix.toList ++ templatePath.toList ++ '/' :: htmlEscaped story) ++ '?' ::
        ("locale=".toList ++ htmlEscaped locale ++ "&tz=".toList ++ htmlEscaped tz) := by
    rw [hrefSource, hquery]
    simp only [List.append_assoc, List.cons_append]
  rw [hshape, List.takeWhile_append_of_pos hplain, List.takeWhile_cons_of_pos (by decide)]
  simp only [List.append_assoc, List.cons_append]

/-- Its references, if there are any, make the path of the template shorter. -/
theorem References.attribute_eq (references : References) (story locale tz : String)
    (hquote : '"' ∉ templatePath.toList) :
    ∃ front query, references.attribute (hrefSource templatePath story locale tz) =
        front ++ '/' :: story.toList ++ '?' :: query ∧
      (references.reader.Free (templatePath.toList ++ ['/']) ∧
          front = renderPrefix.toList ++ templatePath.toList ∨
        ¬ references.reader.Free (templatePath.toList ++ ['/']) ∧
          front.length < (renderPrefix.toList ++ templatePath.toList).length) := by
  obtain ⟨query, hquery⟩ := takeWhile_hrefSource story locale tz hquote
  obtain ⟨front, -, hexact, hread⟩ := references.exists_decodeFrom
    (Nat.zero_le (renderPrefix.toList ++ templatePath.toList).length)
  have hquestion : references.reader.decode ('?' :: query) =
      '?' :: references.reader.decode query :=
    Coded.Reader.decode_cons_of_none (r := references.reader)
      (references.ampersand (by decide) _)
  refine ⟨front, references.reader.decode query, ?_, ?_⟩
  · rw [References.attribute, hquery, Coded.Reader.decode, hread, references.decode_escaped,
      hquestion]
    simp only [List.append_assoc, List.cons_append]
  · rcases hexact rfl with ⟨hfree, heq⟩ | hshort
    · refine Or.inl ⟨fun tail htail => hfree tail ?_, heq⟩
      rw [List.append_assoc]
      exact htail.trans (List.suffix_append _ _)
    · refine Or.inr ⟨fun hfree => ?_, hshort⟩
      -- without references the path would be read as it is
      have hwhole :
          references.reader.Free (renderPrefix.toList ++ templatePath.toList ++ ['/']) := by
        rw [List.append_assoc]
        exact references.free_append (by decide) hfree
      have hsame : references.reader.decode
          (renderPrefix.toList ++ templatePath.toList ++ ['/']) = front ++ ['/'] := hread []
      have hplain : references.reader.decode
          (renderPrefix.toList ++ templatePath.toList ++ ['/']) =
            renderPrefix.toList ++ templatePath.toList ++ ['/'] :=
        hwhole.decode_eq.trans (List.flatMap_singleton' _)
      rw [List.append_cancel_right (hsame.symm.trans hplain)] at hshort
      exact absurd hshort (lt_irrefl _)

/-- The value of the attribute of a link is the path of the story with a query, or its path
is shorter. -/
theorem References.attribute_cases (references : References)
    (templatePath story locale tz : String) :
    ('"' ∉ templatePath.toList ∧ references.reader.Free (templatePath.toList ++ ['/']) ∧
      ∃ query, references.attribute (hrefSource templatePath story locale tz) =
        hrefPath templatePath story ++ '?' :: query) ∨
    ¬ ('"' ∉ templatePath.toList ∧ references.reader.Free (templatePath.toList ++ ['/'])) ∧
      (pathPart (references.attribute (hrefSource templatePath story locale tz))).length <
        (hrefPath templatePath story).length := by
  by_cases hquote : '"' ∈ templatePath.toList
  · exact Or.inr ⟨fun h => h.1 hquote,
      (length_pathPart_le _).trans_lt (references.length_attribute_lt hquote)⟩
  · obtain ⟨front, query, hvalue, ⟨hfree, rfl⟩ | ⟨hnot, hshort⟩⟩ :=
      references.attribute_eq story locale tz hquote
    · refine Or.inl ⟨hquote, hfree, query, hvalue.trans ?_⟩
      rw [hrefPath, toList_storyPath]
      simp only [List.append_assoc, List.cons_append]
    · refine Or.inr ⟨fun h => hnot h.2, ?_⟩
      have hcut := (List.takeWhile_prefix (l := (front ++ '/' :: story.toList).filter
        fun c => !isDropped c) fun c => !endsPath c).length_le
      have hfilter := List.length_filter_le (fun c => !isDropped c) (front ++ '/' :: story.toList)
      rw [hvalue, pathPart_query, length_hrefPath]
      rw [List.length_append, List.length_cons] at hfilter
      omega

/-- The router takes the parameter from behind the prefix. -/
theorem routeParam_eq_some_iff {sent path : String} : routeParam sent = some path ↔
    ∃ rest, rest ≠ [] ∧ sent.toList = renderPrefix.toList ++ rest ∧
      asBytes path = percentDecode rest := by
  have hdrop : ∀ rest, (renderPrefix.toList ++ rest).drop renderPrefix.length = rest := by
    intro rest
    rw [← String.length_toList, List.drop_left]
  rw [routeParam, startsWith]
  constructor
  · intro h
    split at h
    · rename_i hfront
      obtain ⟨rest, hrest⟩ := List.isPrefixOf_iff_prefix.mp hfront
      dsimp only at h
      rw [← hrest, hdrop] at h
      split at h
      · cases h
      · rename_i hne
        exact ⟨rest, hne, hrest.symm, fromUTF8?_eq_some_iff.mp h⟩
    · cases h
  · rintro ⟨rest, hne, hsent, hpath⟩
    rw [hsent, if_pos (List.isPrefixOf_iff_prefix.mpr (List.prefix_append _ _))]
    dsimp only
    rw [hdrop, if_neg hne, fromUTF8?_eq_some_iff, hpath]

theorem percentDecode_of_routeParam {sent path : String} (h : routeParam sent = some path) :
    percentDecode sent.toList = asBytes (renderPrefix ++ path) := by
  obtain ⟨rest, -, hsent, hpath⟩ := routeParam_eq_some_iff.mp h
  rw [hsent, percentDecode_append (by decide), ← hpath, asBytes, asBytes, String.toList_append,
    List.flatMap_append]

/-- A path without escapes of its own is read back from its escaping. -/
theorem routeParam_escaped {sent path : String} (hne : path.toList ≠ [])
    (hsent : sent.toList = renderPrefix.toList ++ path.toList.flatMap escapeChar)
    (hescapes : escapes.Free path.toList) : routeParam sent = some path := by
  refine routeParam_eq_some_iff.mpr ⟨path.toList.flatMap escapeChar, fun hnil => ?_, hsent, ?_⟩
  · obtain ⟨c, cs, hpath⟩ := List.exists_cons_of_ne_nil hne
    rw [hpath, List.flatMap_cons, List.append_eq_nil_iff] at hnil
    exact escapeChar_ne_nil c hnil.1
  · rw [percentDecode_escaped, percentDecode, hescapes.decode_eq]
    rfl

theorem split_hrefPath (templatePath story : String) :
    (split (hrefPath templatePath story) '/').tail =
    ["__preview".toList, "render".toList] ++ split (storyPath templatePath story).toList '/' := by
  have hshape : hrefPath templatePath story =
      "/__preview/render".toList ++ '/' :: (storyPath templatePath story).toList := rfl
  have hfront : "/__preview/render".toList.splitOn '/' =
      [[], "__preview".toList, "render".toList] := by decide
  rw [hshape, split, List.splitOn_append_cons_self, hfront]
  rfl

/-- The path of a link is unchanged where that of the story is. -/
theorem unchanged_hrefPath_iff (templatePath story : String) :
    Unchanged (hrefPath templatePath story) ↔
      (∀ c ∈ (storyPath templatePath story).toList,
        isDropped c = false ∧ endsPath c = false ∧ c ≠ '\\') ∧
      (∀ segment ∈ split (storyPath templatePath story).toList '/',
        isDoubleDot segment = false ∧ isSingleDot segment = false) ∧
      escapes.Free (storyPath templatePath story).toList := by
  have hkept : ∀ c ∈ renderPrefix.toList, isDropped c = false ∧ endsPath c = false ∧ c ≠ '\\' := by
    simp [renderPrefix, isDropped, endsPath]
  have hdots : ∀ segment ∈ ["__preview".toList, "render".toList],
      isDoubleDot segment = false ∧ isSingleDot segment = false := by decide
  constructor
  · rintro ⟨hall, hsegments, hescapes⟩
    refine ⟨fun c hc => hall c (List.mem_append_right _ hc), fun segment hsegment =>
      hsegments segment ?_, fun tail htail => hescapes tail (htail.trans (List.suffix_append _ _))⟩
    rw [split_hrefPath]
    exact List.mem_append_right _ hsegment
  · rintro ⟨hall, hsegments, hescapes⟩
    refine ⟨List.forall_mem_append.mpr ⟨hkept, hall⟩, ?_, free_append (by decide) hescapes⟩
    rw [DotFree, split_hrefPath]
    exact List.forall_mem_append.mpr ⟨hdots, hsegments⟩

/-- A link leads to the path of its story only if nothing in the path means something else
on the way. -/
theorem linkable_of_follow (h : references.follow (hrefSource templatePath story locale tz) =
    some (storyPath templatePath story)) : Linkable references templatePath story := by
  have hsent := percentDecode_of_routeParam h
  have hlength := length_le_of_sent hsent
  rw [String.toList_append, ← hrefPath] at hlength
  rcases references.attribute_cases templatePath story locale tz with
    ⟨hquote, hfree, query, hvalue⟩ | ⟨-, hshort⟩
  · have hpath : renderPrefix ++ storyPath templatePath story =
        String.ofList (hrefPath templatePath story) := by
      rw [← String.toList_inj, String.toList_append, String.toList_ofList, hrefPath]
    rw [hvalue, hpath] at hsent
    obtain ⟨hkept, hdots, hescapes⟩ :=
      (unchanged_hrefPath_iff templatePath story).mp (unchanged_of_sent_query hsent)
    exact ⟨hquote, hfree, hkept, hdots, hescapes⟩
  · omega

theorem Linkable.follow (h : Linkable references templatePath story) (locale tz : String) :
    references.follow (hrefSource templatePath story locale tz) =
      some (storyPath templatePath story) := by
  rcases references.attribute_cases templatePath story locale tz with
    ⟨-, -, query, hvalue⟩ | ⟨hnot, -⟩
  · have hsent := toList_sentPath ((unchanged_hrefPath_iff templatePath story).mpr
      ⟨h.kept, h.dots, h.escapes⟩) query
    have hfront : (hrefPath templatePath story).flatMap escapeChar =
        renderPrefix.toList ++ (storyPath templatePath story).toList.flatMap escapeChar := by
      rw [hrefPath, List.flatMap_append]
      rfl
    refine routeParam_escaped ?_ ?_ h.escapes
    · rw [toList_storyPath]
      exact List.append_ne_nil_of_right_ne_nil _ (List.cons_ne_nil _ _)
    · rw [hvalue]
      exact hsent.trans hfront
  · exact absurd ⟨h.quote, h.references⟩ hnot

end Follow

/-- What the browser reads as the name of a template is its name. -/
theorem readAsText_iff (text : String) : ReadAsText text ↔ Html.TagFree text.toList :=
  ⟨fun h => (Html.run_data_text_iff _).mp (h fun _ => .markup),
    fun h _ => (Html.run_data_text_iff _).mpr h⟩

section Index
variable {references : References} {state : PreviewState} {e : TemplateEntry}

/-- A link opens its story exactly when nothing in the path means something else. -/
theorem linkOpens_iff {templatePath : String} {story : Story}
    (hlisted : Opens state (storyPath templatePath story.name) templatePath story) :
    LinkOpens references state templatePath story ↔
      Linkable references templatePath story.name := by
  constructor
  · intro h
    obtain ⟨path, hpath, hopens⟩ := h "en" "UTC"
    obtain ⟨rfl, -⟩ := splitLastSegment_eq_some_iff.mp hopens.split
    exact linkable_of_follow hpath
  · exact fun h locale tz => ⟨_, h.follow locale tz, hlisted⟩

/-- The item of a template does what it is for exactly when its names come through. -/
theorem itemOpens_iff (hlisted : ∀ story ∈ e.stories,
    Opens state (storyPath e.templatePath story.name) e.templatePath story) :
    ItemOpens references state e ↔ Html.TagFree e.templatePath.toList ∧
      ∀ story ∈ e.stories, Linkable references e.templatePath story.name := by
  rw [← readAsText_iff]
  constructor
  · intro h
    exact ⟨h.shown, fun story hstory =>
      (linkOpens_iff (hlisted story hstory)).mp (h.linked story hstory)⟩
  · rintro ⟨hshown, hlinkable⟩
    exact ⟨hshown, hlisted, fun story hstory =>
      (linkOpens_iff (hlisted story hstory)).mpr (hlinkable story hstory)⟩

end Index

section Table
variable {cs : List Char} {d : Char} {n : Nat}

theorem exists_of_reference (h : Html.reference Pages.references cs = some (d, n)) :
    ∃ e ∈ Pages.references, e.1 <+: cs ∧ d = e.2 ∧ n = e.1.length - 1 := by
  obtain ⟨e, he, hread⟩ := List.exists_of_findSome?_eq_some h
  split at hread
  · rename_i hfront
    cases hread
    exact ⟨e, he, List.isPrefixOf_iff_prefix.mp hfront, rfl, rfl⟩
  · cases hread

/-- A text without slashes is in front of a slash or reaches it. -/
theorem prefix_slash_iff {e : List Char} (he : '/' ∉ e) (rest : List Char) :
    e <+: cs ++ '/' :: rest ↔ e <+: cs := by
  refine ⟨fun h => ?_, fun h => h.trans (List.prefix_append _ _)⟩
  rcases List.prefix_or_prefix_of_prefix h (List.prefix_append cs _) with hle | hle
  · exact hle
  · obtain ⟨tail, rfl⟩ := hle
    cases tail with
    | nil => rw [List.append_nil]
    | cons c tail =>
        have hc := (List.prefix_append_right_inj cs).mp h
        obtain ⟨rfl, -⟩ := List.cons_prefix_cons.mp hc
        exact absurd (List.mem_append_right _ (List.mem_cons_self ..)) he

/-- What follows a slash has no part in a reference. -/
theorem reference_slash {table : List (List Char × Char)} (h : ∀ e ∈ table, '/' ∉ e.1)
    (cs rest rest' : List Char) :
    Html.reference table (cs ++ '/' :: rest) = Html.reference table (cs ++ '/' :: rest') := by
  induction table with
  | nil => rfl
  | cons e table ih =>
      obtain ⟨he, htable⟩ := List.forall_mem_cons.mp h
      have hsame : e.1.isPrefixOf (cs ++ '/' :: rest) = e.1.isPrefixOf (cs ++ '/' :: rest') := by
        rw [Bool.eq_iff_iff, List.isPrefixOf_iff_prefix, List.isPrefixOf_iff_prefix,
          prefix_slash_iff he, prefix_slash_iff he]
      rw [Html.reference, Html.reference, List.findSome?_cons, List.findSome?_cons, hsame]
      split
      · rfl
      · exact ih htable

end Table

/-- A browser that knows the references `minijinja` writes, and no others. -/
def writtenReferences : References where
  read cs := (Html.reference Pages.references cs).map fun found => ([found.1], found.2)
  ampersand hc cs :=
    congrArg _ (Html.reference_of_ne Pages.references_unambiguous hc cs)
  nil := rfl
  longer := by
    intro c cs d n h
    obtain ⟨⟨d', n'⟩, hread, heq⟩ := Option.map_eq_some_iff.mp h
    cases heq
    obtain ⟨e, he, hfront, -, rfl⟩ := exists_of_reference hread
    have hlong : ∀ e ∈ Pages.references, 2 ≤ e.1.length := by decide
    have hlength := hfront.length_le
    have hown := hlong e he
    rw [List.length_cons] at hlength
    exact ⟨by rw [List.length_singleton]; omega, by omega⟩
  slash cs rest rest' := congrArg _ (reference_slash (by decide) cs rest rest')
  inside := by
    intro c cs rest d n h
    obtain ⟨⟨d', n'⟩, hread, heq⟩ := Option.map_eq_some_iff.mp h
    cases heq
    obtain ⟨e, he, hfront, -, rfl⟩ := exists_of_reference hread
    have hslash : ∀ e ∈ Pages.references, '/' ∉ e.1 := by decide
    have hlength := ((prefix_slash_iff (hslash e he) rest).mp hfront).length_le
    rw [List.length_cons] at hlength
    omega
  escaped := by
    intro c hc rest
    have hmem := (Pages.htmlEscape_encodes c).resolve_right fun h => hc h.1
    rw [Html.reference_of_mem Pages.references_unambiguous hmem]
    rfl

/-- A page and another one whose name is an escaped spelling of the first -/
def percentTemplates : Directory := .file "%61.html" [] (.file "a.html" [] .empty)

/-- The pages, each with a fixture -/
def percentDisk : FileSystem where
  root :=
    .subdirectory "srv"
      (.subdirectory "templates" percentTemplates
        (.subdirectory "fixtures"
          (.subdirectory "%61" (.file "default.toml" [] .empty)
            (.subdirectory "a" (.file "default.toml" [] .empty) .empty))
          .empty))
      .empty
  sound := by decide
  cwd := []

example : writtenReferences.follow (hrefSource "%61.html" "default" "en" "UTC") =
    some "a.html/default" := by decide +kernel

end TodoRust.Preview
