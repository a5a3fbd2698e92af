import TodoRust.Preview.Routes

/-!
# Where a preview reads

The loader keeps below the directory of templates, and it refuses names that the check
on the disk accepts. The fixture is below its directory if the template is named by a
relative path that the loader accepts.
-/

namespace TodoRust.Preview
open Lib App Rust StaticFiles

/-! ### What a request opens -/

/-- The page of a request, or what went wrong. -/
def FileSystem.outcome {α : Type} (fs : FileSystem) (page : Handling α) : Except Failure α :=
  (page.run.run fs.act (fun _ => ()) ()).1

/-- The answer to a request. -/
def FileSystem.answer {α : Type} (fs : FileSystem) (page : Handling α) : Except AppError α :=
  (fs.outcome page).mapError Failure.toAppError

/-- The files opened for a request. -/
def FileSystem.opened {α : Type} (fs : FileSystem) (page : Handling α) : List Access :=
  page.run.performed fs.act (fun _ => ()) ()

/-- The loader has an answer other than that there is no such template. -/
def FileSystem.Knows (fs : FileSystem) (dir name : String) : Prop :=
  (∀ segment ∈ components name, PlainSegment segment) ∧
    fs.readToString (pathBelow dir name) ≠ .error .notFound

namespace PreviewState
variable (state : PreviewState)

/-- Fixtures are opened below their directory, and templates below theirs. -/
def Below : Access → Prop
  | .fixture path => state.fs.Below state.fixturesDir path
  | .template path => state.fs.Below state.templatesDir path

/-- A request is answered with 404 or reads in its directories only, and it does not fail
because the loader does not know the template. -/
def Confined (path : String) (q : PreviewQuery) (nonce : String) : Prop :=
  (state.fs.answer (render state path q nonce) = .error .notFound ∨
    ∀ e ∈ state.fs.opened (render state path q nonce), state.Below e) ∧
  ∀ templatePath story, splitLastSegment path = some (templatePath, story) →
    state.fs.outcome (render state path q nonce) ≠
      .error (.minijinja (.templateNotFound templatePath))

/-- Every check of the handler is passed. -/
structure Found (path templatePath story : String) : Prop where
  enabled : state.previewEnabled = true
  split : splitLastSegment path = some (templatePath, story)
  template : state.fs.isFile (joinPath state.templatesDir templatePath) = true
  fixture : state.fs.pathExists (fixtureFile state.fixturesDir templatePath story) = true

/-- A fixture can be read. -/
def FixtureLoads (path : String) : Prop :=
  ∃ raw file, state.fs.readToString path = .ok raw ∧ state.fromStr raw = .ok file

/-- What passes the checks has a fixture whose path goes below the directory of fixtures.
If this fixture can be read, the loader accepts each segment of the template's name, and
finds it below the directory of templates also if it begins with a slash. -/
def Servable (path : String) : Prop :=
  ∀ templatePath story, state.Found path templatePath story →
    (∃ top, state.fs.base state.fixturesDir = .ok top ∧
      top <+: state.fs.lexical (fixtureFile state.fixturesDir templatePath story)) ∧
    (state.FixtureLoads (fixtureFile state.fixturesDir templatePath story) →
      (∀ segment ∈ components templatePath, PlainSegment segment) ∧
      (startsWith templatePath ['/'] = true →
        state.fs.readToString (pathBelow state.templatesDir templatePath) ≠ .error .notFound))

end PreviewState

/-! ### Segments -/

section Segments
variable {fs : FileSystem} {dir name path : String} {segments : List String} {pos : Position}

theorem PlainSegment.ne_up (h : PlainSegment path) : path ≠ ".." := by
  rintro rfl
  exact absurd h.1 (by decide)

theorem base_foldl_joinPath (fs : FileSystem) (dir : String)
    (h : ∀ segment ∈ segments, '/' ∉ segment.toList) :
    fs.base (segments.foldl joinPath dir) =
      fs.base dir >>= fun pos => segments.foldlM fs.step pos := by
  induction segments generalizing dir with
  | nil => exact (bind_pure _).symm
  | cons segment rest ih =>
      obtain ⟨hslash, hrest⟩ := List.forall_mem_cons.mp h
      rw [List.foldl_cons, ih _ hrest,
        FileSystem.base_joinPath fs dir (relative_of_slash_notMem hslash),
        components_of_slash_notMem hslash, bind_assoc]
      simp only [List.foldlM_cons, List.foldlM_nil, bind_pure]

theorem resolve_eq_ok (h : fs.resolve path = .ok pos) : fs.base path = .ok pos := by
  rw [FileSystem.resolve] at h
  split at h
  · cases h
  · exact h

/-- Without a way up, a path stays below. -/
theorem prefix_of_foldlM {top : Except IoError Position}
    (hup : ∀ segment ∈ segments, segment ≠ "..")
    (h : (top >>= fun pos => segments.foldlM fs.step pos) = .ok pos) :
    ∃ start, top = .ok start ∧ start <+: pos := by
  cases top with
  | error e => cases h
  | ok start =>
      refine ⟨start, rfl, ?_⟩
      rw [← FileSystem.foldlM_step_eq_ok h]
      exact FileSystem.foldl_lexicalStep_extends hup

/-- Whatever the loader opens is below its directory. -/
theorem pathBelow_below (h : ∀ segment ∈ components name, PlainSegment segment) :
    fs.Below dir (pathBelow dir name) := by
  intro pos hpos
  have hbase := resolve_eq_ok hpos
  rw [pathBelow,
    base_foldl_joinPath fs dir fun segment hsegment => slash_notMem_of_mem_components hsegment]
    at hbase
  exact prefix_of_foldlM (fun segment hsegment => (h segment hsegment).ne_up) hbase

end Segments

/-! ### The fixture -/

/-- No segment is hidden. -/
def NoneHidden (name : List Char) : Prop := ∀ segment ∈ split name '/', ¬ ['.'] <+: segment

theorem noneHidden_of_append_html {t : List Char} (h : NoneHidden (t ++ ".html".toList)) :
    NoneHidden t := by
  -- only the last segment differs, and an empty one would have been hidden
  have hlast (segment : List Char) (hnot : ¬ ['.'] <+: segment ++ ".html".toList) :
      ¬ ['.'] <+: segment := by
    intro hinit
    exact hnot (hinit.trans (List.prefix_append segment _))
  by_cases hslash : '/' ∈ t
  · obtain ⟨front, back, rfl, hback⟩ := exists_split_last hslash
    have hback' : '/' ∉ back ++ ".html".toList := by
      rw [List.mem_append]
      exact fun hmem => hmem.elim hback (by decide)
    rw [NoneHidden, split, List.append_assoc, List.cons_append, List.splitOn_append_cons_self,
      List.splitOn_eq_singleton hback'] at h
    rw [NoneHidden, split, List.splitOn_append_cons_self, List.splitOn_eq_singleton hback]
    intro segment hsegment
    rcases List.mem_append.mp hsegment with hfront | hend
    · exact h segment (List.mem_append_left _ hfront)
    · rw [List.mem_singleton.mp hend]
      exact hlast back (h _ (List.mem_append_right _ List.mem_cons_self))
  · have hslash' : '/' ∉ t ++ ".html".toList := by
      rw [List.mem_append]
      exact fun hmem => hmem.elim hslash (by decide)
    rw [NoneHidden, split, List.splitOn_eq_singleton hslash', List.forall_mem_singleton] at h
    rw [NoneHidden, split, List.splitOn_eq_singleton hslash, List.forall_mem_singleton]
    exact hlast t h

/-- The fixture of a relative name without hidden segments is below its directory. -/
theorem fixtureFile_below (fs : FileSystem) (dir : String) {name story : String}
    (hname : ∀ segment ∈ components name, PlainSegment segment)
    (hrelative : startsWith name ['/'] = false) (hstory : '/' ∉ story.toList) :
    fs.Below dir (fixtureFile dir name story) := by
  have hfile : '/' ∉ (story ++ ".toml").toList := by
    rw [String.toList_append, List.mem_append]
    exact fun hmem => hmem.elim hstory (by decide)
  have hfileUp : story ++ ".toml" ≠ ".." := by
    intro h
    have hlength := congrArg (fun s : String => s.toList.length) h
    simp at hlength
  -- what holds of the name holds of the name without its ends
  have hhidden : NoneHidden (trimEndMatches name ".html".toList).toList := by
    refine trimEndMatches_keeps (fun t => noneHidden_of_append_html) fun segment hsegment => ?_
    have hplain := startsWith_eq_false_iff.mp (hname _ (List.mem_map_of_mem hsegment)).1
    rwa [String.toList_ofList] at hplain
  have htrimmed : startsWith (trimEndMatches name ".html".toList) ['/'] = false := by
    refine startsWith_eq_false_iff.mpr (trimEndMatches_keeps (motive := fun t => ¬ ['/'] <+: t)
      (fun t ht hinit => ht (hinit.trans (List.prefix_append t _))) ?_)
    exact startsWith_eq_false_iff.mp hrelative
  intro pos hpos
  have hbase := resolve_eq_ok hpos
  rw [fixtureFile, FileSystem.base_joinPath fs _ (relative_of_slash_notMem hfile),
    FileSystem.base_joinPath fs dir htrimmed, bind_assoc, components_of_slash_notMem hfile] at hbase
  simp only [← List.foldlM_append] at hbase
  refine prefix_of_foldlM (fun segment hsegment => ?_) hbase
  rcases List.mem_append.mp hsegment with hinner | hlast
  · rintro rfl
    obtain ⟨chars, hchars, hup⟩ := List.mem_map.mp hinner
    refine hhidden chars hchars ?_
    rw [← String.toList_ofList (l := chars), hup]
    decide
  · exact List.mem_singleton.mp hlast ▸ hfileUp

/-! ### Runs -/

/-- Reading from a file system what is allowed to be read. -/
def reads (fs : FileSystem) (allowed : Access → Prop) : Monitor Access Access.Reply Unit where
  allows _ e := allowed e
  answers _ e reply := reply = fs.readToString e.path
  next _ _ _ := ()

section Runs
variable {fs : FileSystem} {allowed : Access → Prop} {loader : PathLoader} {dir name : String}

theorem answer_eq_notFound_iff {α : Type} {page : Handling α} :
    fs.answer page = .error .notFound ↔ fs.outcome page = .error (.app .notFound) := by
  unfold FileSystem.answer
  cases fs.outcome page with
  | ok a => exact iff_of_false nofun nofun
  | error failure =>
      cases failure with
      | app e => simp [Except.mapError, Failure.toAppError]
      | minijinja e => exact iff_of_false nofun nofun

/-- What a program obeys holds of the outcome and of the files that are opened. -/
theorem run_of_obeys {α : Type} {page : Handling α} {post : Except Failure α → Prop}
    (h : Prog.Obeys (reads fs allowed) (fun done _ => post done) () page.run) :
    post (fs.outcome page) ∧ ∀ e ∈ fs.opened page, allowed e := by
  have hsound (c : Unit) (e : Access) (m s : Unit) (_ : (reads fs allowed).allows m e) :
      (reads fs allowed).answers m e (fs.act c e s).1 := rfl
  constructor
  · obtain ⟨_, hpost⟩ := Prog.Obeys.result hsound h (fun _ => ()) ()
    exact hpost
  · intro e he
    obtain ⟨_, hallowed⟩ := Prog.Obeys.performed hsound h (fun _ => ()) () e he
    exact hallowed

theorem ofReply_eq_unknown_iff {reply : Except IoError String} :
    Loaded.ofReply reply = .unknown ↔ reply = .error .notFound := by
  cases reply with
  | ok text => simp [Loaded.ofReply]
  | error e =>
      cases e with
      | notFound => simp [Loaded.ofReply]
      | notADirectory => simp [Loaded.ofReply]
      | isADirectory => simp [Loaded.ofReply]
      | invalidData => simp [Loaded.ofReply]
      | other message => simp [Loaded.ofReply]

section Loading
variable (hloader : loader.Documented)
  (htemplates : ∀ path, fs.Below dir path → allowed (.template path))
include hloader htemplates

theorem loader_obeys (name : String) :
    Prog.Obeys (reads fs allowed) (fun loaded _ => loaded = .unknown ↔ ¬ fs.Knows dir name) ()
      (loader dir name) := by
  by_cases hplain : ∀ segment ∈ components name, PlainSegment segment
  · rw [hloader.reads dir name hplain]
    refine ⟨htemplates _ (pathBelow_below hplain), fun reply hreply => ?_⟩
    obtain rfl : reply = fs.readToString (pathBelow dir name) := hreply
    refine ofReply_eq_unknown_iff.trans ⟨fun hmissing hknows => hknows.2 hmissing, fun hnot => ?_⟩
    by_contra hread
    exact hnot ⟨hplain, hread⟩
  · rw [hloader.refuses dir name hplain]
    exact iff_of_true rfl fun hknows => hplain hknows.1

theorem loadNames_obeys {α : Type} (p : Prog String (fun _ => Loaded) α) :
    Prog.Obeys (reads fs allowed) (fun _ _ => True) () (loadNames (loader dir) p) := by
  induction p with
  | ret a => trivial
  | op name k ih => exact (loader_obeys hloader htemplates name).bind fun loaded _ _ => ih loaded

end Loading

/-! ### The page -/

theorem loadFixture_obeys {state : PreviewState} {path : String}
    (hfixture : allowed (.fixture path)) :
    Prog.Obeys (reads state.fs allowed)
      (fun loaded _ => (∃ fixture, loaded = .ok fixture) ↔ state.FixtureLoads path) ()
      (loadFixture state.fromStr path) := by
  refine ⟨hfixture, fun reply hreply => ?_⟩
  obtain rfl : reply = state.fs.readToString path := hreply
  rw [PreviewState.FixtureLoads]
  cases hread : state.fs.readToString path with
  | error e => exact iff_of_false nofun nofun
  | ok raw =>
      cases hparse : state.fromStr raw with
      | error e =>
          refine iff_of_false ?_ ?_
          · rintro ⟨fixture, h⟩
            simp only [hparse] at h
            cases h
          · rintro ⟨_, file, h, hfile⟩
            cases h
            rw [hparse] at hfile
            cases hfile
      | ok file =>
          refine iff_of_true ?_ ⟨raw, file, rfl, hparse⟩
          simp only [hparse]
          exact ⟨_, rfl⟩

section Page
variable {state : PreviewState} (hloader : state.loader.Documented)
  (htemplates : ∀ path, state.fs.Below state.templatesDir path → allowed (.template path))
include hloader htemplates

/-- A rendering fails with an unknown template exactly if the loader does not know the one
to be rendered. -/
theorem renderTemplate_obeys (name : String) (ctx : Json) :
    Prog.Obeys (reads state.fs allowed)
      (fun done _ => ∀ other, done = .error (.minijinja (.templateNotFound other)) ↔
        other = name ∧ ¬ state.fs.Knows state.templatesDir name) ()
      (renderTemplate state name ctx).run := by
  refine (loader_obeys hloader htemplates name).bindLift fun loaded _ hloaded => ?_
  cases loaded with
  | unknown =>
      intro other
      constructor
      · intro h
        cases h
        exact ⟨rfl, hloaded.mp rfl⟩
      · rintro ⟨rfl, -⟩
        rfl
  | unreadable =>
      have hknows := not_not.mp fun hnot => Loaded.noConfusion (hloaded.mpr hnot)
      exact fun other => iff_of_false nofun fun h => h.2 hknows
  | source text =>
      have hknows := not_not.mp fun hnot => Loaded.noConfusion (hloaded.mpr hnot)
      refine (loadNames_obeys hloader htemplates (state.engine text ctx)).bindLift
        fun rendered _ _ => ?_
      cases rendered with
      | ok html => exact fun other => iff_of_false nofun fun h => h.2 hknows
      | error message => exact fun other => iff_of_false nofun fun h => h.2 hknows

/-- The page of a fixture fails with an unknown template exactly if the fixture can be read
and the loader does not know its template. -/
theorem renderFixture_obeys (templatePath story : String) (q : PreviewQuery) (nonce : String)
    (hfixture : allowed (.fixture (fixtureFile state.fixturesDir templatePath story))) :
    Prog.Obeys (reads state.fs allowed)
      (fun done _ => done = .error (.minijinja (.templateNotFound templatePath)) ↔
        state.FixtureLoads (fixtureFile state.fixturesDir templatePath story) ∧
          ¬ state.fs.Knows state.templatesDir templatePath) ()
      (renderFixture state templatePath story q nonce).run := by
  refine (loadFixture_obeys hfixture).bindLift fun loaded _ hloaded => ?_
  cases loaded with
  | error e =>
      refine iff_of_false nofun fun h => ?_
      obtain ⟨fixture, hok⟩ := hloaded.mpr h.1
      cases hok
  | ok fixture =>
      have hloads := hloaded.mp ⟨fixture, rfl⟩
      refine (renderTemplate_obeys hloader htemplates templatePath _).bindExcept ?_ ?_
      · intro rendered _ hrendered
        have hknows : state.fs.Knows state.templatesDir templatePath := by
          by_contra hnot
          cases (hrendered templatePath).mpr ⟨rfl, hnot⟩
        by_cases hpartial : startsWith templatePath "partials/".toList = true
        · rw [if_pos hpartial]
          -- the shell is another template
          have hshell : templatePath ≠ "_preview_shell.html" := by
            rintro rfl
            exact absurd hpartial (by decide)
          refine (renderTemplate_obeys hloader htemplates "_preview_shell.html" _).mono ?_
          exact fun done _ hdone =>
            iff_of_false (fun h => hshell ((hdone templatePath).mp h).1) fun h => h.2 hknows
        · rw [if_neg hpartial]
          exact iff_of_false nofun fun h => h.2 hknows
      · intro e _ hrendered
        constructor
        · intro h
          cases h
          exact ⟨hloads, ((hrendered templatePath).mp rfl).2⟩
        · rintro ⟨-, hnot⟩
          cases (hrendered templatePath).mpr ⟨rfl, hnot⟩
          rfl

end Page

end Runs

/-! ### Answers -/

section Answers
variable (state : PreviewState)

/-- Rendering never fails with 404. -/
theorem renderTemplate_answers (name : String) (ctx : Json) :
    Prog.Obeys (reads state.fs fun _ => True) (fun done _ => done ≠ .error (.app .notFound)) ()
      (renderTemplate state name ctx).run := by
  have hany (m : Unit) (e : Access) : (reads state.fs fun _ => True).allows m e := trivial
  refine (Prog.Obeys.of_allows hany () (state.loader state.templatesDir name)).bindLift
    fun loaded _ _ => ?_
  cases loaded with
  | unknown => exact nofun
  | unreadable => exact nofun
  | source text =>
      refine (Prog.Obeys.of_allows hany _ (loadNames _ (state.engine text ctx))).bindLift
        fun rendered _ _ => ?_
      cases rendered with
      | ok html => exact nofun
      | error message => exact nofun

theorem renderFixture_answers (templatePath story : String) (q : PreviewQuery) (nonce : String) :
    Prog.Obeys (reads state.fs fun _ => True) (fun done _ => done ≠ .error (.app .notFound)) ()
      (renderFixture state templatePath story q nonce).run := by
  have hany (m : Unit) (e : Access) : (reads state.fs fun _ => True).allows m e := trivial
  refine (Prog.Obeys.of_allows hany () (loadFixture state.fromStr _)).bindLift fun loaded _ _ => ?_
  cases loaded with
  | error e => exact nofun
  | ok fixture =>
      refine (renderTemplate_answers state templatePath _).bindExcept ?_ ?_
      · intro rendered _ _
        by_cases hpartial : startsWith templatePath "partials/".toList = true
        · rw [if_pos hpartial]
          exact renderTemplate_answers state _ _
        · rw [if_neg hpartial]
          exact nofun
      · intro e _ hrendered h
        cases h
        exact hrendered rfl

end Answers

/-! ### What the disk says of a name -/

/-- The loader knows a file of a relative name without hidden segments. -/
theorem knows_of_isFile {fs : FileSystem} {dir name : String}
    (hrelative : startsWith name ['/'] = false)
    (hplain : ∀ segment ∈ components name, PlainSegment segment)
    (hfile : fs.isFile (joinPath dir name) = true) : fs.Knows dir name := by
  obtain ⟨content, hstat⟩ := FileSystem.isFile_iff.mp hfile
  obtain ⟨-, pos, hbase, hpos⟩ := FileSystem.stat_eq_ok_iff.mp hstat
  have hsame : fs.base (pathBelow dir name) = .ok pos := by
    rw [pathBelow, base_foldl_joinPath fs dir fun segment hsegment =>
      slash_notMem_of_mem_components hsegment, ← FileSystem.base_joinPath fs dir hrelative, hbase]
  have hne : pathBelow dir name ≠ "" := by
    intro hempty
    rw [hempty] at hsame
    obtain ⟨entries, hentries⟩ := FileSystem.node_of_base_empty hsame
    cases hpos.symm.trans hentries
  have hbelow : fs.stat (pathBelow dir name) = .ok (.file content) :=
    FileSystem.stat_eq_ok_iff.mpr ⟨hne, pos, hsame, hpos⟩
  refine ⟨hplain, ?_⟩
  rw [FileSystem.readToString, hbelow]
  intro hmissing
  dsimp only [bind, Except.bind] at hmissing
  cases htext : String.fromUTF8? ⟨content.toArray⟩ with
  | none =>
      rw [htext] at hmissing
      cases hmissing
  | some text =>
      rw [htext] at hmissing
      cases hmissing

/-- Only for a name that begins with a slash, the check on the disk says nothing. -/
theorem knows_iff {fs : FileSystem} {dir name : String}
    (hfile : fs.isFile (joinPath dir name) = true) :
    fs.Knows dir name ↔ (∀ segment ∈ components name, PlainSegment segment) ∧
      (startsWith name ['/'] = true → fs.readToString (pathBelow dir name) ≠ .error .notFound) := by
  constructor
  · exact fun hknows => ⟨hknows.1, fun _ => hknows.2⟩
  · rintro ⟨hplain, habsolute⟩
    cases hstart : startsWith name ['/'] with
    | true => exact ⟨hplain, habsolute hstart⟩
    | false => exact knows_of_isFile hstart hplain hfile

theorem below_iff {fs : FileSystem} {dir path : String} (hpath : fs.pathExists path = true) :
    fs.Below dir path ↔ ∃ top, fs.base dir = .ok top ∧ top <+: fs.lexical path := by
  obtain ⟨n, hstat⟩ := FileSystem.pathExists_iff.mp hpath
  obtain ⟨hempty, pos, hbase, -⟩ := FileSystem.stat_eq_ok_iff.mp hstat
  have hresolved : fs.resolve path = .ok pos := by rw [FileSystem.resolve, if_neg hempty, hbase]
  have hlexical : fs.lexical path = pos := FileSystem.foldlM_step_eq_ok hbase
  rw [hlexical]
  constructor
  · exact fun hbelow => hbelow pos hresolved
  · rintro hbelow pos' hpos'
    obtain rfl := Except.ok.inj (hresolved.symm.trans hpos')
    exact hbelow

/-! ### Requests -/

section Requests
variable {state : PreviewState} {path templatePath story nonce : String} {q : PreviewQuery}

theorem render_found (h : state.Found path templatePath story) :
    render state path q nonce = renderFixture state templatePath story q nonce := by
  obtain ⟨henabled, hsplit, htemplate, hfixture⟩ := h
  rw [render, checkEnabled, henabled, hsplit]
  simp only [htemplate, hfixture, Bool.not_true, Bool.false_eq_true, if_false, if_true, pure_bind]

theorem render_notFound (h : ¬ ∃ templatePath story, state.Found path templatePath story) :
    render state path q nonce = throw (.app .notFound) := by
  rw [render, checkEnabled]
  by_cases henabled : state.previewEnabled = true
  · rw [if_pos henabled, pure_bind]
    cases hsplit : splitLastSegment path with
    | none => rfl
    | some parts =>
        obtain ⟨templatePath, story⟩ := parts
        by_cases htemplate : state.fs.isFile (joinPath state.templatesDir templatePath) = true
        · have hfixture :
              state.fs.pathExists (fixtureFile state.fixturesDir templatePath story) = false := by
            rw [← Bool.not_eq_true]
            exact fun hfixture => h ⟨_, _, henabled, hsplit, htemplate, hfixture⟩
          simp [htemplate, hfixture]
        · simp [htemplate]
  · rw [if_neg henabled]
    rfl

theorem PreviewState.Found.unique {templatePath' story' : String}
    (h : state.Found path templatePath story)
    (hsplit : splitLastSegment path = some (templatePath', story')) :
    templatePath' = templatePath ∧ story' = story := by
  have hsame := h.split.symm.trans hsplit
  simp only [Option.some.injEq, Prod.mk.injEq] at hsame
  exact ⟨hsame.1.symm, hsame.2.symm⟩

/-- The fixture is the first file to be opened. -/
theorem fixture_mem_opened (h : state.Found path templatePath story) :
    .fixture (fixtureFile state.fixturesDir templatePath story) ∈
      state.fs.opened (render state path q nonce) := by
  rw [render_found h]
  exact List.mem_cons_self

end Requests

/-- A request keeps to the directories, and does not fail because of an unknown template,
exactly if what passes the checks of the handler is servable. -/
theorem confined_iff (state : PreviewState) (hloader : state.loader.Documented) (path : String)
    (q : PreviewQuery) (nonce : String) :
    state.Confined path q nonce ↔ state.Servable path := by
  by_cases hfound : ∃ templatePath story, state.Found path templatePath story
  · obtain ⟨templatePath, story, hfound⟩ := hfound
    -- only the fixture may be elsewhere
    have hobeys := run_of_obeys (@renderFixture_obeys
      (fun e => state.Below e ∨ e = .fixture (fixtureFile state.fixturesDir templatePath story))
      state hloader (fun _ hbelow => Or.inl hbelow) templatePath story q nonce (Or.inr rfl))
    rw [← render_found hfound] at hobeys
    obtain ⟨hunknown, hopened⟩ := hobeys
    have hanswer := (run_of_obeys (renderFixture_answers state templatePath story q nonce)).1
    rw [← render_found hfound] at hanswer
    constructor
    · rintro ⟨hreads, hknown⟩ templatePath' story' hfound'
      obtain ⟨rfl, rfl⟩ := hfound.unique hfound'.split
      have hbelow := hreads.resolve_left (mt answer_eq_notFound_iff.mp hanswer) _
        (fixture_mem_opened hfound)
      refine ⟨(below_iff hfound.fixture).mp hbelow, fun hloads => ?_⟩
      rw [← knows_iff hfound.template]
      by_contra hnot
      exact hknown _ _ hfound.split (hunknown.mpr ⟨hloads, hnot⟩)
    · intro hservable
      obtain ⟨hbelow, hknows⟩ := hservable templatePath story hfound
      refine ⟨Or.inr fun e he => ?_, fun templatePath' story' hsplit hfailed => ?_⟩
      · rcases hopened e he with hplace | rfl
        · exact hplace
        · exact (below_iff hfound.fixture).mpr hbelow
      · obtain ⟨rfl, rfl⟩ := hfound.unique hsplit
        obtain ⟨hloads, hnot⟩ := hunknown.mp hfailed
        exact hnot ((knows_iff hfound.template).mpr (hknows hloads))
  · have houtcome : state.fs.outcome (render state path q nonce) = .error (.app .notFound) := by
      rw [render_notFound hfound]
      rfl
    have hanswer := answer_eq_notFound_iff.mpr houtcome
    refine iff_of_true ⟨Or.inl hanswer, fun templatePath story _ hfailed => ?_⟩ ?_
    · rw [houtcome] at hfailed
      cases hfailed
    · exact fun templatePath story h => absurd ⟨_, _, h⟩ hfound

/-! ### Names that are served -/

/-- A relative name without hidden segments is served, or not found. -/
theorem servable_of_plain {state : PreviewState} {path : String}
    (h : ∀ templatePath story, splitLastSegment path = some (templatePath, story) →
      startsWith templatePath ['/'] = false ∧
        ∀ segment ∈ components templatePath, PlainSegment segment) : state.Servable path := by
  intro templatePath story hfound
  obtain ⟨hrelative, hplain⟩ := h templatePath story hfound.split
  obtain ⟨-, hstory⟩ := splitLastSegment_eq_some_iff.mp hfound.split
  have hbelow := fixtureFile_below state.fs state.fixturesDir hplain hrelative hstory
  refine ⟨(below_iff hfound.fixture).mp hbelow, fun _ => ⟨hplain, fun habsolute => ?_⟩⟩
  rw [hrelative] at habsolute
  cases habsolute

/-! ### The loader of minijinja -/

/-- `safe_join` -/
def safeJoin (rv : String) : List String → Option String
  | [] => some rv
  | segment :: rest =>
      if startsWith segment ['.'] || segment.toList.contains '\\' then none
      else safeJoin (joinPath rv segment) rest

/-- `path_loader` -/
def pathLoader : PathLoader := fun dir name =>
  match safeJoin dir (components name) with
  | none => .ret .unknown
  | some path => .op (.template path) fun reply => .ret (Loaded.ofReply reply)

theorem safeJoin_eq_some_iff {dir path : String} {segments : List String} :
    safeJoin dir segments = some path ↔
      (∀ segment ∈ segments, PlainSegment segment) ∧ segments.foldl joinPath dir = path := by
  induction segments generalizing dir with
  | nil => simp [safeJoin]
  | cons segment rest ih =>
      have hrefused : (startsWith segment ['.'] || segment.toList.contains '\\') = true ↔
          ¬ PlainSegment segment := by
        rw [PlainSegment, Bool.or_eq_true, List.contains_iff_mem, not_and_or, Bool.not_eq_false,
          not_not]
      rw [safeJoin, List.forall_mem_cons, List.foldl_cons]
      by_cases hplain : PlainSegment segment
      · rw [if_neg fun h => hrefused.mp h hplain, ih, and_assoc]
        exact (and_iff_right hplain).symm
      · rw [if_pos (hrefused.mpr hplain)]
        exact iff_of_false nofun fun h => hplain h.1.1

theorem pathLoader_documented : pathLoader.Documented := by
  constructor
  · intro dir name hplain
    have hnone : safeJoin dir (components name) = none := by
      rw [Option.eq_none_iff_forall_ne_some]
      exact fun path hpath => hplain (safeJoin_eq_some_iff.mp hpath).1
    rw [pathLoader, hnone]
  · intro dir name hplain
    rw [pathLoader, safeJoin_eq_some_iff.mpr ⟨hplain, rfl⟩]
    rfl

/-- The preview of a small disk. -/
def samplePreview : PreviewState where
  fs := sampleDisk
  templatesDir := "/srv/templates"
  fixturesDir := "/srv/fixtures"
  previewEnabled := true
  fromStr _ := .ok ⟨⟨none⟩, none⟩
  loader := pathLoader
  engine text _ := .ret (.ok text)

/-- The story of a page passes the checks, and its page keeps to the directories. -/
theorem index_confined : samplePreview.Found "index.html/default" "index.html" "default" ∧
    samplePreview.Confined "index.html/default" ⟨none, none⟩ "" := by
  have hfound : samplePreview.Found "index.html/default" "index.html" "default" :=
    ⟨rfl, by decide, by decide, by decide⟩
  refine ⟨hfound, (confined_iff samplePreview pathLoader_documented _ _ _).mpr ?_⟩
  refine servable_of_plain fun templatePath story hsplit => ?_
  obtain ⟨rfl, rfl⟩ := hfound.unique hsplit
  have hcomponents : components "index.html" = ["index.html"] := by decide
  rw [hcomponents, List.forall_mem_singleton]
  exact ⟨by decide, by decide, by decide⟩

/-- The loader refuses a name with a `.` in front, which the disk has. -/
theorem dot_segment_unknown : ¬ ∀ state : PreviewState, state.loader.Documented →
    ∀ path q nonce, state.Confined path q nonce := by
  intro h
  have hknown := (h samplePreview pathLoader_documented "./index.html/default" ⟨none, none⟩ "").2
    "./index.html" "default" (by decide)
  exact hknown rfl

end TodoRust.Preview
