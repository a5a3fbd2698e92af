import TodoRust.App.Error
import TodoRust.Preview.Fixtures

/-!
# Rendering a preview

The path of a request names a template and a story. Both are looked for on the disk
before the fixture is read and the template is loaded.
-/

namespace TodoRust.Preview
open Lib App Rust StaticFiles

/-! ### The template loader -/

inductive Loaded
  | unknown
  | unreadable
  | source (text : String)
  deriving DecidableEq

/-- A loader of templates by their names below a directory. -/
abbrev PathLoader := String → String → Reading Loaded

/-- A segment of a name that the loader accepts. -/
def PlainSegment (segment : String) : Prop :=
  startsWith segment ['.'] = false ∧ '\\' ∉ segment.toList

/-- The path of a name below a directory, whatever the name begins with. -/
def pathBelow (dir name : String) : String := (components name).foldl joinPath dir

def Loaded.ofReply : Except IoError String → Loaded
  | .ok text => .source text
  | .error .notFound => .unknown
  | .error _ => .unreadable

/-- `path_loader`, of `minijinja`: a name with a hidden segment or a backslash is not
found, and any other is read below the directory. -/
structure PathLoader.Documented (loader : PathLoader) : Prop where
  refuses : ∀ dir name, (¬ ∀ segment ∈ components name, PlainSegment segment) →
    loader dir name = .ret .unknown
  reads : ∀ dir name, (∀ segment ∈ components name, PlainSegment segment) →
    loader dir name =
      .op (.template (pathBelow dir name)) fun reply => .ret (Loaded.ofReply reply)

inductive MinijinjaError
  | templateNotFound (name : String)
  | couldNotRead
  | rendering (message : String)
  deriving DecidableEq

/-- Why there is no page; the causes of `AppError::Template` are kept apart. -/
inductive Failure
  | app (e : AppError)
  | minijinja (e : MinijinjaError)
  deriving DecidableEq

/-- `From<minijinja::Error>` -/
def Failure.toAppError : Failure → AppError
  | .app e => e
  | .minijinja _ => .template

abbrev Handling := ExceptT Failure Reading

/-- The rendering of a source with a context, which asks for further templates by their
names. -/
abbrev Engine := String → Json → Prog String (fun _ => Loaded) (Except String String)

/-- What the preview reads of `AppState`. -/
structure PreviewState where
  fs : FileSystem
  templatesDir : String
  fixturesDir : String
  previewEnabled : Bool
  fromStr : TomlParser
  loader : PathLoader
  engine : Engine

/-- The loading of the templates that are asked for by name. -/
def loadNames {α : Type} (load : String → Reading Loaded) :
    Prog String (fun _ => Loaded) α → Reading α
  | .ret a => .ret a
  | .op name k => load name >>= fun loaded => loadNames load (k loaded)

section Handlers
variable (state : PreviewState)

/-- `Templates::render` -/
def renderTemplate (name : String) (ctx : Json) : Handling String := do
  let load := state.loader state.templatesDir
  match ← ExceptT.lift (load name) with
  | .unknown => throw (.minijinja (.templateNotFound name))
  | .unreadable => throw (.minijinja .couldNotRead)
  | .source text =>
      match ← ExceptT.lift (loadNames load (state.engine text ctx)) with
      | .ok html => return html
      | .error message => throw (.minijinja (.rendering message))

/-- `shell::wrap` -/
def wrap (renderedPartial templatePath story locale tz : String) : Handling String :=
  renderTemplate state "_preview_shell.html" (.object
    [("rendered_partial", .string renderedPartial), ("template_path", .string templatePath),
      ("story", .string story), ("_locale", .string locale), ("_tz", .string tz)])

structure PreviewQuery where
  locale : Option String
  tz : Option String

def PreviewQuery.localeOrDefault (self : PreviewQuery) : String := self.locale.getD "en"

def PreviewQuery.tzOrDefault (self : PreviewQuery) : String := self.tz.getD "UTC"

/-- `check_enabled` -/
def checkEnabled : Handling Unit :=
  if state.previewEnabled then return else throw (.app .notFound)

/-- `split_last_segment` -/
def splitLastSegment (path : String) : Option (String × String) :=
  (rfind path.toList '/').map fun i =>
    (String.ofList (path.toList.take i), String.ofList (path.toList.drop (i + 1)))

/-- `Map::insert`, with the members in the order of their keys -/
def insertMember : List (String × Json) → String → Json → List (String × Json)
  | [], key, value => [(key, value)]
  | member :: rest, key, value =>
      match compare key member.1 with
      | .lt => (key, value) :: member :: rest
      | .eq => (key, value) :: rest
      | .gt => member :: insertMember rest key value

/-- The defaults of the render context. -/
def ambient (locale tz nonce : String) : List (String × Json) :=
  insertMember (insertMember (insertMember [] "_locale" (.string locale)) "_tz" (.string tz))
    "csp_nonce" (.string nonce)

/-- The render context: defaults, and over them the fixture. -/
def mergedContext (locale tz nonce : String) (ctx : Json) : List (String × Json) :=
  match ctx with
  | .object members => members.foldl (fun merged (k, v) => insertMember merged k v)
      (ambient locale tz nonce)
  | _ => ambient locale tz nonce

/-- Where the fixture of a story is. -/
def fixtureFile (fixturesDir templatePath story : String) : String :=
  joinPath (joinPath fixturesDir (trimEndMatches templatePath ".html".toList)) (story ++ ".toml")

/-- `render` from `load_fixture` on. -/
def renderFixture (templatePath story : String) (q : PreviewQuery) (nonce : String) :
    Handling String := do
  let path := fixtureFile state.fixturesDir templatePath story
  match ← ExceptT.lift (loadFixture state.fromStr path) with
  | .error e => throw (.app (.internal ("fixture load failed: " ++ e.toString)))
  | .ok loaded =>
      let locale := q.localeOrDefault
      let tz := q.tzOrDefault
      let merged := mergedContext locale tz nonce loaded.ctx
      let rendered ← renderTemplate state templatePath (.object merged)
      if startsWith templatePath "partials/".toList then
        wrap state rendered templatePath story locale tz
      else return rendered

/-- `GET /__preview/render/*path` -/
def render (path : String) (q : PreviewQuery) (nonce : String) : Handling String := do
  checkEnabled state
  match splitLastSegment path with
  | none => throw (.app .notFound)
  | some (templatePath, story) =>
      if !state.fs.isFile (joinPath state.templatesDir templatePath) then throw (.app .notFound)
      else if !state.fs.pathExists (fixtureFile state.fixturesDir templatePath story) then
        throw (.app .notFound)
      else renderFixture state templatePath story q nonce

end Handlers

theorem splitLastSegment_eq_some_iff {path templatePath story : String} :
    splitLastSegment path = some (templatePath, story) ↔
      path = templatePath ++ "/" ++ story ∧ '/' ∉ story.toList := by
  constructor
  · intro h
    by_cases hslash : '/' ∈ path.toList
    · obtain ⟨front, back, hchars, hback⟩ := exists_split_last hslash
      rw [splitLastSegment, hchars, rfind_append_cons hback] at h
      simp only [Option.map_some, List.take_left, drop_append_cons, Option.some.injEq,
        Prod.mk.injEq] at h
      obtain ⟨rfl, rfl⟩ := h
      refine ⟨String.toList_inj.mp ?_, by rwa [String.toList_ofList]⟩
      rw [hchars]
      simp
    · rw [splitLastSegment, rfind_eq_none hslash] at h
      cases h
  · rintro ⟨rfl, hstory⟩
    have hchars : (templatePath ++ "/" ++ story).toList =
        templatePath.toList ++ '/' :: story.toList := by simp
    rw [splitLastSegment, hchars, rfind_append_cons hstory]
    simp only [Option.map_some, List.take_left, drop_append_cons, String.ofList_toList]

/-! ### The render context -/

theorem lookup_member (member : String × Json) (rest : List (String × Json)) (key : String) :
    (member :: rest).lookup key = if key = member.1 then some member.2 else rest.lookup key := by
  obtain ⟨own, value⟩ := member
  by_cases hkey : key = own
  · simp [hkey]
  · simp [List.lookup_cons, hkey, beq_false_of_ne hkey]

theorem lookup_insertMember (members : List (String × Json)) (key other : String) (value : Json) :
    (insertMember members key value).lookup other =
      if other = key then some value else members.lookup other := by
  induction members with
  | nil => exact lookup_member (key, value) [] other
  | cons member rest ih =>
      rw [insertMember]
      cases hcmp : compare key member.1 with
      | lt => exact lookup_member (key, value) (member :: rest) other
      | eq =>
          have hsame : key = member.1 := compare_eq_iff_eq.mp hcmp
          dsimp only
          rw [lookup_member, lookup_member, ← hsame]
          split <;> rfl
      | gt =>
          have hne : member.1 ≠ key := (compare_gt_iff_gt.mp hcmp).ne
          dsimp only
          rw [lookup_member, lookup_member, ih]
          by_cases hkey : other = key
          · simp [hkey, hne.symm]
          · simp [hkey]

/-- What the fixture says, wins. -/
theorem lookup_mergedContext (locale tz nonce key : String) (members : List (String × Json)) :
    (mergedContext locale tz nonce (.object members)).lookup key =
      (members.reverse.lookup key).or ((ambient locale tz nonce).lookup key) := by
  rw [mergedContext]
  generalize ambient locale tz nonce = merged
  induction members generalizing merged with
  | nil => rfl
  | cons member rest ih =>
      rw [List.foldl_cons, ih, lookup_insertMember, List.reverse_cons, List.lookup_append]
      rw [lookup_member]
      by_cases hkey : key = member.1
      · simp [hkey]
      · simp [hkey]

end TodoRust.Preview
