import Mathlib.Data.String.Basic
import TodoRust.Lib.Prog
import TodoRust.Lib.Sorted
import TodoRust.Preview.Paths

/-!
# Fixtures and their discovery

A fixture is a TOML file, and reading a file is the effect here. Discovery walks the
directory of templates and looks for the fixtures of each, which it lists as stories.
-/

namespace TodoRust.Preview
open Lib Rust StaticFiles

/-- `serde_json::Value` -/
inductive Json
  | null
  | bool (value : Bool)
  | number (text : String)
  | string (text : String)
  | array (items : List Json)
  | object (members : List (String × Json))

inductive FixtureError
  | io (path : String) (source : IoError)
  | parse (path : String) (source : String)

def FixtureError.toString : FixtureError → String
  | .io path source => "io error reading fixture " ++ path ++ ": " ++ source.toString
  | .parse path source => "toml parse error in fixture " ++ path ++ ": " ++ source

structure FixtureMeta where
  description : Option String

/-- A fixture and its render context, an object or null. -/
structure LoadedFixture where
  info : FixtureMeta
  ctx : Json

/-- The whole TOML file. -/
structure FixtureFile where
  info : FixtureMeta
  ctx : Option Json

/-- `toml::from_str`, for a fixture -/
abbrev TomlParser := String → Except String FixtureFile

/-- A file that is read: a fixture or the source of a template. -/
inductive Access
  | fixture (path : String)
  | template (path : String)
  deriving DecidableEq

def Access.path : Access → String
  | .fixture path => path
  | .template path => path

/-- What reading a file gives. -/
abbrev Access.Reply (_ : Access) := Except IoError String

abbrev Reading := Prog Access Access.Reply

/-- Reading changes nothing. -/
def FileSystem.act (fs : FileSystem) : Unit → (e : Access) → Unit → Access.Reply e × Unit :=
  fun _ e _ => (fs.readToString e.path, ())

/-- `load_fixture` -/
def loadFixture (fromStr : TomlParser) (path : String) :
    Reading (Except FixtureError LoadedFixture) :=
  .op (.fixture path) fun reply =>
    .ret (match reply with
      | .error e => .error (.io path e)
      | .ok raw =>
          match fromStr raw with
          | .error e => .error (.parse path e)
          | .ok file => .ok ⟨file.info, file.ctx.getD .null⟩)

structure Story where
  name : String
  file : String
  deriving DecidableEq

structure TemplateEntry where
  templatePath : String
  stories : List Story
  deriving DecidableEq

/-! ### Stories -/

/-- The order of stories: the default first, and then by name. -/
def storyCmp (a b : Story) : Ordering :=
  match a.name, b.name with
  | "default", "default" => .eq
  | "default", _ => .lt
  | _, "default" => .gt
  | a, b => compare a b

/-- The fixtures among the entries of a directory. -/
def collectStories (dir : String) : Directory → List Story
  | .empty => []
  | .subdirectory _ _ rest => collectStories dir rest
  | .file file _ rest =>
      match fileStem file with
      | none => collectStories dir rest
      | some name =>
          if extension file ≠ some "toml" then collectStories dir rest
          else ⟨name, joinPath dir file⟩ :: collectStories dir rest

/-- `stories_for` -/
def storiesFor (fs : FileSystem) (dir : String) : Except FixtureError (List Story) :=
  if !fs.pathExists dir then .ok []
  else
    match fs.readDir dir with
    | .error e => .error (.io dir e)
    | .ok entries =>
        .ok (sortBy storyCmp (collectStories dir entries))

/-! ### Templates -/

/-- The loop of `walk_templates` over the entries of a directory, of which a subdirectory is
walked in turn. -/
def walkEntries (fs : FileSystem) (root fixturesDir : String) (dir : String) :
    Directory → List TemplateEntry → Except FixtureError (List TemplateEntry)
  | .empty, out => .ok out
  | .subdirectory name entries rest, out => do
      let out ← walkEntries fs root fixturesDir (joinPath dir name) entries out
      walkEntries fs root fixturesDir dir rest out
  | .file name _ rest, out =>
      let path := joinPath dir name
      if startsWith name ['_'] then walkEntries fs root fixturesDir dir rest out
      else if !endsWith name ".html".toList then walkEntries fs root fixturesDir dir rest out
      else
        match stripPrefix path root with
        | none => .error (.io path (.other "strip prefix failed"))
        | some rel => do
            let templatePath := replaceBackslashes rel
            let stem := trimEndMatches templatePath ".html".toList
            let stories ← storiesFor fs (joinPath fixturesDir stem)
            walkEntries fs root fixturesDir dir rest (out ++ [⟨templatePath, stories⟩])

/-- `walk_templates` -/
def walkTemplates (fs : FileSystem) (root dir fixturesDir : String) (out : List TemplateEntry) :
    Except FixtureError (List TemplateEntry) :=
  match fs.readDir dir with
  | .error e => .error (.io dir e)
  | .ok entries => walkEntries fs root fixturesDir dir entries out

/-- `discover` -/
def discover (fs : FileSystem) (templatesDir fixturesDir : String) :
    Except FixtureError (List TemplateEntry) := do
  let out ← walkTemplates fs templatesDir templatesDir fixturesDir []
  return sortBy (fun a b => compare a.templatePath b.templatePath) out

/-! ### A small disk -/

/-- Two pages and a partial -/
def sampleTemplates : Directory :=
  .file "index.html" [] (.file "_preview_shell.html" []
    (.subdirectory "partials" (.file "todo.html" [] .empty) .empty))

/-- The templates, with fixtures of one page -/
def sampleDisk : FileSystem where
  root :=
    .subdirectory "srv"
      (.subdirectory "templates" sampleTemplates
        (.subdirectory "fixtures"
          (.subdirectory "index" (.file "empty.toml" [] (.file "default.toml" [] .empty)) .empty)
          .empty))
      .empty
  sound := by decide
  cwd := []

end TodoRust.Preview
