import TodoRust.Rust.Number

/-!
# Sources of the configuration

Values come from defaults, from the variables of the environment and from overrides,
of which the later ones count. A value of the environment is a text that is tried as a
flag and as a number first; a field of type `String` takes any value, as text.
-/

namespace TodoRust.Settings
open Rust

/-- `config::ValueKind`, as far as the program sets or reads it. -/
inductive ValueKind
  | boolean (b : Bool)
  | i64 (n : Int)
  | float (x : F64)
  | string (s : String)
  deriving DecidableEq

/-- `value.to_lowercase().parse::<bool>()`; only ASCII letters have a lower case in one
of the two words. -/
def parseFlag (value : String) : Option Bool := boolFromStr (value.toList.map Char.toLower)

/-- What `try_parsing` makes of a value. -/
def ValueKind.tryParse (value : String) : ValueKind :=
  match parseFlag value with
  | some b => .boolean b
  | none =>
      match i64FromStr value.toList with
      | some n => .i64 n
      | none =>
          match F64.fromStr value.toList with
          | some x => .float x
          | none => .string value

/-- `into_string` -/
def ValueKind.text : ValueKind → String
  | .boolean b => toString b
  | .i64 n => toString n
  | .float x => String.ofList x.toChars
  | .string s => s

namespace ValueKind

@[simp] theorem text_boolean (b : Bool) : (boolean b).text = toString b := rfl

@[simp] theorem text_i64 (n : Int) : (i64 n).text = toString n := rfl

@[simp] theorem text_float (x : F64) : (float x).text = String.ofList x.toChars := rfl

@[simp] theorem text_string (s : String) : (string s).text = s := rfl

end ValueKind

example : (ValueKind.tryParse "007").text = "7" := by decide
example : (ValueKind.tryParse "1e5").text = "100000" := by decide
example : (ValueKind.tryParse "todo-app").text = "todo-app" := by decide

inductive LogFormat
  | pretty | json
  deriving DecidableEq

inductive Case
  | snake
  deriving DecidableEq

/-- `config::Environment` -/
structure Environment where
  withPrefix : String
  separator : String
  tryParsing : Bool
  convertCase : Option Case

/-- The rest of the `config` crate: the path a variable is read as, and the fields that
are no strings. -/
structure ConfigCrate where
  path : Environment → (name : String) → Option String
  asBool : ValueKind → Except String Bool
  asUnsigned : (bits : Nat) → ValueKind → Except String Nat
  asSigned : ValueKind → Except String Int
  asLogFormat : ValueKind → Except String LogFormat

/-- The variables of the process. -/
abbrev Vars := List (String × String)

/-- The value of the last variable that is read as this path. -/
def Environment.get (source : Environment) (crate : ConfigCrate) (vars : Vars) (path : String) :
    Option ValueKind :=
  (vars.reverse.find? fun x => crate.path source x.1 == some path).map fun x =>
    if source.tryParsing then .tryParse x.2 else .string x.2

/-- `config::ConfigBuilder` -/
structure Builder where
  defaults : List (String × ValueKind)
  overrides : List (String × ValueKind)
  source : Option Environment

namespace Builder

def setOverride (path : String) (value : ValueKind) (builder : Builder) : Builder :=
  { builder with overrides := (path, value) :: builder.overrides }

def addSource (source : Environment) (builder : Builder) : Builder :=
  { builder with source := some source }

/-- The value of a path. -/
def get (builder : Builder) (crate : ConfigCrate) (vars : Vars) (path : String) :
    Option ValueKind :=
  builder.overrides.lookup path <|>
    (builder.source.bind fun source => source.get crate vars path) <|>
    builder.defaults.lookup path

end Builder

/-- `std::env::var` -/
def envVar (vars : Vars) (name : String) : Option String := vars.lookup name

section Get
variable {crate : ConfigCrate} {vars : Vars} {path v : String}

/-- A path that all its variables give one text has the value of this text. -/
theorem Environment.get_eq {source : Environment} (hparse : source.tryParsing = true)
    {name : String} (hmem : (name, v) ∈ vars) (hpath : crate.path source name = some path)
    (halone : ∀ x ∈ vars, crate.path source x.1 = some path → x.2 = v) :
    source.get crate vars path = some (.tryParse v) := by
  unfold Environment.get
  cases hfind : vars.reverse.find? fun x => crate.path source x.1 == some path with
  | none =>
      have hnone := List.find?_eq_none.mp hfind (name, v) (List.mem_reverse.mpr hmem)
      exact absurd (beq_iff_eq.mpr hpath) hnone
  | some x =>
      have hx := List.find?_some hfind
      have hxmem := List.mem_reverse.mp (List.mem_of_find?_eq_some hfind)
      have hxv : x.2 = v := halone x hxmem (by simpa using hx)
      simp [hparse, hxv]

/-- Without an override the source decides. -/
theorem Builder.get_eq {builder : Builder} {source : Environment} {value : ValueKind}
    (hoverride : builder.overrides.lookup path = none) (hsource : builder.source = some source)
    (hvalue : source.get crate vars path = some value) :
    builder.get crate vars path = some value := by
  simp [Builder.get, hoverride, hsource, hvalue]

end Get

end TodoRust.Settings
