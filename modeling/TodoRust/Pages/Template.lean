import TodoRust.App.State
import TodoRust.I18n.TimeElement
import TodoRust.Lib.Except
import TodoRust.Lib.Html

/-!
# Templates

A template is the text of a file with expressions, conditions and loops in it. What
it renders to keeps apart what stands in the file and what was put in, so that it can
be read by a tokenizer with the values as holes, once for all contexts.
-/

namespace TodoRust.Pages
open Lib Html Domain

/-! ### Syntax -/

/-- A text of a template file, with its characters. -/
structure Literal where
  text : String
  chars : List Char
  spelled : text = String.ofList chars

def lit (text : String) {chars : List Char} (spelled : text = String.ofList chars := by rfl) :
    Literal :=
  ⟨text, chars, spelled⟩

theorem Literal.toList_text (l : Literal) : l.text.toList = l.chars :=
  (congrArg String.toList l.spelled).trans String.toList_ofList

inductive Expr
  | text (s : String)
  | var (name : String)
  | field (e : Expr) (name : String)
  | or (a b : Expr)
  | eq (a b : Expr)
  | ifElse (yes condition no : Expr)
  | t (id : String)
  | asset (logical : String)
  deriving DecidableEq

inductive Template
  | nothing
  | text (l : Literal)
  | emit (e : Expr)
  | datetime (e : Expr) (style : String)
  | seq (first rest : Template)
  | ifElse (condition : Expr) (yes no : Template)
  | forIn (name : String) (e : Expr) (body : Template)

/-- The parts of a file in order. -/
def Template.all (parts : List Template) : Template := parts.foldr .seq .nothing

/-! ### Values -/

inductive Failure
  | error (detail : String)
  | panicked

/-- What a date is rendered from. -/
structure TimeParts where
  iso : String
  style : String
  inner : String

/-- The functions of the template environment; dates are formatted on a thread. -/
structure Helpers (σ : Type) where
  t : Context → String → String
  asset : String → String
  datetime : Context → Value → String → σ → Except Failure (TimeParts × σ)
  /-- `time::serde::rfc3339` -/
  rfc3339 : OffsetDateTime → Except String String
  /-- `Display` of a map or a list. -/
  display : Value → String

/-- `Value::is_true`; `none` is undefined. -/
def truthy : Option Value → Bool
  | none | some .none => false
  | some (.str s) => s ≠ ""
  | some (.bool b) => b
  | some (.todos ts) => !ts.isEmpty
  | some (.user _) | some (.todo _) => true

def orNone (s : Option String) : Value :=
  match s with
  | some s => .str s
  | none => .none

section Evaluation
variable {σ : Type} (helpers : Helpers σ)

/-- The map a user is serialized to. -/
def userFields (u : User) : Except String Context :=
  (helpers.rfc3339 u.createdAt).map fun createdAt =>
    [("id", .str u.id.uuid.toString), ("email", .str u.email), ("created_at", .str createdAt),
      ("locale", orNone u.locale), ("timezone", orNone u.timezone)]

/-- The map a todo is serialized to. -/
def todoFields (todo : Todo) : Except String Context :=
  (helpers.rfc3339 todo.createdAt).bind fun createdAt =>
    (helpers.rfc3339 todo.updatedAt).map fun updatedAt =>
      [("id", .str todo.id.uuid.toString), ("owner_id", .str todo.ownerId.uuid.toString),
        ("title", .str todo.title), ("completed", .bool todo.completed),
        ("created_at", .str createdAt), ("updated_at", .str updatedAt)]

def fieldOf (name : String) : Option Value → Except Failure (Option Value)
  | none => .error (.error "undefined value")
  | some (.user u) => ((userFields helpers u).mapError .error).map (·.lookup name)
  | some (.todo todo) => ((todoFields helpers todo).mapError .error).map (·.lookup name)
  | some _ => .ok none

def Expr.eval (context : Context) : Expr → Except Failure (Option Value)
  | .text s => .ok (some (.str s))
  | .var name => .ok (context.lookup name)
  | .field e name => (e.eval context).bind (fieldOf helpers name)
  | .or a b => (a.eval context).bind fun v => if truthy v then .ok v else b.eval context
  | .eq a b =>
      (a.eval context).bind fun v => (b.eval context).map fun w => some (.bool (decide (v = w)))
  | .ifElse yes condition no =>
      (condition.eval context).bind fun v =>
        if truthy v then yes.eval context else no.eval context
  | .t id => .ok (some (.str (helpers.t context id)))
  | .asset logical => .ok (some (.str (helpers.asset logical)))

def displayed : Option Value → String
  | none => ""
  | some .none => "none"
  | some (.str s) => s
  | some (.bool b) => if b then "true" else "false"
  | some v => helpers.display v

/-- The items of a loop. -/
def items : Option Value → Except Failure (List Value)
  | none | some .none => .ok []
  | some (.todos ts) => .ok (ts.map .todo)
  | some (.str s) => .ok (s.toList.map fun c => .str (String.singleton c))
  | some _ => .error (.error "not iterable")

end Evaluation

/-! ### Rendering -/

/-- What a text in a page was put in for. -/
inductive Label
  | emit (e : Expr)
  | iso
  | style
  | inner
  deriving DecidableEq

/-- A text that was put in. -/
structure Slot where
  label : Label
  value : String
  deriving DecidableEq

/-- The text of a date is escaped for text only. -/
instance : Quotable Label where
  quotable
    | .inner => false
    | _ => true

instance : Quotable Slot where
  quotable slot := Quotable.quotable slot.label

/-- `minijinja`'s escaping of HTML. -/
def htmlEscape (c : Char) : List Char :=
  if c = '<' then "&lt;".toList else if c = '>' then "&gt;".toList
  else if c = '&' then "&amp;".toList else if c = '"' then "&quot;".toList
  else if c = '\'' then "&#x27;".toList else if c = '/' then "&#x2f;".toList else [c]

/-- What is escaped automatically, and what the helper for dates has escaped itself. -/
def Label.escape : Label → Char → List Char
  | .emit _ => htmlEscape
  | .iso | .style => I18n.attrChar
  | .inner => I18n.textChar

/-- What stands in the page. -/
def Slot.raw (slot : Slot) : List Char := slot.value.toList.flatMap slot.label.escape

/-- The symbols of a date, around what is put in. -/
def timeCells {η : Type} (iso style inner : η) : List (Cell η) :=
  (lit "<time datetime=\"").chars.map .char ++ .hole iso ::
    ((lit "\" data-style=\"").chars.map .char ++ .hole style ::
      ((lit "\">").chars.map .char ++ .hole inner :: (lit "</time>").chars.map .char))

section Rendering
variable {σ : Type} (helpers : Helpers σ)

def eachItem (body : Value → σ → Except Failure (List (Cell Slot) × σ)) :
    List Value → σ → Except Failure (List (Cell Slot) × σ)
  | [], s => .ok ([], s)
  | v :: vs, s =>
      (body v s).bind fun first =>
        (eachItem body vs first.2).map fun rest => (first.1 ++ rest.1, rest.2)

def Template.cells : Template → Context → σ → Except Failure (List (Cell Slot) × σ)
  | .nothing, _, s => .ok ([], s)
  | .text l, _, s => .ok (l.chars.map .char, s)
  | .emit e, context, s =>
      (e.eval helpers context).map fun v => ([.hole ⟨.emit e, displayed helpers v⟩], s)
  | .datetime e style, context, s =>
      (e.eval helpers context).bind fun v =>
        (helpers.datetime context (v.getD .none) style s).map fun (parts, s) =>
          (timeCells ⟨.iso, parts.iso⟩ ⟨.style, parts.style⟩ ⟨.inner, parts.inner⟩, s)
  | .seq first rest, context, s =>
      (first.cells context s).bind fun before =>
        (rest.cells context before.2).map fun after => (before.1 ++ after.1, after.2)
  | .ifElse condition yes no, context, s =>
      (condition.eval helpers context).bind fun v =>
        if truthy v then yes.cells context s else no.cells context s
  | .forIn name e body, context, s =>
      (e.eval helpers context).bind fun v =>
        (items v).bind fun vs => eachItem (fun v => body.cells ((name, v) :: context)) vs s

/-- The text that is sent. -/
def pageText (cells : List (Cell Slot)) : List Char :=
  cells.flatMap fun
    | .char c => [c]
    | .hole slot => slot.raw

end Rendering

end TodoRust.Pages
