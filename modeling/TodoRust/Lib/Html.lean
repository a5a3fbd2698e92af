import TodoRust.Lib.Markup

/-!
# Documents with holes

A tokenizer for whole documents, with the elements whose content is read as text, over
symbols that are characters or holes. A hole stands for a text that is not known; it
may stand in text and in a double-quoted attribute value and nowhere else. Filling the
holes with texts free of delimiters and tokenizing the result is the same as
tokenizing first and filling the holes of the tokens.
-/

namespace TodoRust.Lib.Html
open Markup (Quote isSpace)

/-! ### The tokenizer -/

inductive Cell (η : Type)
  | char (c : Char)
  | hole (h : η)
  deriving DecidableEq

structure Tag (η : Type) where
  closing : Bool
  name : List Char
  attributes : List (List Char × List (Cell η))
  deriving DecidableEq

inductive Token (η : Type)
  | tag (tag : Tag η)
  | text (cell : Cell η)
  deriving DecidableEq

/-- How the content of an element is read: as markup, as text up to its end tag, with its
references or without, or as the source text of something else. -/
inductive Content
  | markup
  | text
  | raw
  | code
  deriving DecidableEq

inductive State (η : Type)
  | data
  | tagOpen
  | endTagOpen
  | tagName (tag : Tag η)
  | beforeAttributeName (tag : Tag η)
  | attributeName (tag : Tag η) (name : List Char)
  | afterAttributeName (tag : Tag η) (name : List Char)
  | beforeAttributeValue (tag : Tag η) (name : List Char)
  | attributeValue (quote : Quote) (tag : Tag η) (name : List Char) (value : List (Cell η))
  | afterAttributeValue (tag : Tag η)
  | selfClosing (tag : Tag η)
  | bogusComment
  | rawText (content : Content) (name : List Char)
  | rawTagOpen (content : Content) (name : List Char)
  | rawEndTagOpen (content : Content) (name read : List Char)
  deriving DecidableEq

/-- The state after a symbol, with the tokens it completes. -/
abbrev Step (η : Type) := State η × List (Token η)

/-- A repeated attribute is dropped. -/
def Tag.add {η : Type} (tag : Tag η) (name : List Char) (value : List (Cell η)) : Tag η :=
  if tag.attributes.any (·.1 == name) then tag
  else { tag with attributes := tag.attributes ++ [(name, value)] }

section Tokenizer
variable {η : Type} (contentOf : List Char → Content)

/-- What is read after a tag. -/
def opened (tag : Tag η) : State η :=
  if tag.closing then .data
  else match contentOf tag.name with
    | .markup => .data
    | .text => .rawText .text tag.name
    | .raw => .rawText .raw tag.name
    | .code => .rawText .code tag.name

def finish (tag : Tag η) : Step η := (opened contentOf tag, [.tag tag])

def dataStep (c : Char) : Step η := if c = '<' then (.tagOpen, []) else (.data, [.text (.char c)])

def rawStep (content : Content) (name : List Char) (c : Char) : Step η :=
  if c = '<' then (.rawTagOpen content name, []) else (.rawText content name, [.text (.char c)])

/-- What looked like a tag was text. -/
def emitting (cs : List Char) (next : Step η) : Step η :=
  (next.1, cs.map (fun c => .text (.char c)) ++ next.2)

def beforeAttributeNameStep (tag : Tag η) (c : Char) : Step η :=
  if isSpace c then (.beforeAttributeName tag, [])
  else if c = '/' then (.selfClosing tag, [])
  else if c = '>' then finish contentOf tag
  else (.attributeName tag [c.toLower], [])

/-- One character. Where the tokenizer of HTML looks at a character again in another
state, the step of that state is taken. Every character is kept, also those that HTML
replaces before it reads them (a carriage return) or while it does (NUL). -/
def charStep : State η → Char → Step η
  | .data, c => dataStep c
  | .tagOpen, c =>
      if c = '/' then (.endTagOpen, [])
      else if c.isAlpha then (.tagName ⟨false, [c.toLower], []⟩, [])
      else if c = '!' ∨ c = '?' then (.bogusComment, [])
      else emitting ['<'] (dataStep c)
  | .endTagOpen, c =>
      if c.isAlpha then (.tagName ⟨true, [c.toLower], []⟩, [])
      else if c = '>' then (.data, [])
      else (.bogusComment, [])
  | .tagName tag, c =>
      if isSpace c then (.beforeAttributeName tag, [])
      else if c = '/' then (.selfClosing tag, [])
      else if c = '>' then finish contentOf tag
      else (.tagName { tag with name := tag.name ++ [c.toLower] }, [])
  | .beforeAttributeName tag, c => beforeAttributeNameStep contentOf tag c
  | .attributeName tag name, c =>
      if isSpace c then (.afterAttributeName tag name, [])
      else if c = '/' then (.selfClosing (tag.add name []), [])
      else if c = '>' then finish contentOf (tag.add name [])
      else if c = '=' then (.beforeAttributeValue tag name, [])
      else (.attributeName tag (name ++ [c.toLower]), [])
  | .afterAttributeName tag name, c =>
      if isSpace c then (.afterAttributeName tag name, [])
      else if c = '=' then (.beforeAttributeValue tag name, [])
      else beforeAttributeNameStep contentOf (tag.add name []) c
  | .beforeAttributeValue tag name, c =>
      if isSpace c then (.beforeAttributeValue tag name, [])
      else if c = '"' then (.attributeValue .double tag name [], [])
      else if c = '\'' then (.attributeValue .single tag name [], [])
      else if c = '>' then finish contentOf (tag.add name [])
      else (.attributeValue .unquoted tag name [.char c], [])
  | .attributeValue .double tag name value, c =>
      if c = '"' then (.afterAttributeValue (tag.add name value), [])
      else (.attributeValue .double tag name (value ++ [.char c]), [])
  | .attributeValue .single tag name value, c =>
      if c = '\'' then (.afterAttributeValue (tag.add name value), [])
      else (.attributeValue .single tag name (value ++ [.char c]), [])
  | .attributeValue .unquoted tag name value, c =>
      if isSpace c then (.beforeAttributeName (tag.add name value), [])
      else if c = '>' then finish contentOf (tag.add name value)
      else (.attributeValue .unquoted tag name (value ++ [.char c]), [])
  | .afterAttributeValue tag, c => beforeAttributeNameStep contentOf tag c
  | .selfClosing tag, c =>
      if c = '>' then finish contentOf tag else beforeAttributeNameStep contentOf tag c
  | .bogusComment, c => if c = '>' then (.data, []) else (.bogusComment, [])
  | .rawText content name, c => rawStep content name c
  | .rawTagOpen content name, c =>
      if c = '/' then (.rawEndTagOpen content name [], [])
      else emitting ['<'] (rawStep content name c)
  | .rawEndTagOpen content name read, c =>
      if c.isAlpha then (.rawEndTagOpen content name (read ++ [c]), [])
      else if read.map Char.toLower = name ∧ (isSpace c ∨ c = '/' ∨ c = '>') then
        beforeAttributeNameStep contentOf ⟨true, name, []⟩ c
      else emitting ('<' :: '/' :: read) (rawStep content name c)

/-- Holes of which some may stand in an attribute value. -/
class Quotable (η : Type) where
  quotable : η → Bool

instance : Quotable Empty where
  quotable h := nomatch h

variable [Quotable η]

/-- One symbol; `none` is a hole where none may stand. -/
def step : State η → Cell η → Option (Step η)
  | s, .char c => some (charStep contentOf s c)
  | .data, .hole h => some (.data, [.text (.hole h)])
  | .rawText .text name, .hole h => some (.rawText .text name, [.text (.hole h)])
  | .rawText .raw name, .hole h => some (.rawText .raw name, [.text (.hole h)])
  | .attributeValue .double tag name value, .hole h =>
      if Quotable.quotable h then
        some (.attributeValue .double tag name (value ++ [.hole h]), [])
      else none
  | _, .hole _ => none

def run : State η → List (Cell η) → Option (Step η)
  | s, [] => some (s, [])
  | s, cell :: cells =>
      (step contentOf s cell).bind fun next =>
        (run next.1 cells).map fun rest => (rest.1, next.2 ++ rest.2)

/-- The tokens of a document, unless it ends inside a tag. -/
def tokenize (cells : List (Cell η)) : Option (List (Token η)) :=
  match run contentOf .data cells with
  | some (.data, tokens) => some tokens
  | _ => none

variable {contentOf}

theorem run_append (s : State η) (first rest : List (Cell η)) :
    run contentOf s (first ++ rest) =
      (run contentOf s first).bind fun next =>
        (run contentOf next.1 rest).map fun last => (last.1, next.2 ++ last.2) := by
  induction first generalizing s with
  | nil => simp [run]
  | cons cell first ih =>
      rw [List.cons_append, run, run]
      cases step contentOf s cell with
      | none => rfl
      | some next =>
          simp only [Option.bind_some, ih]
          cases run contentOf next.1 first with
          | none => rfl
          | some mid =>
              simp only [Option.bind_some, Option.map_some]
              cases run contentOf mid.1 rest with
              | none => rfl
              | some last => simp

end Tokenizer

/-! ### Filling the holes -/

section Fill
variable {η θ : Type} (g : η → List (Cell θ))

def Cell.fill : Cell η → List (Cell θ)
  | .char c => [.char c]
  | .hole h => g h

def fillCells (cells : List (Cell η)) : List (Cell θ) := cells.flatMap (Cell.fill g)

def Tag.fill (tag : Tag η) : Tag θ where
  closing := tag.closing
  name := tag.name
  attributes := tag.attributes.map fun a => (a.1, fillCells g a.2)

def Token.fill : Token η → List (Token θ)
  | .tag t => [.tag (t.fill g)]
  | .text cell => (cell.fill g).map .text

def fillTokens (tokens : List (Token η)) : List (Token θ) := tokens.flatMap (Token.fill g)

def State.fill : State η → State θ
  | .data => .data
  | .tagOpen => .tagOpen
  | .endTagOpen => .endTagOpen
  | .tagName tag => .tagName (tag.fill g)
  | .beforeAttributeName tag => .beforeAttributeName (tag.fill g)
  | .attributeName tag name => .attributeName (tag.fill g) name
  | .afterAttributeName tag name => .afterAttributeName (tag.fill g) name
  | .beforeAttributeValue tag name => .beforeAttributeValue (tag.fill g) name
  | .attributeValue quote tag name value =>
      .attributeValue quote (tag.fill g) name (fillCells g value)
  | .afterAttributeValue tag => .afterAttributeValue (tag.fill g)
  | .selfClosing tag => .selfClosing (tag.fill g)
  | .bogusComment => .bogusComment
  | .rawText content name => .rawText content name
  | .rawTagOpen content name => .rawTagOpen content name
  | .rawEndTagOpen content name read => .rawEndTagOpen content name read

def Step.fill (next : Step η) : Step θ := (next.1.fill g, fillTokens g next.2)

variable {g}

@[simp]
theorem fillCells_nil : fillCells g [] = [] := rfl

@[simp]
theorem fillCells_append (first rest : List (Cell η)) :
    fillCells g (first ++ rest) = fillCells g first ++ fillCells g rest :=
  List.flatMap_append ..

@[simp]
theorem fillCells_char (c : Char) : fillCells g [.char c] = [.char c] := rfl

@[simp]
theorem fillCells_hole (h : η) : fillCells g [.hole h] = g h := List.flatMap_singleton ..

@[simp]
theorem fillTokens_append (first rest : List (Token η)) :
    fillTokens g (first ++ rest) = fillTokens g first ++ fillTokens g rest :=
  List.flatMap_append ..

@[simp]
theorem fillTokens_chars (cs : List Char) :
    fillTokens g (cs.map fun c => .text (.char c)) = cs.map fun c => .text (.char c) := by
  induction cs with
  | nil => rfl
  | cons c cs ih => exact congrArg (.text (.char c) :: ·) ih

@[simp]
theorem Tag.fill_add (tag : Tag η) (name : List Char) (value : List (Cell η)) :
    (tag.add name value).fill g = (tag.fill g).add name (fillCells g value) := by
  unfold Tag.add Tag.fill
  simp only [List.any_map, Function.comp_def]
  split
  · rfl
  · simp

/-- The tags after filling are those before. -/
theorem mem_fillTokens {tokens : List (Token η)} {tag : Tag θ}
    (h : .tag tag ∈ fillTokens g tokens) :
    ∃ own, .tag own ∈ tokens ∧ tag = own.fill g := by
  obtain ⟨token, htoken, hfill⟩ := List.mem_flatMap.mp h
  cases token with
  | tag own => exact ⟨own, htoken, Token.tag.inj (List.mem_singleton.mp hfill)⟩
  | text cell =>
      obtain ⟨shown, -, heq⟩ := List.mem_map.mp hfill
      cases heq

section Character
variable {contentOf : List Char → Content}

theorem opened_fill (tag : Tag η) :
    (opened contentOf tag).fill g = opened contentOf (tag.fill g) := by
  unfold opened
  change _ = if tag.closing then _ else match contentOf tag.name with
    | .markup => _ | .text => _ | .raw => _ | .code => _
  split
  · rfl
  · cases contentOf tag.name with
    | markup | text | raw | code => rfl

theorem finish_fill (tag : Tag η) :
    (finish contentOf tag).fill g = finish contentOf (tag.fill g) :=
  Prod.ext (opened_fill tag) rfl

theorem dataStep_fill (c : Char) : (dataStep c : Step η).fill g = dataStep c := by
  unfold dataStep
  split
  · rfl
  · rfl

theorem rawStep_fill (content : Content) (name : List Char) (c : Char) :
    (rawStep content name c : Step η).fill g = rawStep content name c := by
  unfold rawStep
  split
  · rfl
  · rfl

theorem emitting_fill (cs : List Char) (next : Step η) :
    (emitting cs next).fill g = emitting cs (next.fill g) := by
  simp [emitting, Step.fill]

theorem beforeAttributeNameStep_fill (tag : Tag η) (c : Char) :
    (beforeAttributeNameStep contentOf tag c).fill g =
      beforeAttributeNameStep contentOf (tag.fill g) c := by
  unfold beforeAttributeNameStep
  split_ifs
  · rfl
  · rfl
  · exact finish_fill tag
  · rfl

@[simp]
theorem Tag.fill_add_nil (tag : Tag η) (name : List Char) :
    (tag.add name []).fill g = (tag.fill g).add name [] :=
  Tag.fill_add tag name []

/-- A character is read the same way whatever the holes read before it stand for. -/
theorem charStep_fill (s : State η) (c : Char) :
    (charStep contentOf s c).fill g = charStep contentOf (s.fill g) c := by
  cases s with
  | data => exact dataStep_fill c
  | rawText content name => exact rawStep_fill content name c
  | beforeAttributeName tag | afterAttributeValue tag => exact beforeAttributeNameStep_fill tag c
  | attributeValue quote tag name value =>
      cases quote with
      | double | single | unquoted =>
          simp only [charStep, State.fill]
          split_ifs
          all_goals first
            | rw [finish_fill, Tag.fill_add]
            | simp [Step.fill, State.fill, fillTokens]
  | attributeName tag name | afterAttributeName tag name | beforeAttributeValue tag name =>
      simp only [charStep, State.fill]
      split_ifs
      all_goals first
        | rfl
        | rw [finish_fill, Tag.fill_add_nil]
        | rw [beforeAttributeNameStep_fill, Tag.fill_add_nil]
        | simp [Step.fill, State.fill, fillTokens]
  | tagOpen | endTagOpen | tagName | selfClosing | bogusComment | rawTagOpen | rawEndTagOpen =>
      simp only [charStep, State.fill]
      split_ifs
      all_goals first
        | rfl
        | exact finish_fill _
        | exact beforeAttributeNameStep_fill _ _
        | rw [emitting_fill, dataStep_fill]
        | rw [emitting_fill, rawStep_fill]

end Character

section Run
variable {contentOf : List Char → Content} [Quotable η] [Quotable θ]

/-- What may fill a hole: no character that ends the text the hole stands in. -/
def Cell.Clear (quoted : Bool) : Cell θ → Prop
  | .char c => c ≠ '<' ∧ (quoted = true → c ≠ '"')
  | .hole h => quoted = true → Quotable.quotable h = true

/-- Cells without brackets are read as text. -/
theorem run_data_clear {cells : List (Cell θ)} {quoted : Bool}
    (h : ∀ cell ∈ cells, cell.Clear quoted) :
    run contentOf .data cells = some (.data, cells.map .text) := by
  induction cells with
  | nil => rfl
  | cons cell cells ih =>
      have hstep : step contentOf .data cell = some (.data, [.text cell]) := by
        cases cell with
        | char c => exact congrArg some (if_neg (h _ (List.mem_cons_self ..)).1)
        | hole h => rfl
      rw [run, hstep, Option.bind_some, ih fun cell hcell => h cell (List.mem_cons_of_mem _ hcell)]
      rfl

theorem run_rawText_clear {cells : List (Cell θ)} {quoted : Bool} {content : Content}
    (hcontent : content = .text ∨ content = .raw) (name : List Char)
    (h : ∀ cell ∈ cells, cell.Clear quoted) :
    run contentOf (.rawText content name) cells =
      some (.rawText content name, cells.map .text) := by
  induction cells with
  | nil => rfl
  | cons cell cells ih =>
      have hstep : step contentOf (.rawText content name) cell =
          some (.rawText content name, [.text cell]) := by
        cases cell with
        | char c => exact congrArg some (if_neg (h _ (List.mem_cons_self ..)).1)
        | hole h =>
            rcases hcontent with rfl | rfl
            · rfl
            · rfl
      rw [run, hstep, Option.bind_some, ih fun cell hcell => h cell (List.mem_cons_of_mem _ hcell)]
      rfl

/-- Cells without quotes are read as a part of the value they stand in. -/
theorem run_value_clear {cells : List (Cell θ)} (tag : Tag θ) (name : List Char)
    (value : List (Cell θ)) (h : ∀ cell ∈ cells, cell.Clear true) :
    run contentOf (.attributeValue .double tag name value) cells =
      some (.attributeValue .double tag name (value ++ cells), []) := by
  induction cells generalizing value with
  | nil => simp [run]
  | cons cell cells ih =>
      have hstep : step contentOf (.attributeValue .double tag name value) cell =
          some (.attributeValue .double tag name (value ++ [cell]), []) := by
        cases cell with
        | char c => exact congrArg some (if_neg ((h _ (List.mem_cons_self ..)).2 rfl))
        | hole h' => exact if_pos (h _ (List.mem_cons_self ..) rfl)
      rw [run, hstep, Option.bind_some,
        ih _ fun cell hcell => h cell (List.mem_cons_of_mem _ hcell), List.append_assoc]
      rfl

/-- A symbol is read, and then filled, or filled, and then read. -/
theorem step_fill {s : State η} {cell : Cell η} {next : Step η}
    (hg : ∀ h, ∀ cell ∈ g h, cell.Clear (Quotable.quotable h))
    (hstep : step contentOf s cell = some next) :
    run contentOf (s.fill g) (cell.fill g) = some (next.fill g) := by
  cases cell with
  | char c =>
      obtain rfl := Option.some.inj hstep
      rw [charStep_fill]
      simp [Cell.fill, run, step]
  | hole h =>
      cases s with
      | data =>
          obtain rfl := Option.some.inj hstep
          exact (run_data_clear (hg h)).trans (by simp [Step.fill, State.fill, fillTokens,
            Token.fill, Cell.fill])
      | rawText content name =>
          cases content with
          | text | raw =>
              obtain rfl := Option.some.inj hstep
              exact (run_rawText_clear (by simp) name (hg h)).trans (by simp [Step.fill,
                State.fill, fillTokens, Token.fill, Cell.fill])
          | markup | code => cases hstep
      | attributeValue quote tag name value =>
          cases quote with
          | double =>
              simp only [step] at hstep
              split at hstep
              · rename_i hquotable
                obtain rfl := Option.some.inj hstep
                exact (run_value_clear _ name _ (hquotable ▸ hg h)).trans (by simp [Step.fill,
                  State.fill, fillTokens, Cell.fill])
              · cases hstep
          | single | unquoted => cases hstep
      | tagOpen | endTagOpen | tagName | beforeAttributeName | attributeName | afterAttributeName
      | beforeAttributeValue | afterAttributeValue | selfClosing | bogusComment | rawTagOpen
      | rawEndTagOpen => cases hstep

/-- A document can be tokenized before its holes are filled. -/
theorem run_fill {s s' : State η} {cells : List (Cell η)} {tokens : List (Token η)}
    (hg : ∀ h, ∀ cell ∈ g h, cell.Clear (Quotable.quotable h))
    (hrun : run contentOf s cells = some (s', tokens)) :
    run contentOf (s.fill g) (fillCells g cells) = some (s'.fill g, fillTokens g tokens) := by
  induction cells generalizing s s' tokens with
  | nil =>
      cases hrun
      rfl
  | cons cell cells ih =>
      obtain ⟨next, hstep, hrest⟩ := Option.bind_eq_some_iff.mp hrun
      obtain ⟨⟨last, more⟩, hmore, heq⟩ := Option.map_eq_some_iff.mp hrest
      cases heq
      have hfilled : run contentOf (s.fill g) (cell.fill g) = some (next.fill g) :=
        step_fill hg hstep
      rw [fillCells, List.flatMap_cons, run_append, hfilled, Option.bind_some]
      have hnext := ih hmore
      unfold fillCells at hnext
      simp only [Step.fill, hnext, Option.map_some, fillTokens_append]

theorem tokenize_fill {cells : List (Cell η)} {tokens : List (Token η)}
    (hg : ∀ h, ∀ cell ∈ g h, cell.Clear (Quotable.quotable h))
    (htokens : tokenize contentOf cells = some tokens) :
    tokenize contentOf (fillCells g cells) = some (fillTokens g tokens) := by
  unfold tokenize at htokens ⊢
  split at htokens
  · rename_i hrun
    obtain rfl := Option.some.inj htokens
    rw [show run contentOf .data (fillCells g cells) = _ from run_fill hg hrun]
    rfl
  · cases htokens

/-- The holes under other names. -/
def relabel (f : η → θ) (h : η) : List (Cell θ) := [.hole (f h)]

variable {f : η → θ}

theorem step_relabel (hf : ∀ h, Quotable.quotable (f h) = Quotable.quotable h) (s : State η)
    (cell : Cell η) :
    run contentOf (s.fill (relabel f)) (cell.fill (relabel f)) =
      (step contentOf s cell).map (Step.fill (relabel f)) := by
  have hclear : ∀ h, ∀ cell ∈ relabel f h, cell.Clear (Quotable.quotable h) := by
    intro h cell hcell
    obtain rfl := List.mem_singleton.mp hcell
    exact fun hquoted => (hf h).trans hquoted
  cases hstep : step contentOf s cell with
  | some next => exact step_fill hclear hstep
  | none =>
      cases cell with
      | char c => cases hstep
      | hole h =>
          -- where no hole may stand, none of another name may
          cases s with
          | data => cases hstep
          | rawText content name =>
              cases content with
              | text | raw => cases hstep
              | markup | code => rfl
          | attributeValue quote tag name value =>
              cases quote with
              | double =>
                  have hquoted : Quotable.quotable (f h) = false := by
                    rw [hf]
                    simpa [step] using hstep
                  simp [relabel, Cell.fill, State.fill, run, step, hquoted]
              | single | unquoted => rfl
          | tagOpen | endTagOpen | tagName | beforeAttributeName | attributeName
          | afterAttributeName | beforeAttributeValue | afterAttributeValue | selfClosing
          | bogusComment | rawTagOpen | rawEndTagOpen => rfl

/-- What the tokenizer does does not depend on the names of the holes. -/
theorem run_relabel (hf : ∀ h, Quotable.quotable (f h) = Quotable.quotable h) (s : State η)
    (cells : List (Cell η)) :
    run contentOf (s.fill (relabel f)) (fillCells (relabel f) cells) =
      (run contentOf s cells).map (Step.fill (relabel f)) := by
  induction cells generalizing s with
  | nil => rfl
  | cons cell cells ih =>
      rw [fillCells, List.flatMap_cons, run_append, step_relabel hf, run]
      cases step contentOf s cell with
      | none => rfl
      | some next =>
          have hrest := ih next.1
          unfold fillCells at hrest
          simp only [Option.map_some, Option.bind_some, Step.fill, hrest, Option.map_map]
          refine congrArg (Option.map · _) (funext fun last => ?_)
          simp [Step.fill]

end Run

section Holes
variable {contentOf : List Char → Content} {Q : η → Prop}

/-- All holes of a token are such. -/
def Token.All (Q : η → Prop) : Token η → Prop
  | .tag t => ∀ a ∈ t.attributes, ∀ h, .hole h ∈ a.2 → Q h
  | .text cell => ∀ h, cell = .hole h → Q h

instance [Quotable η] : Quotable {h : η // Q h} where
  quotable h := Quotable.quotable h.1

theorem exists_own {cells : List (Cell η)} (h : ∀ x, .hole x ∈ cells → Q x) :
    ∃ own : List (Cell {x // Q x}), fillCells (relabel Subtype.val) own = cells := by
  induction cells with
  | nil => exact ⟨[], rfl⟩
  | cons cell cells ih =>
      obtain ⟨own, hown⟩ := ih fun x hx => h x (List.mem_cons_of_mem _ hx)
      cases cell with
      | char c =>
          subst hown
          exact ⟨.char c :: own, rfl⟩
      | hole x =>
          have hx := h x (List.mem_cons_self ..)
          subst hown
          exact ⟨.hole ⟨x, hx⟩ :: own, rfl⟩

theorem of_mem_fillCells {own : List (Cell {x // Q x})} {x : η}
    (h : .hole x ∈ fillCells (relabel Subtype.val) own) : Q x := by
  obtain ⟨cell, _, hcell⟩ := List.mem_flatMap.mp h
  cases cell with
  | char c => cases List.mem_singleton.mp hcell
  | hole y =>
      cases List.mem_singleton.mp hcell
      exact y.2

/-- The holes of the tokens are holes of the document. -/
theorem run_holes [Quotable η] {cells : List (Cell η)} (hcells : ∀ x, .hole x ∈ cells → Q x)
    {s' : State η}
    {tokens : List (Token η)} (hrun : run contentOf .data cells = some (s', tokens)) :
    ∀ token ∈ tokens, token.All Q := by
  obtain ⟨own, rfl⟩ := exists_own hcells
  have hown : run contentOf .data (fillCells (relabel Subtype.val) own) =
      (run contentOf .data own).map (Step.fill (relabel Subtype.val)) :=
    run_relabel (f := (Subtype.val : {x // Q x} → η)) (fun _ => rfl) .data own
  rw [hrun] at hown
  obtain ⟨⟨last, ownTokens⟩, _, hstep⟩ := Option.map_eq_some_iff.mp hown.symm
  obtain ⟨-, rfl⟩ := Prod.mk.inj hstep
  intro token htoken
  obtain ⟨ownToken, _, hfilled⟩ := List.mem_flatMap.mp htoken
  cases ownToken with
  | tag t =>
      obtain rfl := List.mem_singleton.mp hfilled
      intro a ha x hx
      obtain ⟨b, _, rfl⟩ := List.mem_map.mp ha
      exact of_mem_fillCells hx
  | text cell =>
      obtain ⟨shown, hshown, rfl⟩ := List.mem_map.mp hfilled
      rintro x rfl
      have hmem : .hole x ∈ fillCells (relabel Subtype.val) [cell] := by
        rw [fillCells, List.flatMap_singleton]
        exact hshown
      exact of_mem_fillCells hmem

end Holes

end Fill

/-! ### Text without tags -/

section Plain
variable {η : Type} {contentOf : List Char → Content}

/-- The characters with which a bracket begins a tag or a comment. -/
def opensTag (c : Char) : Bool := c = '/' || c.isAlpha || c = '!' || c = '?'

/-- No bracket of the text begins a tag or a comment, and none ends the text. -/
def TagFree (cs : List Char) : Prop :=
  ∀ rest, '<' :: rest <:+ cs → ∃ c ∈ rest.head?, opensTag c = false

/-- The characters that were read and may yet turn out to be text. -/
def State.pending : State η → Nat
  | .tagOpen | .rawTagOpen .. => 1
  | .rawEndTagOpen _ _ read => read.length + 2
  | _ => 0

theorem finish_pending (tag : Tag η) :
    (finish contentOf tag).2.length + (finish contentOf tag).1.pending = 1 := by
  unfold finish opened
  split
  · rfl
  · split <;> rfl

theorem beforeAttributeNameStep_pending (tag : Tag η) (c : Char) :
    (beforeAttributeNameStep contentOf tag c).2.length +
      (beforeAttributeNameStep contentOf tag c).1.pending ≤ 1 := by
  unfold beforeAttributeNameStep
  split_ifs
  · exact Nat.zero_le 1
  · exact Nat.zero_le 1
  · exact (finish_pending tag).le
  · exact Nat.zero_le 1

/-- A character completes at most one token, besides what was pending. -/
theorem charStep_pending (s : State η) (c : Char) :
    (charStep contentOf s c).2.length + (charStep contentOf s c).1.pending ≤ s.pending + 1 := by
  have hdata : (dataStep c : Step η).2.length + (dataStep c : Step η).1.pending = 1 := by
    unfold dataStep
    split <;> rfl
  have hraw (content : Content) (name : List Char) : (rawStep content name c : Step η).2.length +
      (rawStep content name c : Step η).1.pending = 1 := by
    unfold rawStep
    split <;> rfl
  have hemit (cs : List Char) (next : Step η) : (emitting cs next).2.length +
      (emitting cs next).1.pending = cs.length + (next.2.length + next.1.pending) := by
    simp [emitting, Nat.add_assoc]
  cases s with
  | data => exact hdata.le
  | rawText content name => exact (hraw content name).le
  | beforeAttributeName tag | afterAttributeValue tag =>
      exact beforeAttributeNameStep_pending tag c
  | attributeValue quote tag name value =>
      cases quote with
      | double | single | unquoted =>
          simp only [charStep]
          split_ifs
          all_goals first
            | exact Nat.zero_le 1
            | exact (finish_pending _).le
  | tagOpen | endTagOpen | tagName | attributeName | afterAttributeName | beforeAttributeValue
  | selfClosing | bogusComment | rawTagOpen | rawEndTagOpen =>
      simp only [charStep]
      split_ifs
      all_goals first
        | exact Nat.zero_le _
        | exact (finish_pending _).le
        | exact beforeAttributeNameStep_pending _ _
        | exact (beforeAttributeNameStep_pending _ _).trans (Nat.le_add_left ..)
        | exact (hemit _ _).le.trans (by rw [hdata]; exact le_rfl)
        | exact (hemit _ _).le.trans (by rw [hraw]; exact le_rfl)
        | simp [State.pending, Nat.add_right_comm]

theorem run_pending {s s' : State η} {cs : List Char} {tokens : List (Token η)} [Quotable η]
    (h : run contentOf s (cs.map .char) = some (s', tokens)) :
    tokens.length + s'.pending ≤ s.pending + cs.length := by
  induction cs generalizing s tokens with
  | nil =>
      cases h
      exact (Nat.zero_add _).le
  | cons c cs ih =>
      obtain ⟨⟨last, rest⟩, hrest, heq⟩ := Option.map_eq_some_iff.mp h
      cases heq
      have hstep : (charStep contentOf s c).2.length + (charStep contentOf s c).1.pending ≤
          s.pending + 1 := charStep_pending s c
      have hlater : rest.length + last.pending ≤ (charStep contentOf s c).1.pending + cs.length :=
        ih hrest
      simp only [List.length_append, List.length_cons]
      omega

/-- A text is read as text exactly when it is free of tags. -/
theorem run_data_text_iff [Quotable η] (cs : List Char) :
    run contentOf (.data : State η) (cs.map .char) =
        some (.data, cs.map fun c => .text (.char c)) ↔ TagFree cs := by
  have hcons : ∀ (c : Char) (cs : List Char), TagFree (c :: cs) ↔
      (c = '<' → ∃ d ∈ cs.head?, opensTag d = false) ∧ TagFree cs := by
    intro c cs
    constructor
    · intro h
      exact ⟨fun hc => h cs (hc ▸ List.suffix_rfl),
        fun rest hrest => h rest (hrest.trans (List.suffix_cons c cs))⟩
    · rintro ⟨hfirst, hlater⟩ rest hrest
      rcases List.suffix_cons_iff.mp hrest with heq | hrest
      · obtain ⟨rfl, rfl⟩ := List.cons.inj heq
        exact hfirst rfl
      · exact hlater rest hrest
  induction cs with
  | nil => exact iff_of_true rfl fun rest hrest => absurd (List.suffix_nil.mp hrest) (by simp)
  | cons c cs ih =>
      refine Iff.trans ?_ ((and_congr_right fun _ => ih).trans (hcons c cs).symm)
      -- the character is text, and the rest is read as before
      have hmore : run contentOf (.data : State η) ((c :: cs).map .char) =
          (run contentOf (.data : State η) (cs.map .char)).map
            (fun rest => (rest.1, .text (.char c) :: rest.2)) →
          (run contentOf (.data : State η) ((c :: cs).map .char) =
              some (.data, (c :: cs).map fun c => .text (.char c)) ↔
            run contentOf (.data : State η) (cs.map .char) =
              some (.data, cs.map fun c => .text (.char c))) := by
        intro h
        rw [h]
        cases run contentOf (.data : State η) (cs.map .char) with
        | none => simp
        | some rest => simp [Prod.ext_iff]
      by_cases hc : c = '<'
      · subst hc
        cases cs with
        | nil => exact iff_of_false (by simp [run, step, charStep, dataStep]) (by simp)
        | cons d ds =>
            have hopen : run contentOf (.data : State η) (('<' :: d :: ds).map .char) =
                run contentOf (.tagOpen : State η) ((d :: ds).map .char) := by
              rw [List.map_cons, run, step, charStep, dataStep, if_pos rfl]
              exact congrFun Option.map_id _
            by_cases hd : opensTag d = true
            · refine iff_of_false (fun h => ?_) (by simp [hd])
              have hstep : (charStep contentOf (.tagOpen : State η) d).2 = [] ∧
                  (charStep contentOf (.tagOpen : State η) d).1.pending = 0 := by
                simp only [opensTag, Bool.or_eq_true, decide_eq_true_eq] at hd
                simp only [charStep]
                split_ifs with hslash halpha hbang
                · exact ⟨rfl, rfl⟩
                · exact ⟨rfl, rfl⟩
                · exact ⟨rfl, rfl⟩
                · rcases hd with ((hd | hd) | hd) | hd
                  · exact absurd hd hslash
                  · exact absurd hd halpha
                  · exact absurd (Or.inl hd) hbang
                  · exact absurd (Or.inr hd) hbang
              rw [hopen] at h
              obtain ⟨⟨last, rest⟩, hrest, heq⟩ := Option.map_eq_some_iff.mp h
              obtain ⟨-, htokens⟩ := Prod.mk.inj heq
              have hpending := run_pending hrest
              rw [hstep.1, List.nil_append] at htokens
              have hlength : rest.length = ds.length + 2 := by
                have hlengths := congrArg List.length htokens
                rwa [List.length_map] at hlengths
              rw [hstep.2] at hpending
              omega
            · have hread : run contentOf (.data : State η) (('<' :: d :: ds).map .char) =
                  (run contentOf (.data : State η) ((d :: ds).map .char)).map
                    (fun rest => (rest.1, .text (.char '<') :: rest.2)) := by
                have hstep : charStep contentOf (.tagOpen : State η) d =
                    emitting ['<'] (dataStep d) := by
                  simp only [opensTag, Bool.or_eq_true, decide_eq_true_eq, not_or] at hd
                  simp [charStep, hd]
                rw [hopen, List.map_cons, run, step, hstep, run, step, charStep, Option.bind_some,
                  Option.bind_some, Option.map_map]
                rfl
              refine (hmore hread).trans (and_iff_right fun _ => ?_).symm
              exact ⟨d, rfl, Bool.not_eq_true _ ▸ hd⟩
      · have hread : run contentOf (.data : State η) ((c :: cs).map .char) =
            (run contentOf (.data : State η) (cs.map .char)).map
              (fun rest => (rest.1, .text (.char c) :: rest.2)) := by
          rw [List.map_cons, run, step, charStep, dataStep, if_neg hc]
          rfl
        exact (hmore hread).trans (and_iff_right fun h => absurd h hc).symm

end Plain

/-! ### Character references -/

section References
variable (table : List (List Char × Char))

/-- The reference at the front of a text: its character, and how many characters
come after its first. -/
def reference (cs : List Char) : Option (Char × Nat) :=
  table.findSome? fun e => if e.1.isPrefixOf cs then some (e.2, e.1.length - 1) else none

/-- Decode a text whose first `n` characters belong to a reference that was read. -/
def decodeFrom : Nat → List Char → List Char
  | _, [] => []
  | n + 1, _ :: cs => decodeFrom n cs
  | 0, c :: cs =>
      match reference table (c :: cs) with
      | some (d, n) => d :: decodeFrom n cs
      | none => c :: decodeFrom 0 cs

def decode (cs : List Char) : List Char := decodeFrom table 0 cs

/-- Every reference begins with an ampersand, and none begins another. -/
structure Unambiguous : Prop where
  ampersand : ∀ e ∈ table, e.1.head? = some '&'
  prefixes : ∀ e ∈ table, ∀ e' ∈ table, e.1 <+: e'.1 → e = e'

/-- What stands for a character when it is escaped: the character, or a reference. -/
def Encodes (e : List Char) (c : Char) : Prop := (e, c) ∈ table ∨ e = [c] ∧ c ≠ '&'

variable {table}

theorem reference_of_ne (h : Unambiguous table) {c : Char} (hc : c ≠ '&') (cs : List Char) :
    reference table (c :: cs) = none := by
  rw [reference, List.findSome?_eq_none_iff]
  intro e he
  obtain ⟨rest, hrest⟩ := List.head?_eq_some_iff.mp (h.ampersand e he)
  simp [hrest, List.isPrefixOf, Ne.symm hc]

/-- No other reference is found in front of one. -/
theorem reference_of_mem (h : Unambiguous table) {e : List Char} {c : Char} (he : (e, c) ∈ table)
    (rest : List Char) : reference table (e ++ rest) = some (c, e.length - 1) := by
  have hfound (e' : List Char × Char) (he' : e' ∈ table)
      (hfront : e'.1.isPrefixOf (e ++ rest) = true) : e' = (e, c) := by
    rcases List.prefix_or_prefix_of_prefix (List.isPrefixOf_iff_prefix.mp hfront)
      (List.prefix_append e rest) with hbefore | hafter
    · exact h.prefixes e' he' (e, c) he hbefore
    · exact (h.prefixes (e, c) he e' he' hafter).symm
  cases hreference : reference table (e ++ rest) with
  | none =>
      have hnone := List.findSome?_eq_none_iff.mp hreference (e, c) he
      simp at hnone
  | some found =>
      obtain ⟨e', he', hread⟩ := List.exists_of_findSome?_eq_some hreference
      split at hread
      · rename_i hfront
        obtain rfl := hfound e' he' hfront
        exact hread.symm
      · cases hread

theorem decodeFrom_length (e rest : List Char) :
    decodeFrom table e.length (e ++ rest) = decodeFrom table 0 rest := by
  induction e with
  | nil => rfl
  | cons c e ih => exact ih

theorem decode_encodes (h : Unambiguous table) {e : List Char} {c : Char}
    (he : Encodes table e c) (rest : List Char) :
    decode table (e ++ rest) = c :: decode table rest := by
  rcases he with he | ⟨rfl, hc⟩
  · obtain ⟨tail, rfl⟩ := List.head?_eq_some_iff.mp (h.ampersand _ he)
    have hread := reference_of_mem h he rest
    rw [List.cons_append] at hread ⊢
    rw [decode, decodeFrom, hread]
    exact congrArg (c :: ·) (decodeFrom_length tail rest)
  · rw [List.singleton_append, decode, decodeFrom, reference_of_ne h hc]
    rfl

/-- A reader gets back what an escape was given that encodes each character. -/
theorem decode_flatMap (h : Unambiguous table) {encode : Char → List Char}
    (hencode : ∀ c, Encodes table (encode c) c) (cs rest : List Char) :
    decode table (cs.flatMap encode ++ rest) = cs ++ decode table rest := by
  induction cs with
  | nil => rfl
  | cons c cs ih =>
      rw [List.flatMap_cons, List.append_assoc, decode_encodes h (hencode c), ih]
      rfl

end References

end TodoRust.Lib.Html
