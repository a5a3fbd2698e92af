import Mathlib.Data.List.Basic
import Mathlib.Data.List.Infix

/-!
# Markup of one element

A tokenizer for tags and text, with the states of the HTML tokenizer that a text
without comments and raw-text elements reaches, and the character references that
escaping produces. What is done to line ends and to NUL before and after it is not
part of it.
-/

namespace TodoRust.Lib.Markup

/-! ### Character references -/

/-- The references, with the characters they stand for. -/
def entities : List (List Char × Char) :=
  [("&amp;".toList, '&'), ("&lt;".toList, '<'), ("&gt;".toList, '>'), ("&quot;".toList, '"'),
    ("&#39;".toList, '\'')]

/-- The reference at the front of a text: its character, and how many characters
come after its first. -/
def reference (cs : List Char) : Option (Char × Nat) :=
  entities.findSome? fun e => if e.1.isPrefixOf cs then some (e.2, e.1.length - 1) else none

/-- Decode a text whose first `n` characters belong to a reference that was read. -/
def decodeFrom : Nat → List Char → List Char
  | _, [] => []
  | n + 1, _ :: cs => decodeFrom n cs
  | 0, c :: cs =>
      match reference (c :: cs) with
      | some (d, n) => d :: decodeFrom n cs
      | none => c :: decodeFrom 0 cs

def decode (cs : List Char) : List Char := decodeFrom 0 cs

/-- Every ampersand begins a reference. -/
def ReferencesOnly (cs : List Char) : Prop :=
  ∀ t, '&' :: t <:+ cs → ∃ e ∈ entities, e.1 <+: '&' :: t

theorem reference_of_ne {c : Char} (h : c ≠ '&') (cs : List Char) : reference (c :: cs) = none := by
  rw [reference, List.findSome?_eq_none_iff]
  intro e he
  have hhead : ∀ e ∈ entities, e.1.head? = some '&' := List.forall_iff_forall_mem.mp (by decide)
  obtain ⟨rest, hrest⟩ := List.head?_eq_some_iff.mp (hhead e he)
  simp [hrest, List.isPrefixOf, Ne.symm h]

/-- What stands for a character when it is escaped: the character, or a reference. -/
def Encodes (e : List Char) (c : Char) : Prop := (e, c) ∈ entities ∨ e = [c] ∧ c ≠ '&'

theorem decodeFrom_encodes {e : List Char} {c : Char} (h : Encodes e c) (rest : List Char) :
    decodeFrom 0 (e ++ rest) = c :: decodeFrom 0 rest := by
  rcases h with h | ⟨rfl, hc⟩
  · simp only [entities, List.mem_cons, Prod.mk.injEq, List.not_mem_nil, or_false] at h
    rcases h with ⟨rfl, rfl⟩ | ⟨rfl, rfl⟩ | ⟨rfl, rfl⟩ | ⟨rfl, rfl⟩ | ⟨rfl, rfl⟩
    all_goals rfl
  · rw [List.singleton_append, decodeFrom, reference_of_ne hc]

section Escape
variable {encode : Char → List Char}

/-- Decoding inverts an escape that encodes each character. -/
theorem decode_flatMap (h : ∀ c, Encodes (encode c) c) (s : List Char) :
    decode (s.flatMap encode) = s := by
  induction s with
  | nil => rfl
  | cons c s ih =>
      rw [decode, List.flatMap_cons, decodeFrom_encodes (h c)]
      exact congrArg (c :: ·) ih

/-- An ampersand is the first character of what it encodes. -/
theorem Encodes.ampersand {e : List Char} {c : Char} (h : Encodes e c) {before after : List Char}
    (he : e = before ++ '&' :: after) : before = [] ∧ ∃ c, (e, c) ∈ entities := by
  rcases h with h | ⟨rfl, hc⟩
  · have htail : ∀ e ∈ entities, '&' ∉ e.1.tail := List.forall_iff_forall_mem.mp (by decide)
    refine ⟨?_, c, h⟩
    cases before with
    | nil => rfl
    | cons b before =>
        have hmem := htail _ h
        rw [he] at hmem
        exact absurd (by simp) hmem
  · have hmem : '&' ∈ [c] := by
      rw [he]
      simp
    exact absurd (List.mem_singleton.mp hmem).symm hc

theorem referencesOnly_flatMap (h : ∀ c, Encodes (encode c) c) (s : List Char) :
    ReferencesOnly (s.flatMap encode) := by
  induction s with
  | nil =>
      intro t ht
      exact absurd (List.suffix_nil.mp ht) (List.cons_ne_nil _ _)
  | cons c s ih =>
      rintro t ⟨before, ht⟩
      rw [List.flatMap_cons] at ht
      rcases List.append_eq_append_iff.mp ht with ⟨rest, hencode, hsplit⟩ | ⟨rest, -, hrest⟩
      · cases rest with
        | nil => exact ih t ⟨[], hsplit⟩
        | cons d rest =>
            -- the ampersand is inside what stands for `c`
            obtain ⟨rfl, hrest⟩ := List.cons.inj hsplit
            obtain ⟨rfl, c', hmem⟩ := (h c).ampersand hencode
            refine ⟨_, hmem, s.flatMap encode, ?_⟩
            rw [hencode, hrest]
            rfl
      · exact ih t ⟨rest, hrest.symm⟩

/-- The characters that begin or end a tag or an attribute value. -/
def delimiters : List Char := ['<', '>', '"', '\'']

/-- A delimiter that is not left as it is does not occur. -/
theorem not_mem_flatMap (h : ∀ c, Encodes (encode c) c) {d : Char} (hd : d ∈ delimiters)
    (hne : encode d ≠ [d]) (s : List Char) : d ∉ s.flatMap encode := by
  intro hmem
  obtain ⟨c, -, hc⟩ := List.mem_flatMap.mp hmem
  rcases h c with hentity | ⟨hsame, -⟩
  · have hclear : (entities.all fun e => e.1.all fun d => !delimiters.contains d) = true := by
      decide
    have hfree := List.all_eq_true.mp (List.all_eq_true.mp hclear _ hentity) d hc
    simp [hd] at hfree
  · rw [hsame] at hc
    obtain rfl := List.mem_singleton.mp hc
    exact hne hsame

end Escape

/-! ### Tags -/

structure Tag where
  closing : Bool
  name : List Char
  attributes : List (List Char × List Char)
  deriving DecidableEq

/-- A repeated attribute is dropped. -/
def Tag.add (tag : Tag) (name value : List Char) : Tag :=
  if tag.attributes.any (·.1 == name) then tag
  else { tag with attributes := tag.attributes ++ [(name, value)] }

inductive Token
  | tag (tag : Tag)
  | char (c : Char)
  deriving DecidableEq

inductive Quote
  | double
  | single
  | unquoted
  deriving DecidableEq

inductive State
  | data
  | tagOpen
  | endTagOpen
  | tagName (tag : Tag)
  | beforeAttributeName (tag : Tag)
  | attributeName (tag : Tag) (name : List Char)
  | afterAttributeName (tag : Tag) (name : List Char)
  | beforeAttributeValue (tag : Tag) (name : List Char)
  | attributeValue (quote : Quote) (tag : Tag) (name value : List Char)
  | afterAttributeValue (tag : Tag)
  | selfClosing (tag : Tag)
  | bogusComment
  deriving DecidableEq

def isSpace (c : Char) : Bool := c = ' ' || c = '\t' || c = '\n' || c.toNat = 12

def dataStep (c : Char) : State × List Token :=
  if c = '<' then (.tagOpen, []) else (.data, [.char c])

def beforeAttributeNameStep (tag : Tag) (c : Char) : State × List Token :=
  if isSpace c then (.beforeAttributeName tag, [])
  else if c = '/' then (.selfClosing tag, [])
  else if c = '>' then (.data, [.tag tag])
  else (.attributeName tag [c.toLower], [])

/-- One character. Where the tokenizer of HTML looks at a character again in another
state, the step of that state is taken. -/
def step : State → Char → State × List Token
  | .data, c => dataStep c
  | .tagOpen, c =>
      if c = '/' then (.endTagOpen, [])
      else if c.isAlpha then (.tagName ⟨false, [c.toLower], []⟩, [])
      else if c = '!' || c = '?' then (.bogusComment, [])
      else
        let (state, tokens) := dataStep c
        (state, .char '<' :: tokens)
  | .endTagOpen, c =>
      if c.isAlpha then (.tagName ⟨true, [c.toLower], []⟩, [])
      else if c = '>' then (.data, [])
      else (.bogusComment, [])
  | .tagName tag, c =>
      if isSpace c then (.beforeAttributeName tag, [])
      else if c = '/' then (.selfClosing tag, [])
      else if c = '>' then (.data, [.tag tag])
      else (.tagName { tag with name := tag.name ++ [c.toLower] }, [])
  | .beforeAttributeName tag, c => beforeAttributeNameStep tag c
  | .attributeName tag name, c =>
      if isSpace c then (.afterAttributeName tag name, [])
      else if c = '/' then (.selfClosing (tag.add name []), [])
      else if c = '>' then (.data, [.tag (tag.add name [])])
      else if c = '=' then (.beforeAttributeValue tag name, [])
      else (.attributeName tag (name ++ [c.toLower]), [])
  | .afterAttributeName tag name, c =>
      if isSpace c then (.afterAttributeName tag name, [])
      else if c = '=' then (.beforeAttributeValue tag name, [])
      else beforeAttributeNameStep (tag.add name []) c
  | .beforeAttributeValue tag name, c =>
      if isSpace c then (.beforeAttributeValue tag name, [])
      else if c = '"' then (.attributeValue .double tag name [], [])
      else if c = '\'' then (.attributeValue .single tag name [], [])
      else if c = '>' then (.data, [.tag (tag.add name [])])
      else (.attributeValue .unquoted tag name [c], [])
  | .attributeValue .double tag name value, c =>
      if c = '"' then (.afterAttributeValue (tag.add name value), [])
      else (.attributeValue .double tag name (value ++ [c]), [])
  | .attributeValue .single tag name value, c =>
      if c = '\'' then (.afterAttributeValue (tag.add name value), [])
      else (.attributeValue .single tag name (value ++ [c]), [])
  | .attributeValue .unquoted tag name value, c =>
      if isSpace c then (.beforeAttributeName (tag.add name value), [])
      else if c = '>' then (.data, [.tag (tag.add name value)])
      else (.attributeValue .unquoted tag name (value ++ [c]), [])
  | .afterAttributeValue tag, c => beforeAttributeNameStep tag c
  | .selfClosing tag, c =>
      if c = '>' then (.data, [.tag tag]) else beforeAttributeNameStep tag c
  | .bogusComment, c => if c = '>' then (.data, []) else (.bogusComment, [])

def run : State → List Char → State × List Token
  | state, [] => (state, [])
  | state, c :: cs =>
      let next := step state c
      let rest := run next.1 cs
      (rest.1, next.2 ++ rest.2)

/-- The tokens of a text, unless it ends inside a tag. -/
def tokenize (cs : List Char) : Option (List Token) :=
  match run .data cs with
  | (.data, tokens) => some tokens
  | _ => none

theorem run_append (state : State) (first rest : List Char) :
    run state (first ++ rest) =
      ((run (run state first).1 rest).1,
        (run state first).2 ++ (run (run state first).1 rest).2) := by
  induction first generalizing state with
  | nil => rfl
  | cons c first ih =>
      rw [List.cons_append, run, ih, run]
      simp only [List.append_assoc]

/-- A value is read up to its closing quote. -/
theorem run_attributeValue {raw : List Char} (h : '"' ∉ raw) (tag : Tag)
    (name value rest : List Char) :
    run (.attributeValue .double tag name value) (raw ++ '"' :: rest) =
      run (.afterAttributeValue (tag.add name (value ++ raw))) rest := by
  induction raw generalizing value with
  | nil => simp [run, step]
  | cons c raw ih =>
      simp only [List.mem_cons, not_or] at h
      have hstep : step (.attributeValue .double tag name value) c =
          (.attributeValue .double tag name (value ++ [c]), []) := if_neg (Ne.symm h.1)
      rw [List.cons_append, run, hstep, ih h.2, List.append_assoc]
      rfl

/-- Text is read up to the next tag. -/
theorem run_data {raw : List Char} (h : '<' ∉ raw) (rest : List Char) :
    run .data (raw ++ rest) = ((run .data rest).1, raw.map .char ++ (run .data rest).2) := by
  induction raw with
  | nil => rfl
  | cons c raw ih =>
      simp only [List.mem_cons, not_or] at h
      have hstep : step .data c = (.data, [.char c]) := if_neg (Ne.symm h.1)
      rw [List.cons_append, run, hstep, ih h.2]
      rfl

/-! ### One element -/

/-- An element with text in it. -/
structure Element where
  name : String
  attributes : List (String × String)
  text : String
  deriving DecidableEq

def Element.attribute (el : Element) (name : String) : Option String := el.attributes.lookup name

/-- The text up to the closing tag, if nothing else is there. -/
def contentOf (name : List Char) : List Token → Option (List Char)
  | [.tag tag] => if tag.closing = true ∧ tag.name = name then some [] else none
  | .char c :: tokens => (contentOf name tokens).map (c :: ·)
  | _ => none

/-- The text as exactly one element, with the references in it decoded. -/
def parseElement (s : String) : Option Element :=
  match tokenize s.toList with
  | some (.tag tag :: tokens) =>
      if tag.closing then none
      else (contentOf tag.name tokens).map fun text =>
        { name := String.ofList tag.name
          attributes := tag.attributes.map fun a => (String.ofList a.1, String.ofList (decode a.2))
          text := String.ofList (decode text) }
  | _ => none

theorem contentOf_chars (name raw : List Char) :
    contentOf name (raw.map .char ++ [.tag ⟨true, name, []⟩]) = some raw := by
  induction raw with
  | nil => simp [contentOf]
  | cons c raw ih => simp [contentOf, ih]

end TodoRust.Lib.Markup
