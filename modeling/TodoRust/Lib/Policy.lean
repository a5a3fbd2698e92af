import Mathlib.Data.List.Basic

/-!
# Content security policies

A policy is written as its directives with semicolons between them, and a directive as its
name and its sources with blanks between them. A browser splits at commas, semicolons and
blanks, so a policy whose words have none of these in them is read as it was written.
-/

namespace TodoRust.Lib.Policy

/-- A name and its sources. -/
structure Directive where
  name : List Char
  sources : List (List Char)
  deriving DecidableEq

def Directive.words (d : Directive) : List (List Char) := d.name :: d.sources

/-! ### Writing -/

def Directive.serialize (d : Directive) : List Char := [' '].intercalate d.words

def serialize (policy : List Directive) : List Char :=
  [';', ' '].intercalate (policy.map Directive.serialize)

/-! ### Reading -/

/-- The whitespace of ASCII. -/
def isBlank (c : Char) : Bool := c = ' ' || c = '\t' || c = '\n' || c = '\r' || c.toNat = 12

def wordsOf (text : List Char) : List (List Char) :=
  (text.splitOnP isBlank).filter fun word => !word.isEmpty

def parseDirective (token : List Char) : Option Directive :=
  match wordsOf token with
  | [] => none
  | name :: sources => some ⟨name, sources⟩

def parse (text : List Char) : List Directive := (text.splitOn ';').filterMap parseDirective

/-- The policies of a header line. -/
def parseLine (text : List Char) : List (List Directive) := (text.splitOn ',').map parse

/-- The sources of a directive; of several with the name, the first counts. -/
def sourcesOf (policy : List Directive) (name : List Char) : Option (List (List Char)) :=
  (policy.find? fun d => d.name == name).map Directive.sources

/-- The source that stands for a nonce. -/
def nonceSource (nonce : List Char) : List Char := "'nonce-".toList ++ nonce ++ ['\'']

/-- The policy lets an inline script with this nonce run. -/
def Admits (policy : List Directive) (nonce : List Char) : Prop :=
  nonce ≠ [] ∧ ∃ sources, sourcesOf policy "script-src".toList = some sources ∧
    nonceSource nonce ∈ sources

/-- The policy lets a script of the page's own origin run. -/
def AdmitsOwn (policy : List Directive) : Prop :=
  ∃ sources, sourcesOf policy "script-src".toList = some sources ∧ "'self'".toList ∈ sources

theorem nonceSource_injective : Function.Injective nonceSource := by
  intro nonce nonce' h
  exact List.append_cancel_left (List.append_cancel_right h)

/-! ### What is written is read -/

/-- A word that reading does not break. -/
def IsWord (word : List Char) : Prop :=
  word ≠ [] ∧ ∀ c ∈ word, isBlank c = false ∧ c ≠ ';' ∧ c ≠ ','

/-- The words of every directive are not broken. -/
def WellFormed (policy : List Directive) : Prop := ∀ d ∈ policy, ∀ word ∈ d.words, IsWord word

theorem mem_intercalate {sep : List Char} {parts : List (List Char)} {c : Char}
    (h : c ∈ sep.intercalate parts) : c ∈ sep ∨ ∃ part ∈ parts, c ∈ part := by
  induction parts with
  | nil => cases h
  | cons part parts ih =>
      cases parts with
      | nil =>
          rw [List.intercalate_singleton] at h
          exact Or.inr ⟨part, List.mem_cons_self .., h⟩
      | cons next rest =>
          rw [List.intercalate_cons_cons, List.mem_append, List.mem_append] at h
          rcases h with (hpart | hsep) | hrest
          · exact Or.inr ⟨part, List.mem_cons_self .., hpart⟩
          · exact Or.inl hsep
          · rcases ih hrest with hsep | ⟨part', hmem, hc⟩
            · exact Or.inl hsep
            · exact Or.inr ⟨part', List.mem_cons_of_mem _ hmem, hc⟩

theorem wordsOf_blank (text : List Char) : wordsOf (' ' :: text) = wordsOf text := by
  have hsplit : ([] ++ ' ' :: text).splitOnP isBlank = [] :: text.splitOnP isBlank :=
    List.splitOnP_append_cons_of_forall_mem (fun c hc => by cases hc) ' ' rfl text
  rw [List.nil_append] at hsplit
  rw [wordsOf, hsplit]
  rfl

theorem wordsOf_word {word : List Char} (h : IsWord word) : wordsOf word = [word] := by
  have hsplit : word.splitOnP isBlank = [word] :=
    List.splitOnP_eq_singleton fun c hc => (h.2 c hc).1
  rw [wordsOf, hsplit]
  simp [h.1]

theorem wordsOf_word_blank {word : List Char} (h : IsWord word) (rest : List Char) :
    wordsOf (word ++ ' ' :: rest) = word :: wordsOf rest := by
  have hsplit : (word ++ ' ' :: rest).splitOnP isBlank = word :: rest.splitOnP isBlank :=
    List.splitOnP_append_cons_of_forall_mem (fun c hc => (h.2 c hc).1) ' ' rfl rest
  rw [wordsOf, hsplit, wordsOf]
  simp [h.1]

theorem wordsOf_intercalate {words : List (List Char)} (h : ∀ word ∈ words, IsWord word) :
    wordsOf ([' '].intercalate words) = words := by
  induction words with
  | nil => rfl
  | cons word words ih =>
      obtain ⟨hword, hrest⟩ := List.forall_mem_cons.mp h
      cases words with
      | nil =>
          rw [List.intercalate_singleton]
          exact wordsOf_word hword
      | cons next rest =>
          rw [List.intercalate_cons_cons, List.append_assoc, List.singleton_append,
            wordsOf_word_blank hword, ih hrest]

section Directives
variable {d : Directive}

theorem parseDirective_serialize (h : ∀ word ∈ d.words, IsWord word) :
    parseDirective d.serialize = some d := by
  rw [parseDirective, Directive.serialize, wordsOf_intercalate h]
  rfl

/-- No separator of directives or policies is in a directive. -/
theorem separator_notMem (h : ∀ word ∈ d.words, IsWord word) {c : Char} (hc : c = ';' ∨ c = ',') :
    c ∉ d.serialize := by
  intro hmem
  rcases mem_intercalate hmem with hblank | ⟨word, hword, hcw⟩
  · rw [List.mem_singleton] at hblank
    rcases hc with rfl | rfl
    · cases hblank
    · cases hblank
  · obtain ⟨_, hsemi, hcomma⟩ := (h word hword).2 c hcw
    exact hc.elim hsemi hcomma

end Directives

/-- The blank behind a semicolon is skipped. -/
theorem parse_blank (text : List Char) : parse (' ' :: text) = parse text := by
  have hdirective (token : List Char) : parseDirective (' ' :: token) = parseDirective token := by
    rw [parseDirective, wordsOf_blank, parseDirective]
  obtain ⟨token, tokens, hsplit⟩ := List.exists_cons_of_ne_nil (List.splitOn_ne_nil ';' text)
  rw [parse, List.splitOn_cons_eq_if_modifyHead, hsplit, parse, hsplit]
  simp only [show (' ' == ';') = false from rfl, Bool.false_eq_true, if_false, List.modifyHead_cons,
    List.filterMap_cons, hdirective]

theorem parse_serialize {policy : List Directive} (h : WellFormed policy) :
    parse (serialize policy) = policy := by
  induction policy with
  | nil => rfl
  | cons d policy ih =>
      obtain ⟨hd, hrest⟩ := List.forall_mem_cons.mp h
      have hsemi : ';' ∉ d.serialize := separator_notMem hd (Or.inl rfl)
      cases policy with
      | nil =>
          rw [serialize, List.map_singleton, List.intercalate_singleton, parse,
            List.splitOn_eq_singleton hsemi, List.filterMap_cons, parseDirective_serialize hd]
          rfl
      | cons next rest =>
          have htext : serialize (d :: next :: rest) =
              d.serialize ++ ';' :: ' ' :: serialize (next :: rest) := by
            rw [serialize, List.map_cons, List.map_cons, List.intercalate_cons_cons,
              List.append_assoc]
            rfl
          have hparse : parse (d.serialize ++ ';' :: ' ' :: serialize (next :: rest)) =
              d :: parse (' ' :: serialize (next :: rest)) := by
            rw [parse, List.splitOn_append_cons_self_of_not_mem hsemi, List.filterMap_cons,
              parseDirective_serialize hd]
            rfl
          rw [htext, hparse, parse_blank, ih hrest]

/-- A line with one policy is read as that policy. -/
theorem parseLine_serialize {policy : List Directive} (h : WellFormed policy) :
    parseLine (serialize policy) = [policy] := by
  have hcomma : ',' ∉ serialize policy := by
    intro hmem
    rcases mem_intercalate hmem with hsep | ⟨part, hpart, hc⟩
    · cases hsep with
      | tail _ hsep => cases hsep with
        | tail _ hsep => cases hsep
    · obtain ⟨d, hd, rfl⟩ := List.mem_map.mp hpart
      exact separator_notMem (h d hd) (Or.inr rfl) hc
  rw [parseLine, List.splitOn_eq_singleton hcomma, List.map_singleton, parse_serialize h]

end TodoRust.Lib.Policy
