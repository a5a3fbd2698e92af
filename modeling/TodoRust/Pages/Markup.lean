import TodoRust.Pages.Templates

/-!
# The markup of a page

Every template is read from text to text: all of its values stand in text or between
double quotes, and none of them can end what it stands in. The tags of a page are
therefore those of its template, and what is put in decodes to what it was.
-/

namespace TodoRust.Pages
open Lib Html

/-! ### Escaping -/

/-- The references that the escapes write. -/
def references : List (List Char × Char) :=
  [("&amp;".toList, '&'), ("&lt;".toList, '<'), ("&gt;".toList, '>'), ("&quot;".toList, '"'),
    ("&#39;".toList, '\''), ("&#x27;".toList, '\''), ("&#x2f;".toList, '/')]

theorem references_unambiguous : Unambiguous references where
  ampersand := List.forall_iff_forall_mem.mp (by decide)
  prefixes := by
    have hall : ∀ e ∈ references, ∀ e' ∈ references, e.1.isPrefixOf e'.1 = true → e = e' := by
      decide
    exact fun e he e' he' hfront => hall e he e' he' (List.isPrefixOf_iff_prefix.mpr hfront)

theorem htmlEscape_encodes (c : Char) : Encodes references (htmlEscape c) c := by
  unfold htmlEscape
  split_ifs with hlt hgt hamp hquot hapos hslash
  all_goals first
    | exact Or.inr ⟨rfl, hamp⟩
    | subst c; exact Or.inl (by decide)

theorem entities_subset : Markup.entities ⊆ references := by decide

theorem encodes_of_markup {e : List Char} {c : Char} (h : Markup.Encodes e c) :
    Encodes references e c :=
  h.imp_left fun hmem => entities_subset hmem

theorem Label.escape_encodes (label : Label) (c : Char) :
    Encodes references (label.escape c) c := by
  cases label with
  | emit e => exact htmlEscape_encodes c
  | iso | style => exact encodes_of_markup (I18n.attrChar_encodes c)
  | inner => exact encodes_of_markup (I18n.textChar_encodes c)

/-- What is put in decodes to what it was, whatever follows it. -/
theorem Slot.decode_raw (slot : Slot) (rest : List Char) :
    decode references (slot.raw ++ rest) = slot.value.toList ++ decode references rest :=
  decode_flatMap references_unambiguous slot.label.escape_encodes slot.value.toList rest

/-- No reference holds a character that ends a text or a value. -/
theorem references_clear : ∀ e ∈ references, '<' ∉ e.1 ∧ '"' ∉ e.1 := by decide

theorem Label.escape_clear {label : Label} {c d : Char} (hd : d ∈ label.escape c) :
    d ≠ '<' ∧ (Quotable.quotable label = true → d ≠ '"') := by
  rcases label.escape_encodes c with href | ⟨hsame, -⟩
  · obtain ⟨hlt, hquot⟩ := references_clear _ href
    exact ⟨fun h => hlt (h ▸ hd), fun _ h => hquot (h ▸ hd)⟩
  · -- the character is left as it is, so it is none that is escaped
    rw [hsame] at hd
    obtain rfl := List.mem_singleton.mp hd
    constructor
    · rintro rfl
      cases label with
      | emit e => exact absurd hsame (show htmlEscape '<' ≠ ['<'] by decide)
      | iso | style | inner => exact absurd hsame (by decide)
    · rintro hquotable rfl
      cases label with
      | emit e => exact absurd hsame (show htmlEscape '"' ≠ ['"'] by decide)
      | iso | style => exact absurd hsame (by decide)
      | inner => cases hquotable

/-- What stands in the page for a value. -/
def filled (slot : Slot) : List (Cell Empty) := slot.raw.map .char

theorem filled_clear (slot : Slot) :
    ∀ cell ∈ filled slot, cell.Clear (Quotable.quotable slot) := by
  intro cell hcell
  obtain ⟨d, hd, rfl⟩ := List.mem_map.mp hcell
  obtain ⟨c, -, hdc⟩ := List.mem_flatMap.mp hd
  exact Label.escape_clear hdc

theorem fillCells_filled (cells : List (Cell Slot)) :
    fillCells filled cells = (pageText cells).map .char := by
  unfold fillCells pageText
  rw [List.map_flatMap]
  refine List.flatMap_congr fun cell _ => ?_
  cases cell with
  | char c => rfl
  | hole slot => rfl

/-! ### Reading a page -/

/-- How browsers read the content of an element, with scripts or without. Where scripts
run, no reference in a `noscript` is decoded. -/
def content (scripting : Bool) (name : List Char) : Content :=
  if name = (lit "title").chars ∨ name = (lit "textarea").chars then .text
  else if name = (lit "noscript").chars then (if scripting then .raw else .markup)
  else if name = (lit "script").chars ∨ name = (lit "style").chars then .code
  else .markup

/-- The tokens of the text of a page. -/
def pageTokens (scripting : Bool) (text : List Char) : Option (List (Token Empty)) :=
  tokenize (content scripting) (text.map .char)

/-- A page that is read from text to text has the tokens of its template. -/
theorem ReadsTo.pageTokens {scripting : Bool} {allowed : Token Label → Bool}
    {cells : List (Cell Slot)} (h : ReadsTo (content scripting) allowed .data cells [.data]) :
    ∃ tokens : List (Token Slot),
      run (content scripting) .data cells = some (.data, tokens) ∧
      pageTokens scripting (pageText cells) = some (fillTokens filled tokens) ∧
      run (content scripting) .data (labelled cells) =
        some (.data, fillTokens (relabel Slot.label) tokens) ∧
      ∀ token ∈ fillTokens (relabel Slot.label) tokens, allowed token = true := by
  obtain ⟨s', hs', marked, hrun, hallowed⟩ := h
  obtain rfl := List.mem_singleton.mp hs'
  have hmarked : run (content scripting) (State.fill (relabel Slot.label) .data)
      (fillCells (relabel Slot.label) cells) =
        (run (content scripting) .data cells).map (Step.fill (relabel Slot.label)) :=
    run_relabel (f := Slot.label) (fun _ => rfl) .data cells
  rw [show run (content scripting) (State.fill (relabel Slot.label) .data)
    (fillCells (relabel Slot.label) cells) = _ from hrun] at hmarked
  obtain ⟨⟨s, tokens⟩, hcells, hstep⟩ := Option.map_eq_some_iff.mp hmarked.symm
  obtain ⟨hdata, rfl⟩ := Prod.mk.inj hstep
  obtain rfl : s = .data := by
    cases s with
    | data => rfl
    | tagOpen | endTagOpen | tagName | beforeAttributeName | attributeName | afterAttributeName
    | beforeAttributeValue | attributeValue | afterAttributeValue | selfClosing | bogusComment
    | rawText | rawTagOpen | rawEndTagOpen => cases hdata
  refine ⟨tokens, hcells, ?_, hrun, hallowed⟩
  have htokens : tokenize (content scripting) cells = some tokens := by
    rw [tokenize, hcells]
  rw [Pages.pageTokens, ← fillCells_filled]
  exact tokenize_fill filled_clear htokens

end TodoRust.Pages
