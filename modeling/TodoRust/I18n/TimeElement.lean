import TodoRust.I18n.FormatterBound
import TodoRust.Lib.Markup

/-!
# The markup of a date

The `<time>` element is marked as safe and not escaped again, so its own escaping
has to keep whatever is formatted inside it. Both escapes work on one character at
a time, and a reader of the markup gets the texts back that were put in.
-/

namespace TodoRust.I18n
open Lib Domain Markup

/-- What `escapeAttr` writes for one character. -/
def attrChar (c : Char) : List Char :=
  if c = '&' then "&amp;".toList else if c = '<' then "&lt;".toList
  else if c = '>' then "&gt;".toList else if c = '"' then "&quot;".toList
  else if c = '\'' then "&#39;".toList else [c]

/-- What `escapeText` writes for one character. -/
def textChar (c : Char) : List Char :=
  if c = '&' then "&amp;".toList else if c = '<' then "&lt;".toList
  else if c = '>' then "&gt;".toList else [c]

@[simp]
theorem escapeAttr_toList (s : String) : (escapeAttr s).toList = s.toList.flatMap attrChar :=
  String.toList_ofList

@[simp]
theorem escapeText_toList (s : String) : (escapeText s).toList = s.toList.flatMap textChar :=
  String.toList_ofList

theorem attrChar_encodes (c : Char) : Encodes (attrChar c) c := by
  unfold attrChar
  split_ifs with hamp hlt hgt hquot hapos
  all_goals first
    | exact Or.inr ⟨rfl, hamp⟩
    | subst c; exact Or.inl (by decide)

theorem textChar_encodes (c : Char) : Encodes (textChar c) c := by
  unfold textChar
  split_ifs with hamp hlt hgt
  all_goals first
    | exact Or.inr ⟨rfl, hamp⟩
    | subst c; exact Or.inl (by decide)

/-- No delimiter is left in an escaped attribute value. -/
theorem escapeAttr_delimiters (s : String) : ∀ d ∈ delimiters, d ∉ (escapeAttr s).toList := by
  intro d hd
  have hreplaced : ∀ d ∈ delimiters, attrChar d ≠ [d] := List.forall_iff_forall_mem.mp (by decide)
  rw [escapeAttr_toList]
  exact not_mem_flatMap attrChar_encodes hd (hreplaced d hd) s.toList

/-- No angle bracket is left in escaped text. -/
theorem escapeText_brackets (s : String) : ∀ d ∈ ['<', '>'], d ∉ (escapeText s).toList := by
  intro d hd
  have hreplaced : ∀ d ∈ ['<', '>'], d ∈ delimiters ∧ textChar d ≠ [d] :=
    List.forall_iff_forall_mem.mp (by decide)
  rw [escapeText_toList]
  exact not_mem_flatMap textChar_encodes (hreplaced d hd).1 (hreplaced d hd).2 s.toList

theorem decode_escapeAttr (s : String) : decode (escapeAttr s).toList = s.toList := by
  rw [escapeAttr_toList, decode_flatMap attrChar_encodes]

theorem decode_escapeText (s : String) : decode (escapeText s).toList = s.toList := by
  rw [escapeText_toList, decode_flatMap textChar_encodes]

/-! ### The element -/

/-- The tag the element begins with. -/
def timeTag (iso styleStr : String) : Tag :=
  { closing := false
    name := "time".toList
    attributes := [("datetime".toList, (escapeAttr iso).toList),
      ("data-style".toList, (escapeAttr styleStr).toList)] }

/-- The tokenizer reads a start tag, the text, and an end tag. -/
theorem tokenize_timeElement (iso styleStr inner : String) :
    tokenize (timeElement iso styleStr inner).toList =
      some (.tag (timeTag iso styleStr) ::
        ((escapeText inner).toList.map .char ++ [.tag ⟨true, "time".toList, []⟩])) := by
  have hquote (s : String) : '"' ∉ (escapeAttr s).toList :=
    escapeAttr_delimiters s '"' (by decide)
  have htext : '<' ∉ (escapeText inner).toList := escapeText_brackets inner '<' (by decide)
  -- what is fixed in the element, in front of each text and after the last
  have hopen : run .data "<time datetime=\"".toList =
      (.attributeValue .double ⟨false, "time".toList, []⟩ "datetime".toList [], []) := by decide
  have hnext (tag : Tag) : run (.afterAttributeValue tag) " data-style=\"".toList =
      (.attributeValue .double tag "data-style".toList [], []) := by
    simp [run, step, beforeAttributeNameStep, isSpace]
  have hclose : run .data "</time>".toList = (.data, [.tag ⟨true, "time".toList, []⟩]) := by decide
  have hsplit : (timeElement iso styleStr inner).toList =
      "<time datetime=\"".toList ++ ((escapeAttr iso).toList ++ '"' ::
        (" data-style=\"".toList ++ ((escapeAttr styleStr).toList ++ '"' ::
          ('>' :: ((escapeText inner).toList ++ "</time>".toList))))) := by
    have hstyle : "\" data-style=\"".toList = '"' :: " data-style=\"".toList := by decide
    have hend : "\">".toList = ['"', '>'] := by decide
    delta timeElement
    simp only [String.toList_append, hstyle, hend, List.append_assoc, List.cons_append,
      List.nil_append]
  rw [tokenize, hsplit, run_append, hopen]
  dsimp only
  rw [run_attributeValue (hquote iso), List.nil_append]
  have hadd (value : List Char) : (⟨false, "time".toList, []⟩ : Tag).add "datetime".toList value =
      ⟨false, "time".toList, [("datetime".toList, value)]⟩ := rfl
  rw [hadd, run_append, hnext]
  dsimp only
  rw [run_attributeValue (hquote styleStr), List.nil_append]
  have hadd' (datetime style : List Char) :
      (⟨false, "time".toList, [("datetime".toList, datetime)]⟩ : Tag).add "data-style".toList
        style =
        ⟨false, "time".toList, [("datetime".toList, datetime), ("data-style".toList, style)]⟩ :=
    rfl
  have hend (tag : Tag) : step (.afterAttributeValue tag) '>' = (.data, [.tag tag]) := rfl
  rw [hadd', run, hend]
  dsimp only
  rw [run_data htext, hclose]
  simp only [List.nil_append, List.singleton_append, timeTag]

/-- The markup of a date is one element, and what is in it is what was put in. -/
theorem parseElement_timeElement (iso styleStr inner : String) :
    parseElement (timeElement iso styleStr inner) =
      some ⟨"time", [("datetime", iso), ("data-style", styleStr)], inner⟩ := by
  rw [parseElement, tokenize_timeElement]
  simp only [timeTag, contentOf_chars, Option.map_some, List.map_cons, List.map_nil,
    decode_escapeAttr, decode_escapeText, String.ofList_toList]
  rfl

/-- Each escape leaves no delimiter and no ampersand but its own and is undone by
decoding, and a date that is rendered is one element with the texts it was made from. -/
theorem datetime_markup :
    (∀ s : String, (∀ d ∈ ['<', '>', '"', '\''], d ∉ (escapeAttr s).toList) ∧
      ReferencesOnly (escapeAttr s).toList ∧ decode (escapeAttr s).toList = s.toList) ∧
    (∀ s : String, (∀ d ∈ ['<', '>'], d ∉ (escapeText s).toList) ∧
      ReferencesOnly (escapeText s).toList ∧ decode (escapeText s).toList = s.toList) ∧
    ∀ (parse : String → Option LanguageIdentifier) (findByName : String → List Tz)
      (time : TimeLib) (icu : Icu) (state : Context) (value : Value) (style : Option String)
      (cache cache' : FormatterCache icu) (html : String),
      datetime parse findByName time icu state value style cache = some (.ok html, cache') →
      ∃ dt iso inner, valueToOffsetDatetime time value = .ok dt ∧
        time.formatRfc3339 dt = .ok iso ∧
        formatDatetime time icu dt.instant (currentLocale parse state) (currentTz findByName state)
          (.parse (style.getD "medium")) cache = some (inner, cache') ∧
        parseElement html =
          some ⟨"time", [("datetime", iso), ("data-style", style.getD "medium")], inner⟩ := by
  refine ⟨fun s => ⟨escapeAttr_delimiters s, ?_, decode_escapeAttr s⟩,
    fun s => ⟨escapeText_brackets s, ?_, decode_escapeText s⟩, ?_⟩
  · rw [escapeAttr_toList]
    exact referencesOnly_flatMap attrChar_encodes s.toList
  · rw [escapeText_toList]
    exact referencesOnly_flatMap textChar_encodes s.toList
  · intro parse findByName time icu state value style cache cache' html h
    obtain ⟨dt, iso, inner, hdt, hiso, hformat, rfl⟩ := datetime_ok parse findByName time h
    exact ⟨dt, iso, inner, hdt, hiso, hformat, parseElement_timeElement ..⟩

theorem datetime_markup_closing_tag :
    ∃ html cache', datetime (fun _ => none) (fun _ => []) .plain .plain []
        (.str "1970-01-01T00:00:00Z") (some "\"></time>") [] = some (.ok html, cache') ∧
      ∃ inner, parseElement html =
        some ⟨"time", [("datetime", "1970-01-01T00:00:00Z"), ("data-style", "\"></time>")],
          inner⟩ := by
  obtain ⟨html, cache', hrun⟩ : ∃ html cache', datetime (fun _ => none) (fun _ => []) .plain .plain
      [] (.str "1970-01-01T00:00:00Z") (some "\"></time>") [] =
        some (.ok html, cache') := ⟨_, _, rfl⟩
  obtain ⟨dt, iso, inner, hdt, hiso, -, helement⟩ :=
    datetime_markup.2.2 _ _ _ _ _ _ _ _ _ _ hrun
  obtain rfl : "1970-01-01T00:00:00Z" = iso := Except.ok.inj hiso
  exact ⟨html, cache', hrun, inner, helement⟩

end TodoRust.I18n
