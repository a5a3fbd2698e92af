import TodoRust.I18n.FormatterBound
import TodoRust.Pages.Templates
import TodoRust.StaticFiles.AssetUrls

/-!
# The template environment

The functions that templates call are those of the application: messages in the
ambient locale, the URLs of the assets, and dates formatted on the thread that
renders the page.
-/

namespace TodoRust.Pages
open Lib Html Domain I18n

/-- What the environment is built with, and what `serde` and `minijinja` write. -/
structure Environment (icu : Icu) where
  state : App.AppState
  assets : StaticFiles.Assets
  time : TimeLib
  rfc3339 : OffsetDateTime → Except String String
  display : Value → String

/-- The symbols of a date are the characters of its element. -/
theorem timeElement_toList (parts : TimeParts) :
    (timeElement parts.iso parts.style parts.inner).toList =
      pageText (timeCells ⟨.iso, parts.iso⟩ ⟨.style, parts.style⟩ ⟨.inner, parts.inner⟩) := by
  have hopen := (lit "<time datetime=\"").toList_text
  have hnext := (lit "\" data-style=\"").toList_text
  have hclose := (lit "\">").toList_text
  have hend := (lit "</time>").toList_text
  simp only [lit] at hopen hnext hclose hend
  unfold timeElement
  simp only [String.toList_append, escapeAttr_toList, escapeText_toList, hopen, hnext, hclose, hend,
    timeCells, lit, pageText]
  simp [Slot.raw, Label.escape]

section Environment
variable {icu : Icu} (env : Environment icu)

/-- `datetime(value, style)`, with its texts apart. -/
def Environment.datetime (context : Context) (value : Value) (style : String)
    (cache : FormatterCache icu) : Except Failure (TimeParts × FormatterCache icu) :=
  match valueToOffsetDatetime env.time value with
  | .error e => .error (.error e)
  | .ok dt =>
      match env.time.formatRfc3339 dt with
      | .error e => .error (.error e)
      | .ok iso =>
          match formatDatetime env.time icu dt.instant
            (currentLocale env.state.parseLanguage context)
            (currentTz env.state.zonesByName context) (.parse style) cache with
          | some (inner, cache) => .ok (⟨iso, style, inner⟩, cache)
          | none => .error .panicked

def Environment.helpers : Helpers (FormatterCache icu) where
  t context id := env.state.lookup (currentLocale env.state.parseLanguage context) id
  asset := StaticFiles.asset env.assets
  datetime := env.datetime
  rfc3339 := env.rfc3339
  display := env.display

/-- `Templates::render`, on a thread that has some formatters already. -/
def Environment.render (name : String) (context : Context) (cache : FormatterCache icu) :
    Except Failure (List (Cell Slot) × FormatterCache icu) :=
  match templateOf name with
  | some t => t.cells env.helpers context cache
  | none => .error (.error "template not found")

theorem Environment.render_ok {name : String} {context : Context}
    {cache cache' : FormatterCache icu} {cells : List (Cell Slot)}
    (h : env.render name context cache = .ok (cells, cache')) :
    ∃ t, templateOf name = some t ∧ t.cells env.helpers context cache = .ok (cells, cache') := by
  unfold Environment.render at h
  split at h
  · rename_i t ht
    exact ⟨t, ht, h⟩
  · cases h

/-- A date in a page is the element that the helper writes. -/
theorem Environment.datetime_html {context : Context} {value : Value} {style : String}
    {cache cache' : FormatterCache icu} {parts : TimeParts}
    (h : env.datetime context value style cache = .ok (parts, cache')) :
    ∃ html, I18n.datetime env.state.parseLanguage env.state.zonesByName env.time icu context value
        (some style) cache = some (.ok html, cache') ∧
      html.toList =
        pageText (timeCells ⟨.iso, parts.iso⟩ ⟨.style, parts.style⟩ ⟨.inner, parts.inner⟩) := by
  refine ⟨timeElement parts.iso parts.style parts.inner, ?_, ?_⟩
  · unfold Environment.datetime at h
    unfold I18n.datetime
    cases hvalue : valueToOffsetDatetime env.time value with
    | error e => simp [hvalue] at h
    | ok dt =>
        cases hiso : env.time.formatRfc3339 dt with
        | error e => simp [hvalue, hiso] at h
        | ok iso =>
            simp only [hvalue, hiso] at h
            split at h
            · rename_i inner last hformat
              cases h
              simp [hiso, hformat]
            · cases h
  · exact timeElement_toList parts

end Environment

/-- An environment for concrete runs. -/
def Environment.plain : Environment .plain where
  state := .plain
  assets := .passthrough ""
  time := .plain
  rfc3339 _ := .ok "1970-01-01T00:00:00Z"
  display _ := ""

end TodoRust.Pages
