import TodoRust.I18n.Rfc3339
import TodoRust.I18n.TimeElement

/-!
# What the page does with a date

An inline script formats every `<time>` element again in the zone of the browser,
from the two attributes alone. It does what the server did when the first is the
date in UTC and the second is the style that was used.
-/

namespace TodoRust.I18n
open Lib Domain Markup

/-- The `dateStyle`s of `Intl.DateTimeFormat`; it throws for any other text. -/
def dateStyles : List String := ["full", "long", "medium", "short"]

/-- The `dateStyle` that a style is documented to be. -/
def DateTimeStyle.name : DateTimeStyle → String
  | .short => "short"
  | .medium => "medium"
  | .long => "long"

/-- `new Date(text)`, in milliseconds since the epoch; `none` for a date that is not
valid. -/
structure Browser where
  newDate : String → Option Int

/-- Dates in UTC are read, up to the millisecond they are in. -/
def Browser.Reads (browser : Browser) (time : TimeLib) : Prop :=
  ∀ {dt iso}, time.formatRfc3339 dt = .ok iso → dt.offsetSeconds = 0 →
    browser.newDate iso = some (dt.instant / 1000)

/-- `upgrade`, for one element: the date it formats and the style; `none` where it
throws. -/
def Browser.upgrade (browser : Browser) (el : Element) : Option (Int × String) :=
  let style := match el.attribute "data-style" with
    | some style => if style = "" then "medium" else style
    | none => "medium"
  if style ∈ dateStyles then
    (browser.newDate ((el.attribute "datetime").getD "")).map (·, style)
  else none

/-- The element of a date agrees with what the server formatted: it has the date in
UTC and the name of the style, and the script formats that date in that style. -/
structure Agrees (time : TimeLib) (browser : Browser) (dt : LocalDateTime) (style : DateTimeStyle)
    (el : Element) : Prop where
  datetime : ∃ iso utc, el.attribute "datetime" = some iso ∧ EndsInZ iso ∧
    time.parseRfc3339 iso = .ok utc ∧ utc.instant = dt.instant ∧ utc.nanosecond = dt.nanosecond
  dataStyle : ∃ s ∈ ["short", "medium", "long"], el.attribute "data-style" = some s ∧
    DateTimeStyle.parse s = style
  upgrade : browser.upgrade el = some (dt.instant / 1000, style.name)

theorem DateTimeStyle.name_parse {s : String} (h : s ∈ ["short", "medium", "long"]) :
    (DateTimeStyle.parse s).name = s := by
  simp only [List.mem_cons, List.not_mem_nil, or_false] at h
  rcases h with rfl | rfl | rfl <;> rfl

theorem mem_dateStyles {s : String} (h : s ∈ ["short", "medium", "long"]) :
    s ≠ "" ∧ s ∈ dateStyles := by
  simp only [List.mem_cons, List.not_mem_nil, or_false] at h
  rcases h with rfl | rfl | rfl <;> decide

/-- The element the helper makes. -/
def dateElement (iso styleStr inner : String) : Element :=
  ⟨"time", [("datetime", iso), ("data-style", styleStr)], inner⟩

theorem upgrade_dateElement (browser : Browser) {styleStr : String} (iso inner : String)
    (h : styleStr ∈ ["short", "medium", "long"]) :
    browser.upgrade (dateElement iso styleStr inner) = (browser.newDate iso).map (·, styleStr) := by
  obtain ⟨hne, hmem⟩ := mem_dateStyles h
  have hstyle : (dateElement iso styleStr inner).attribute "data-style" = some styleStr := rfl
  have hdate : (dateElement iso styleStr inner).attribute "datetime" = some iso := rfl
  simp only [Browser.upgrade, hstyle, hdate, hne, if_false, hmem, if_true, Option.getD_some]

section Agrees
variable {time : TimeLib} {browser : Browser} {s iso styleStr inner : String} {dt : LocalDateTime}

theorem Agrees.names (htime : time.Rfc3339) (hparse : time.parseRfc3339 s = .ok dt)
    (hiso : time.formatRfc3339 dt = .ok iso) {style : DateTimeStyle}
    (h : Agrees time browser dt style (dateElement iso styleStr inner)) :
    NamesUtc s ∧ styleStr ∈ ["short", "medium", "long"] := by
  obtain ⟨iso', utc, hattribute, hz, -⟩ := h.datetime
  obtain rfl : iso = iso' := Option.some.inj hattribute
  obtain ⟨name, hname, hstyle, -⟩ := h.dataStyle
  obtain rfl : styleStr = name := Option.some.inj hstyle
  exact ⟨(htime.readsUtc hparse).mpr ((htime.writesZ hiso).mp hz), hname⟩

theorem Agrees.of_names (htime : time.Rfc3339) (hbrowser : browser.Reads time)
    (hparse : time.parseRfc3339 s = .ok dt) (hiso : time.formatRfc3339 dt = .ok iso)
    (hutc : NamesUtc s) (hstyle : styleStr ∈ ["short", "medium", "long"]) :
    Agrees time browser dt (.parse styleStr) (dateElement iso styleStr inner) := by
  have hoffset := (htime.readsUtc hparse).mp hutc
  obtain ⟨iso', hiso', hread⟩ := htime.readsWritten hparse
  obtain rfl := Except.ok.inj (hiso.symm.trans hiso')
  refine ⟨⟨iso, dt, rfl, (htime.writesZ hiso).mpr hoffset, hread, rfl, rfl⟩,
    ⟨styleStr, hstyle, rfl, rfl⟩, ?_⟩
  rw [upgrade_dateElement browser iso inner hstyle, hbrowser hiso hoffset,
    DateTimeStyle.name_parse hstyle]
  rfl

end Agrees

/-- What `html` says of a date agrees with how the server formatted it. -/
def RendersAgreeing (time : TimeLib) (browser : Browser) (icu : Icu) (locale : LanguageIdentifier)
    (tz : Tz) (s : String) (style : DateTimeStyle) (cache : FormatterCache icu) (html : String) :
    Prop :=
  ∃ dt el, time.parseRfc3339 s = .ok dt ∧ parseElement html = some el ∧
    (∃ cache', formatDatetime time icu dt.instant locale tz style cache = some (el.text, cache')) ∧
    Agrees time browser dt style el

/-- A date is rendered as the page formats it exactly when its text names UTC and its
style is one of the three that are documented. -/
theorem datetime_agrees_iff {time : TimeLib} {browser : Browser} (htime : time.Rfc3339)
    (hbrowser : browser.Reads time) {parse : String → Option LanguageIdentifier}
    {findByName : String → List Tz} {icu : Icu} {state : Context} {s : String}
    {style : Option String} {cache cache' : FormatterCache icu} {html : String}
    (h : datetime parse findByName time icu state (.str s) style cache = some (.ok html, cache')) :
    RendersAgreeing time browser icu (currentLocale parse state) (currentTz findByName state) s
        (.parse (style.getD "medium")) cache html ↔
      NamesUtc s ∧ style.getD "medium" ∈ ["short", "medium", "long"] := by
  obtain ⟨dt, iso, inner, hdt, hiso, hformat, rfl⟩ := datetime_ok parse findByName time h
  have helement : parseElement (timeElement iso (style.getD "medium") inner) =
      some (dateElement iso (style.getD "medium") inner) := parseElement_timeElement ..
  constructor
  · rintro ⟨dt', el, hdt', hel, -, hagrees⟩
    obtain rfl := Except.ok.inj (hdt.symm.trans hdt')
    obtain rfl := Option.some.inj (helement.symm.trans hel)
    exact hagrees.names htime hdt hiso
  · rintro ⟨hutc, hstyle⟩
    exact ⟨dt, _, hdt, helement, ⟨cache', hformat⟩, .of_names htime hbrowser hdt hiso hutc hstyle⟩

/-- An evening in Europe, written in UTC and at its own offset. -/
def evening : TimeLib :=
  .ofTable [("2026-05-19T20:00:00Z", .at 1779220800000000 0),
    ("2026-05-19T22:00:00+02:00", .at 1779220800000000 7200)] fun _ => 0

theorem evening_rfc3339 : evening.Rfc3339 :=
  TimeLib.ofTable_rfc3339 (by decide) (by decide) (by decide)

/-- A browser that knows the evening. -/
def eveningBrowser : Browser where
  newDate s := if s ∈ ["2026-05-19T20:00:00Z", "2026-05-19T22:00:00+02:00"] then
    some 1779220800000 else none

theorem eveningBrowser_reads : eveningBrowser.Reads evening := by
  intro dt iso h _
  have hmem := TimeLib.ofTable_format h
  simp only [List.mem_cons, List.not_mem_nil, or_false, Prod.mk.injEq] at hmem
  rcases hmem with ⟨rfl, rfl⟩ | ⟨rfl, rfl⟩ <;> rfl

theorem datetime_agrees_utc : ∃ html cache',
    datetime (fun _ => none) (fun _ => []) evening .plain [] (.str "2026-05-19T20:00:00Z")
      (some "long") [] = some (.ok html, cache') ∧
    (RendersAgreeing evening eveningBrowser .plain (langid "en") utc "2026-05-19T20:00:00Z" .long []
        html ↔
      NamesUtc "2026-05-19T20:00:00Z" ∧ "long" ∈ ["short", "medium", "long"]) := by
  obtain ⟨html, cache', hrun⟩ : ∃ html cache', datetime (fun _ => none) (fun _ => []) evening
      .plain [] (.str "2026-05-19T20:00:00Z") (some "long") [] = some (.ok html, cache') :=
    ⟨_, _, rfl⟩
  exact ⟨html, cache', hrun, datetime_agrees_iff evening_rfc3339 eveningBrowser_reads hrun⟩

/-- Two hours east of UTC the attribute keeps the offset. -/
theorem datetime_keeps_offset :
    ¬ ∀ (time : TimeLib) (browser : Browser) (parse : String → Option LanguageIdentifier)
      (findByName : String → List Tz) (icu : Icu) (state : Context) (s : String)
      (style : Option String) (cache cache' : FormatterCache icu) (html : String),
      time.Rfc3339 → browser.Reads time →
      datetime parse findByName time icu state (.str s) style cache = some (.ok html, cache') →
      RendersAgreeing time browser icu (currentLocale parse state) (currentTz findByName state) s
        (.parse (style.getD "medium")) cache html := by
  intro hall
  obtain ⟨html, cache', hrun⟩ : ∃ html cache', datetime (fun _ => none) (fun _ => []) evening
      .plain [] (.str "2026-05-19T22:00:00+02:00") (some "medium") [] = some (.ok html, cache') :=
    ⟨_, _, rfl⟩
  obtain ⟨dt, el, hdt, hel, -, hagrees⟩ := hall _ _ _ _ _ _ _ _ _ _ _ evening_rfc3339
    eveningBrowser_reads hrun
  obtain ⟨dt', iso, inner, hdt', hiso, -, rfl⟩ := datetime_ok _ _ _ hrun
  obtain rfl := Except.ok.inj (hdt.symm.trans hdt')
  obtain rfl := Option.some.inj ((parseElement_timeElement ..).symm.trans hel)
  have hutc := (hagrees.names evening_rfc3339 hdt hiso).1
  exact absurd hutc (by decide)

end TodoRust.I18n
