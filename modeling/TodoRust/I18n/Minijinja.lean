import TodoRust.I18n.DateTime
import TodoRust.World

/-!
# The template helpers

The helpers read the ambient locale and time zone back from the context, where
they stand as text, and fall back to English and UTC. A date is given to
`datetime` as RFC 3339 text and becomes a `<time>` element.
-/

namespace TodoRust.I18n

/-- `Value::as_str` -/
def asStr : Value → Option String
  | .str s => some s
  | _ => none

/-- `State::lookup`, for a text. -/
def lookupStr (state : Context) (name : String) : Option String :=
  (state.lookup name).bind asStr

def currentLocale (parse : String → Option LanguageIdentifier) (state : Context) :
    LanguageIdentifier :=
  ((lookupStr state "_locale").bind parse).getD (langid "en")

def currentTz (findByName : String → List Tz) (state : Context) : Tz :=
  ((lookupStr state "_tz").bind (parseTz findByName)).getD utc

def escapeAttr (s : String) : String :=
  String.ofList (s.toList.flatMap fun c =>
    if c = '&' then "&amp;".toList else if c = '<' then "&lt;".toList
    else if c = '>' then "&gt;".toList else if c = '"' then "&quot;".toList
    else if c = '\'' then "&#39;".toList else [c])

def escapeText (s : String) : String :=
  String.ofList (s.toList.flatMap fun c =>
    if c = '&' then "&amp;".toList else if c = '<' then "&lt;".toList
    else if c = '>' then "&gt;".toList else [c])

section DateTime
variable (parse : String → Option LanguageIdentifier) (findByName : String → List Tz)
variable (time : TimeLib) (icu : Icu)

def valueToOffsetDatetime (value : Value) : Except String LocalDateTime :=
  match asStr value with
  | some s => time.parseRfc3339 s
  | none => .error "datetime expects a string"

/-- The element for a date: when it was, how it is formatted, and the text. -/
def timeElement (iso styleStr inner : String) : String :=
  "<time datetime=\"" ++ escapeAttr iso ++ "\" data-style=\"" ++ escapeAttr styleStr ++ "\">" ++
    escapeText inner ++ "</time>"

/-- `datetime(value, style)`, on the cache of the rendering thread; `none` where it
panics. -/
def datetime (state : Context) (value : Value) (style : Option String)
    (cache : FormatterCache icu) : Option (Except String String × FormatterCache icu) :=
  let locale := currentLocale parse state
  let tz := currentTz findByName state
  let styleStr := style.getD "medium"
  let style := DateTimeStyle.parse styleStr
  match valueToOffsetDatetime time value with
  | .error e => some (.error e, cache)
  | .ok dt =>
      match time.formatRfc3339 dt with
      | .error e => some (.error e, cache)
      | .ok iso =>
          (formatDatetime time icu dt.instant locale tz style cache).map fun (inner, cache) =>
            (.ok (timeElement iso styleStr inner), cache)

variable {icu}

/-- A date that is rendered was parsed, written out and formatted. -/
theorem datetime_ok {state : Context} {value : Value} {style : Option String}
    {cache cache' : FormatterCache icu} {html : String}
    (h : datetime parse findByName time icu state value style cache = some (.ok html, cache')) :
    ∃ dt iso inner, valueToOffsetDatetime time value = .ok dt ∧ time.formatRfc3339 dt = .ok iso ∧
      formatDatetime time icu dt.instant (currentLocale parse state) (currentTz findByName state)
        (.parse (style.getD "medium")) cache = some (inner, cache') ∧
      html = timeElement iso (style.getD "medium") inner := by
  unfold datetime at h
  dsimp only at h
  cases hvalue : valueToOffsetDatetime time value with
  | error e =>
      rw [hvalue] at h
      cases h
  | ok dt =>
      simp only [hvalue] at h
      cases hiso : time.formatRfc3339 dt with
      | error e =>
          rw [hiso] at h
          cases h
      | ok iso =>
          simp only [hiso] at h
          obtain ⟨⟨inner, done⟩, hformat, hhtml⟩ := Option.map_eq_some_iff.mp h
          obtain ⟨hok, rfl⟩ := Prod.mk.inj hhtml
          exact ⟨dt, iso, inner, rfl, hiso, hformat, (Except.ok.inj hok).symm⟩

/-- The helper panics exactly where the conversion to the ambient zone does. -/
theorem datetime_eq_none {state : Context} {value : Value} {style : Option String}
    {cache : FormatterCache icu} :
    datetime parse findByName time icu state value style cache = none ↔
      ∃ dt iso, valueToOffsetDatetime time value = .ok dt ∧ time.formatRfc3339 dt = .ok iso ∧
        time.toTimezone dt.instant (currentTz findByName state) = none := by
  unfold datetime formatDatetime
  cases hvalue : valueToOffsetDatetime time value with
  | error e => simp
  | ok dt =>
      cases hiso : time.formatRfc3339 dt with
      | error e => simp [hiso]
      | ok iso => simp [hiso]

/-- The helper adds at most the key of the ambient locale and the style. -/
theorem datetime_keys {state : Context} {value : Value} {style : Option String}
    {cache cache' : FormatterCache icu} {r : Except String String}
    (h : datetime parse findByName time icu state value style cache = some (r, cache')) :
    cache'.keys = cache.keys ∨
      ∃ key, key = formatterKey (currentLocale parse state) (.parse (style.getD "medium")) ∧
        key ∉ cache.keys ∧ cache'.keys = key :: cache.keys := by
  unfold datetime at h
  dsimp only at h
  split at h
  · cases h
    exact Or.inl rfl
  · split at h
    · cases h
      exact Or.inl rfl
    · obtain ⟨done, hdone, hcache⟩ := Option.map_eq_some_iff.mp h
      obtain ⟨localTime, _, rfl⟩ := Option.map_eq_some_iff.mp hdone
      obtain rfl := (Prod.mk.inj hcache).2
      rcases formatLocal_keys time localTime (currentLocale parse state)
        (.parse (style.getD "medium")) cache with hkept | hnew
      · exact Or.inl hkept
      · exact Or.inr ⟨_, rfl, hnew⟩

end DateTime

end TodoRust.I18n
