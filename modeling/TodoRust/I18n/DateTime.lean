import TodoRust.I18n.Negotiate
import TodoRust.Domain.Types

/-!
# Formatting of dates

A date is formatted by ICU for one locale and one style. Formatters are costly to
build, so each thread keeps those it has built, by the locale's text and the style.
-/

namespace TodoRust.I18n
open Domain

inductive DateTimeStyle
  | short
  | medium
  | long
  deriving DecidableEq

/-- `icu::datetime::options::length`, for a date or a time. -/
inductive Length
  | short
  | medium
  | long
  deriving DecidableEq

namespace DateTimeStyle

def parse (s : String) : DateTimeStyle :=
  if s = "short" then .short else if s = "long" then .long else .medium

/-- The lengths of the date and of the time. -/
def length : DateTimeStyle → Length × Length
  | .short => (.short, .short)
  | .medium => (.medium, .short)
  | .long => (.long, .short)

/-- Every style. -/
def all : List DateTimeStyle := [.short, .medium, .long]

theorem mem_all (style : DateTimeStyle) : style ∈ all := by
  cases style <;> decide

end DateTimeStyle

/-- An instant with the calendar fields of a time zone. -/
structure LocalDateTime where
  instant : OffsetDateTime
  offsetSeconds : Int
  year : Int
  month : Nat
  day : Nat
  hour : Nat
  minute : Nat
  second : Nat
  nanosecond : Nat

/-- The parts of `time` and `time_tz` that are called. -/
structure TimeLib where
  /-- `none` where it panics. -/
  toTimezone : OffsetDateTime → Tz → Option LocalDateTime
  formatRfc3339 : LocalDateTime → Except String String
  parseRfc3339 : String → Except String LocalDateTime

/-- The parts of `icu` that are called. -/
structure Icu where
  Locale : Type
  DateTime : Type
  Formatter : Type
  parseLocale : String → Option Locale
  /-- The locale `en-u-ca-gregory`. -/
  english : Locale
  tryNewIsoDatetime : (year : Int) → (month day hour minute second : Nat) → Option DateTime
  tryNew : Locale → Length × Length → Option Formatter
  formatToString : Formatter → DateTime → Option String

abbrev FormatterKey := String × DateTimeStyle

/-- The formatters of one thread. -/
abbrev FormatterCache (icu : Icu) := List (FormatterKey × icu.Formatter)

section Format
variable (time : TimeLib) (icu : Icu)

def isoFallback (localTime : LocalDateTime) : String :=
  match time.formatRfc3339 localTime with
  | .ok text => text
  | .error _ => "—"

/-- The key a locale and a style are kept under. -/
def formatterKey (locale : LanguageIdentifier) (style : DateTimeStyle) : FormatterKey :=
  (locale.toString ++ "-u-ca-gregory", style)

/-- `format_datetime` from the local time on. -/
def formatLocal (localTime : LocalDateTime) (locale : LanguageIdentifier) (style : DateTimeStyle)
    (cache : FormatterCache icu) : String × FormatterCache icu :=
  let icuDt := icu.tryNewIsoDatetime localTime.year localTime.month localTime.day localTime.hour
    localTime.minute localTime.second
  let key := formatterKey locale style
  let format := fun (formatter : icu.Formatter) =>
    match icuDt with
    | some dt => (icu.formatToString formatter dt).getD (isoFallback time localTime)
    | none => isoFallback time localTime
  match cache.lookup key with
  | some formatter => (format formatter, cache)
  | none =>
      let icuLocale := (icu.parseLocale key.1).getD icu.english
      match icu.tryNew icuLocale style.length with
      | none => (isoFallback time localTime, cache)
      | some formatter => (format formatter, (key, formatter) :: cache)

/-- `format_datetime`; `none` where it panics, before the cache is touched. -/
def formatDatetime (value : OffsetDateTime) (locale : LanguageIdentifier) (tz : Tz)
    (style : DateTimeStyle) (cache : FormatterCache icu) : Option (String × FormatterCache icu) :=
  (time.toTimezone value tz).map fun localTime =>
    formatLocal time icu localTime locale style cache

/-- The keys a thread has inserted; no entry is ever removed. -/
def FormatterCache.keys {icu : Icu} (cache : FormatterCache icu) : List FormatterKey :=
  cache.map Prod.fst

variable {icu}

/-- Formatting adds at most its own key, and only if it is new. -/
theorem formatLocal_keys (localTime : LocalDateTime) (locale : LanguageIdentifier)
    (style : DateTimeStyle) (cache : FormatterCache icu) :
    (formatLocal time icu localTime locale style cache).2.keys = cache.keys ∨
      formatterKey locale style ∉ cache.keys ∧
      (formatLocal time icu localTime locale style cache).2.keys =
        formatterKey locale style :: cache.keys := by
  unfold formatLocal
  dsimp only
  split
  · exact Or.inl rfl
  · rename_i hnone
    split
    · exact Or.inl rfl
    · refine Or.inr ⟨?_, rfl⟩
      intro hmem
      obtain ⟨entry, hentry, hkey⟩ := List.mem_map.mp hmem
      have hne := List.lookup_eq_none_iff.mp hnone _ hentry
      simp [hkey] at hne

end Format

end TodoRust.I18n
