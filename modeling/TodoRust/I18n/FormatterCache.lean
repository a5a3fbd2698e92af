import TodoRust.I18n.DateTime
import TodoRust.Lib.Memo

/-!
# The cache of formatters is not seen

A formatter is kept under the text of its locale and its style, which is all it is
built from. So whatever a thread has formatted before, a date comes out as it does
on a new thread.
-/

namespace TodoRust.I18n
open Domain Lib

section Transparent
variable (time : TimeLib) (icu : Icu)

/-- The formatter a key stands for. -/
def buildFormatter (key : FormatterKey) : Option icu.Formatter :=
  icu.tryNew ((icu.parseLocale key.1).getD icu.english) key.2.length

/-- The text a formatter gives for a local time. -/
def formatWith (localTime : LocalDateTime) (formatter : icu.Formatter) : String :=
  match icu.tryNewIsoDatetime localTime.year localTime.month localTime.day localTime.hour
    localTime.minute localTime.second with
  | some dt => (icu.formatToString formatter dt).getD (isoFallback time localTime)
  | none => isoFallback time localTime

/-- Formatting gets a formatter through the cache, and falls back to RFC 3339
without one. -/
theorem formatLocal_eq (localTime : LocalDateTime) (locale : LanguageIdentifier)
    (style : DateTimeStyle) (cache : FormatterCache icu) :
    formatLocal time icu localTime locale style cache =
      let got := Memo.get (buildFormatter icu) (formatterKey locale style) cache
      (got.1.elim (isoFallback time localTime) (formatWith time icu localTime), got.2) := by
  unfold formatLocal Memo.get
  dsimp only
  cases cache.lookup (formatterKey locale style) with
  | some formatter => rfl
  | none =>
      have hbuild : icu.tryNew ((icu.parseLocale (formatterKey locale style).1).getD icu.english)
          style.length = buildFormatter icu (formatterKey locale style) := rfl
      rw [hbuild]
      cases buildFormatter icu (formatterKey locale style) with
      | some formatter => rfl
      | none => rfl

/-- A call of `format_datetime`. -/
structure FormatCall where
  value : OffsetDateTime
  locale : LanguageIdentifier
  tz : Tz
  style : DateTimeStyle

/-- The call on a cache: its text, or a panic, and the cache after it. -/
def FormatCall.on (call : FormatCall) (cache : FormatterCache icu) :
    Option String × FormatterCache icu :=
  match formatDatetime time icu call.value call.locale call.tz call.style cache with
  | some (text, cache) => (some text, cache)
  | none => (none, cache)

/-- Calls in sequence on one thread. -/
def formatAll : List FormatCall → FormatterCache icu → List (Option String) × FormatterCache icu
  | [], cache => ([], cache)
  | call :: calls, cache =>
      let done := call.on time icu cache
      let rest := formatAll calls done.2
      (done.1 :: rest.1, rest.2)

variable {time icu} {cache : FormatterCache icu}

/-- On a faithful cache, a call does what it does on an empty one. -/
theorem FormatCall.on_fst (call : FormatCall) (h : Memo.Faithful (buildFormatter icu) cache) :
    (call.on time icu cache).1 = (call.on time icu []).1 := by
  unfold FormatCall.on formatDatetime
  cases time.toTimezone call.value call.tz with
  | none => rfl
  | some localTime =>
      simp only [Option.map_some, formatLocal_eq, h.get_fst, Memo.Faithful.nil.get_fst]

theorem FormatCall.on_faithful (call : FormatCall) (h : Memo.Faithful (buildFormatter icu) cache) :
    Memo.Faithful (buildFormatter icu) (call.on time icu cache).2 := by
  unfold FormatCall.on formatDatetime
  cases time.toTimezone call.value call.tz with
  | none => exact h
  | some localTime =>
      simp only [Option.map_some, formatLocal_eq]
      exact h.get_snd

theorem formatAll_faithful (calls : List FormatCall)
    (h : Memo.Faithful (buildFormatter icu) cache) :
    (formatAll time icu calls cache).1 = calls.map (fun call => (call.on time icu []).1) ∧
      Memo.Faithful (buildFormatter icu) (formatAll time icu calls cache).2 := by
  induction calls generalizing cache with
  | nil => exact ⟨rfl, h⟩
  | cons call calls ih =>
      obtain ⟨htexts, hcache⟩ := ih (call.on_faithful h)
      exact ⟨congrArg₂ List.cons (call.on_fst h) htexts, hcache⟩

end Transparent

/-- Every call of a thread returns what it returns on an empty cache, and the cache
holds only formatters that a fresh build gives. -/
theorem formatter_cache_transparent (time : TimeLib) (icu : Icu) (calls : List FormatCall) :
    (formatAll time icu calls []).1 = calls.map (fun call => (call.on time icu []).1) ∧
      ∀ entry ∈ (formatAll time icu calls []).2, buildFormatter icu entry.1 = some entry.2 :=
  formatAll_faithful calls Memo.Faithful.nil

end TodoRust.I18n
