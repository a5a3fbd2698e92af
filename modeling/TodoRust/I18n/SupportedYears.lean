import TodoRust.I18n.FormatterBound
import TodoRust.I18n.Rfc3339

/-!
# Where a date panics

A text in RFC 3339 names a year up to 9999, so its instant is less than a day away
from the years that are supported. East of where the text was written the local
time may be past them, and the conversion to the zone does not return.
-/

namespace TodoRust.I18n
open Domain

section Years
variable {time : TimeLib} {zoneOffset : Tz → OffsetDateTime → Int}

/-- A date that was read converts to a zone exactly when it is before the year 10000
there; the years before 0 give room on the other side. -/
theorem toTimezone_eq_none_iff (htime : time.Rfc3339) (hzones : time.Converts zoneOffset)
    {s : String} {dt : LocalDateTime} (h : time.parseRfc3339 s = .ok dt) (tz : Tz) :
    time.toTimezone dt.instant tz = none ↔
      yearStart 10000 ≤ dt.instant + zoneOffset tz dt.instant * 1000000 := by
  have hlower : yearStart (-9999) ≤ dt.instant + zoneOffset tz dt.instant * 1000000 := by
    have hyear := (htime.readsYears h).1
    have hread := (htime.readsOffset h).2
    have hzone := (hzones.offset tz dt.instant).1
    have hroom : yearStart (-9999) + 2 * 86400000000 ≤ yearStart 0 := by decide
    unfold LocalDateTime.localTime at hyear
    omega
  rw [hzones.panics, and_iff_right hlower, not_lt]

end Years

/-- The helper returns for a text it accepts exactly when the date is before the year
10000 in the ambient zone. -/
theorem datetime_returns_iff {time : TimeLib} {zoneOffset : Tz → OffsetDateTime → Int}
    (htime : time.Rfc3339) (hzones : time.Converts zoneOffset)
    (parse : String → Option LanguageIdentifier) (findByName : String → List Tz) (icu : Icu)
    (state : Context) (s : String) (style : Option String) (cache : FormatterCache icu)
    {dt : LocalDateTime} (hvalue : valueToOffsetDatetime time (.str s) = .ok dt) :
    (∃ r, datetime parse findByName time icu state (.str s) style cache = some r) ↔
      dt.instant + zoneOffset (currentTz findByName state) dt.instant * 1000000 <
        yearStart 10000 := by
  obtain ⟨iso, hiso, -⟩ := htime.readsWritten hvalue
  have hconvert := toTimezone_eq_none_iff htime hzones hvalue (currentTz findByName state)
  rw [← Option.isSome_iff_exists, ← not_iff_not, Bool.not_eq_true, Option.isSome_eq_false_iff,
    Option.isNone_iff_eq_none, datetime_eq_none, not_lt, ← hconvert]
  constructor
  · rintro ⟨dt', iso', hdt', -, hnone⟩
    obtain rfl := Except.ok.inj (hvalue.symm.trans hdt')
    exact hnone
  · intro hnone
    exact ⟨dt, iso, hvalue, hiso, hnone⟩

/-- The last hour of the year 9999 in UTC, and nine hours east of it. -/
def lastHour : TimeLib :=
  .ofTable [("9999-12-31T23:00:00Z", .at 253402297200000000 0)]
    fun tz => if tz.name = "Asia/Tokyo" then 32400 else 0

theorem lastHour_rfc3339 : lastHour.Rfc3339 :=
  TimeLib.ofTable_rfc3339 (by decide) (by decide) (by decide)

theorem lastHour_converts :
    lastHour.Converts fun tz _ => if tz.name = "Asia/Tokyo" then 32400 else 0 :=
  TimeLib.ofTable_converts fun tz => by
    split <;> decide

/-- In UTC the date is rendered. -/
theorem datetime_returns_utc :
    ∃ r, datetime (fun _ => none) (fun _ => []) lastHour .plain [] (.str "9999-12-31T23:00:00Z")
      (some "medium") [] = some r :=
  (datetime_returns_iff lastHour_rfc3339 lastHour_converts (fun _ => none) (fun _ => []) .plain []
    "9999-12-31T23:00:00Z" (some "medium") []
    (show _ = Except.ok (.at 253402297200000000 0) from rfl)).mpr (by decide)

/-- In Tokyo it is the year 10000. -/
theorem datetime_panics_tokyo :
    ¬ ∀ (time : TimeLib) (zoneOffset : Tz → OffsetDateTime → Int)
      (parse : String → Option LanguageIdentifier) (findByName : String → List Tz) (icu : Icu)
      (state : Context) (s : String) (style : Option String) (cache : FormatterCache icu),
      time.Rfc3339 → time.Converts zoneOffset →
      (∃ dt, valueToOffsetDatetime time (.str s) = .ok dt) →
      ∃ r, datetime parse findByName time icu state (.str s) style cache = some r := by
  intro hall
  obtain ⟨r, hr⟩ := hall lastHour _ (fun _ => none) (fun name => [⟨name⟩]) .plain
    [("_tz", .str "Asia/Tokyo")] "9999-12-31T23:00:00Z" (some "medium") []
    lastHour_rfc3339 lastHour_converts ⟨_, rfl⟩
  have hpanic : datetime (fun _ => none) (fun name => [⟨name⟩]) lastHour .plain
      [("_tz", .str "Asia/Tokyo")] (.str "9999-12-31T23:00:00Z") (some "medium") [] = none := by
    rw [datetime_eq_none]
    exact ⟨_, _, rfl, rfl, by decide⟩
  rw [hpanic] at hr
  cases hr

end TodoRust.I18n
