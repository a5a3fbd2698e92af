import TodoRust.I18n.Minijinja

/-!
# Dates as texts and in zones

What is relied on of the `time` crate and the zone database: the years that are
supported, the texts of RFC 3339 and their offsets, and where a conversion panics.
-/

namespace TodoRust.I18n
open Domain

/-- The beginning of a year, from the epoch. -/
def yearStart (year : Int) : Int :=
  (365 * (year - 1970) + (year - 1) / 4 - (year - 1) / 100 + (year - 1) / 400 - 477) * 86400000000

example : yearStart 1970 = 0 ∧ yearStart 10000 = 253402300800000000 := by decide

/-- The date and time at an offset from UTC. -/
def LocalDateTime.localTime (dt : LocalDateTime) : Int := dt.instant + dt.offsetSeconds * 1000000

/-- The text ends in an offset of zero. -/
def NamesUtc (s : String) : Prop :=
  ∃ offset ∈ ["Z", "z", "+00:00", "-00:00"], offset.toList <:+ s.toList

instance (s : String) : Decidable (NamesUtc s) :=
  inferInstanceAs (Decidable (∃ offset ∈ ["Z", "z", "+00:00", "-00:00"],
    offset.toList <:+ s.toList))

/-- The text ends in the `Z` of a date in UTC. -/
def EndsInZ (s : String) : Prop := ['Z'] <:+ s.toList

instance (s : String) : Decidable (EndsInZ s) := inferInstanceAs (Decidable (['Z'] <:+ s.toList))

/-- RFC 3339 as `time` reads and writes it: a date that was read can be written and
read again, `Z` is written for UTC only, and years have four digits. -/
structure TimeLib.Rfc3339 (time : TimeLib) : Prop where
  readsWritten : ∀ {s dt}, time.parseRfc3339 s = .ok dt →
    ∃ iso, time.formatRfc3339 dt = .ok iso ∧ time.parseRfc3339 iso = .ok dt
  writesZ : ∀ {dt iso}, time.formatRfc3339 dt = .ok iso → (EndsInZ iso ↔ dt.offsetSeconds = 0)
  readsUtc : ∀ {s dt}, time.parseRfc3339 s = .ok dt → (NamesUtc s ↔ dt.offsetSeconds = 0)
  readsYears : ∀ {s dt}, time.parseRfc3339 s = .ok dt →
    yearStart 0 ≤ dt.localTime ∧ dt.localTime < yearStart 10000
  readsOffset : ∀ {s dt}, time.parseRfc3339 s = .ok dt →
    -86400 < dt.offsetSeconds ∧ dt.offsetSeconds < 86400

/-- The offset of a zone is less than a day, and the conversion panics where the
local time is outside the years from -9999 to 9999. -/
structure TimeLib.Converts (time : TimeLib) (zoneOffset : Tz → OffsetDateTime → Int) : Prop where
  offset : ∀ tz value, -86400 < zoneOffset tz value ∧ zoneOffset tz value < 86400
  panics : ∀ tz value, time.toTimezone value tz = none ↔
    ¬ (yearStart (-9999) ≤ value + zoneOffset tz value * 1000000 ∧
      value + zoneOffset tz value * 1000000 < yearStart 10000)

/-! ### A library with few texts -/

deriving instance DecidableEq for LocalDateTime

/-- The calendar fields of an instant at an offset. Years are counted from March, in
eras of 400 years. -/
def LocalDateTime.at (instant : OffsetDateTime) (offsetSeconds : Int) : LocalDateTime :=
  let localTime := instant + offsetSeconds * 1000000
  let micros := (localTime % 86400000000).toNat
  let days := localTime / 86400000000 + 719468
  let dayOfEra := (days % 146097).toNat
  let yearOfEra :=
    (dayOfEra - dayOfEra / 1460 + dayOfEra / 36524 - dayOfEra / 146096) / 365
  let dayOfYear := dayOfEra - (365 * yearOfEra + yearOfEra / 4 - yearOfEra / 100)
  let month := (5 * dayOfYear + 2) / 153
  { instant := instant
    offsetSeconds := offsetSeconds
    year := days / 146097 * 400 + yearOfEra + (if month < 10 then 0 else 1)
    month := if month < 10 then month + 3 else month - 9
    day := dayOfYear - (153 * month + 2) / 5 + 1
    hour := micros / 3600000000
    minute := micros / 60000000 % 60
    second := micros / 1000000 % 60
    nanosecond := micros % 1000000 * 1000 }

example : LocalDateTime.at 1779220800000000 7200 =
    ⟨1779220800000000, 7200, 2026, 5, 19, 22, 0, 0, 0⟩ := by decide

/-- The library on the texts of a table, where each zone has one offset. -/
def TimeLib.ofTable (texts : List (String × LocalDateTime)) (zoneOffset : Tz → Int) : TimeLib where
  toTimezone value tz :=
    let localTime := value + zoneOffset tz * 1000000
    if yearStart (-9999) ≤ localTime ∧ localTime < yearStart 10000 then
      some (.at value (zoneOffset tz))
    else none
  formatRfc3339 dt :=
    match texts.find? (·.2 == dt) with
    | some entry => .ok entry.1
    | none => .error "not a date"
  parseRfc3339 s :=
    match texts.lookup s with
    | some dt => .ok dt
    | none => .error "not a date"

section Table
variable {texts : List (String × LocalDateTime)} {zoneOffset : Tz → Int}

theorem TimeLib.ofTable_converts (h : ∀ tz, -86400 < zoneOffset tz ∧ zoneOffset tz < 86400) :
    (TimeLib.ofTable texts zoneOffset).Converts fun tz _ => zoneOffset tz where
  offset tz _ := h tz
  panics tz value := by simp [TimeLib.ofTable]

theorem TimeLib.ofTable_parse {s : String} {dt : LocalDateTime}
    (h : (TimeLib.ofTable texts zoneOffset).parseRfc3339 s = .ok dt) : (s, dt) ∈ texts := by
  have hlookup : texts.lookup s = some dt := by
    simp only [TimeLib.ofTable] at h
    cases hs : texts.lookup s with
    | none =>
        rw [hs] at h
        cases h
    | some found =>
        rw [hs] at h
        exact congrArg some (Except.ok.inj h)
  obtain ⟨before, after, rfl, -⟩ := List.lookup_eq_some_iff.mp hlookup
  simp

theorem TimeLib.ofTable_format {dt : LocalDateTime} {iso : String}
    (h : (TimeLib.ofTable texts zoneOffset).formatRfc3339 dt = .ok iso) : (iso, dt) ∈ texts := by
  simp only [TimeLib.ofTable] at h
  cases hfind : texts.find? (·.2 == dt) with
  | none =>
      rw [hfind] at h
      cases h
  | some entry =>
      rw [hfind] at h
      obtain rfl := Except.ok.inj h
      obtain rfl : entry.2 = dt := by simpa using List.find?_some hfind
      exact List.mem_of_find?_eq_some hfind

/-- A table of canonical texts of four-digit years, each with its own date. -/
theorem TimeLib.ofTable_rfc3339 (hlookup : ∀ entry ∈ texts, texts.lookup entry.1 = some entry.2)
    (hutc : ∀ entry ∈ texts, (NamesUtc entry.1 ↔ entry.2.offsetSeconds = 0) ∧
      (EndsInZ entry.1 ↔ entry.2.offsetSeconds = 0))
    (hyears : ∀ entry ∈ texts,
      (yearStart 0 ≤ entry.2.localTime ∧ entry.2.localTime < yearStart 10000) ∧
        -86400 < entry.2.offsetSeconds ∧ entry.2.offsetSeconds < 86400) :
    (TimeLib.ofTable texts zoneOffset).Rfc3339 where
  readsWritten {s dt} h := by
    have hmem := TimeLib.ofTable_parse h
    obtain ⟨entry, hfind⟩ : ∃ entry, texts.find? (·.2 == dt) = some entry := by
      rw [← Option.isSome_iff_exists, List.find?_isSome]
      exact ⟨(s, dt), hmem, beq_self_eq_true dt⟩
    obtain rfl : entry.2 = dt := by simpa using List.find?_some hfind
    have hread := hlookup entry (List.mem_of_find?_eq_some hfind)
    exact ⟨entry.1, by simp [TimeLib.ofTable, hfind], by simp [TimeLib.ofTable, hread]⟩
  writesZ h := (hutc _ (TimeLib.ofTable_format h)).2
  readsUtc h := (hutc _ (TimeLib.ofTable_parse h)).1
  readsYears h := (hyears _ (TimeLib.ofTable_parse h)).1
  readsOffset h := (hyears _ (TimeLib.ofTable_parse h)).2

end Table

end TodoRust.I18n
