import TodoRust.I18n.Locale

/-!
# Locale negotiation

The precedence of the sources of a locale: the profile, the cookie, the
`Accept-Language` header, and English. The first two count when they parse to a
supported language; the choice among the header's languages is the library's.
-/

namespace TodoRust.I18n
open Rust

/-- A language without further subtags. -/
def langid (language : String) : LanguageIdentifier := ⟨language, none, none, []⟩

theorem langid_toString (language : String) : (langid language).toString = language := rfl

def defaultLocale : LanguageIdentifier := langid "en"

/-- The parts of `fluent_langneg` that are called; the strategy is fixed. -/
structure FluentLangneg where
  parseAcceptedLanguages : String → List LanguageIdentifier
  negotiateLanguages : (requested available : List LanguageIdentifier) →
    (default : LanguageIdentifier) → List LanguageIdentifier

/-- The library chooses among the available languages and the default. -/
def FluentLangneg.ChoosesAvailable (fluent : FluentLangneg) : Prop :=
  ∀ requested available default,
    ∀ id ∈ fluent.negotiateLanguages requested available default, id ∈ available ∨ id = default

/-- For concrete runs: bare languages only, and those available in the order requested. -/
def FluentLangneg.plain : FluentLangneg where
  parseAcceptedLanguages header :=
    (split header.toList ',').map fun part => langid (String.ofList (trimChars part))
  negotiateLanguages requested available default :=
    requested.filter (available.contains ·) ++ [default]

theorem FluentLangneg.plain_choosesAvailable : FluentLangneg.plain.ChoosesAvailable := by
  intro requested available default id hid
  rcases List.mem_append.mp hid with hid | hid
  · exact Or.inl (by simpa using (List.mem_filter.mp hid).2)
  · exact Or.inr (List.mem_singleton.mp hid)

/-- A supported code parses to the bare language. -/
def ParsesSupported (parse : String → Option LanguageIdentifier) : Prop :=
  ∀ s ∈ supported, parse s = some (langid s)

section Negotiate
variable (parse : String → Option LanguageIdentifier) (fluent : FluentLangneg)

def parseSupported (value : String) : Option LanguageIdentifier := do
  let langid ← parse value
  if supported.any (· == langid.language) then some langid else none

/-- Every entry of `SUPPORTED` is a bare language, so it parses to itself. -/
def negotiateFromAcceptLanguage (header : String) : LanguageIdentifier :=
  let requested := fluent.parseAcceptedLanguages header
  let available := supported.map langid
  let chosen := fluent.negotiateLanguages requested available defaultLocale
  chosen.head?.getD defaultLocale

def negotiate (acceptLang cookie profile : Option String) : LanguageIdentifier :=
  match profile.bind (parseSupported parse) with
  | some p => p
  | none =>
      match cookie.bind (parseSupported parse) with
      | some c => c
      | none =>
          match acceptLang with
          | some al => negotiateFromAcceptLanguage fluent al
          | none => defaultLocale

variable {parse} {fluent}

theorem parseSupported_eq_some_iff {value : String} {id : LanguageIdentifier} :
    parseSupported parse value = some id ↔ parse value = some id ∧ id.language ∈ supported := by
  cases h : parse value with
  | none => simp [parseSupported, h]
  | some id' =>
      simp only [parseSupported, h, Option.bind_eq_bind, Option.bind_some,
        Option.ite_none_right_eq_some, Option.some.injEq, List.any_eq_true, beq_iff_eq,
        exists_eq_right]
      constructor
      · rintro ⟨hmem, rfl⟩
        exact ⟨rfl, hmem⟩
      · rintro ⟨rfl, hmem⟩
        exact ⟨hmem, rfl⟩

/-- A supported code is accepted as it stands. -/
theorem parseSupported_of_mem (hparse : ParsesSupported parse) {s : String}
    (hs : s ∈ supported) : parseSupported parse s = some (langid s) :=
  parseSupported_eq_some_iff.mpr ⟨hparse s hs, hs⟩

theorem defaultLocale_supported : defaultLocale ∈ supported.map langid := by
  decide

/-- The negotiated language is one of the supported ones. -/
theorem negotiateFromAcceptLanguage_mem (hfluent : fluent.ChoosesAvailable) (header : String) :
    negotiateFromAcceptLanguage fluent header ∈ supported.map langid := by
  unfold negotiateFromAcceptLanguage
  dsimp only
  cases hchosen : (fluent.negotiateLanguages (fluent.parseAcceptedLanguages header)
      (supported.map langid) defaultLocale).head? with
  | none => exact defaultLocale_supported
  | some id =>
      rcases hfluent _ _ _ id (List.mem_of_head? hchosen) with havailable | rfl
      · exact havailable
      · exact defaultLocale_supported

theorem negotiate_of_profile {acceptLang cookie : Option String} {profile : String}
    {id : LanguageIdentifier} (h : parseSupported parse profile = some id) :
    negotiate parse fluent acceptLang cookie (some profile) = id := by
  simp [negotiate, h]

/-- A profile that is absent or not accepted leaves the other sources. -/
theorem negotiate_of_no_profile {acceptLang cookie profile : Option String}
    (h : profile.bind (parseSupported parse) = none) :
    negotiate parse fluent acceptLang cookie profile =
      negotiate parse fluent acceptLang cookie none := by
  simp [negotiate, h]

theorem negotiate_of_cookie {acceptLang : Option String} {cookie : String}
    {id : LanguageIdentifier} (h : parseSupported parse cookie = some id) :
    negotiate parse fluent acceptLang (some cookie) none = id := by
  simp [negotiate, h]

theorem negotiate_of_no_cookie {acceptLang cookie : Option String}
    (h : cookie.bind (parseSupported parse) = none) :
    negotiate parse fluent acceptLang cookie none =
      (acceptLang.map (negotiateFromAcceptLanguage fluent)).getD defaultLocale := by
  cases acceptLang with
  | none => simp [negotiate, h]
  | some al => simp [negotiate, h]

/-- Whatever the sources say, the language is a supported one. -/
theorem negotiate_language (hfluent : fluent.ChoosesAvailable)
    (acceptLang cookie profile : Option String) :
    (negotiate parse fluent acceptLang cookie profile).language ∈ supported := by
  have hbare : ∀ id ∈ supported.map langid, id.language ∈ supported := by
    intro id hid
    obtain ⟨s, hs, rfl⟩ := List.mem_map.mp hid
    exact hs
  have haccepted : ∀ {source : Option String} {id : LanguageIdentifier},
      source.bind (parseSupported parse) = some id → id.language ∈ supported := by
    intro source id h
    obtain ⟨value, _, hvalue⟩ := Option.bind_eq_some_iff.mp h
    exact (parseSupported_eq_some_iff.mp hvalue).2
  unfold negotiate
  split
  · rename_i h
    exact haccepted h
  · split
    · rename_i h
      exact haccepted h
    · split
      · exact hbare _ (negotiateFromAcceptLanguage_mem hfluent _)
      · exact hbare _ defaultLocale_supported

end Negotiate

end TodoRust.I18n
