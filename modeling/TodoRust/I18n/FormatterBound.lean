import Mathlib.Data.List.Nodup
import TodoRust.I18n.Minijinja
import TodoRust.Lib.Run
import TodoRust.Middleware.I18n

/-!
# How many formatters a thread keeps

The cache of formatters is keyed by the whole text of a locale. A locale that
comes from the supported list gives one key for each style; a locale cookie also
gets its region, script and variants through.
-/

namespace TodoRust.I18n
open Lib Domain Storage Rust App Middleware

/-- A page rendered for a request: whose profile it uses, if any, and the dates its
template formats. -/
structure PageView where
  headers : HeaderMap
  cspNonce : String
  user : Option User
  dates : List (Value × Option String)

section Thread
variable (state : AppState) (fluent : FluentLangneg) (time : TimeLib) (icu : Icu)

/-- The ambient context of a page. -/
def pageContext (page : PageView) : Context :=
  let request := i18nMiddleware state fluent page.headers page.cspNonce
  baseContext (match page.user with
    | some user => state.overrideFromProfile user request
    | none => request)

/-- The dates of a template in order, up to the first that fails or panics. -/
def renderDates (context : Context) :
    List (Value × Option String) → FormatterCache icu → FormatterCache icu
  | [], cache => cache
  | (value, style) :: dates, cache =>
      match datetime state.parseLanguage state.zonesByName time icu context value style cache with
      | some (.ok _, cache) => renderDates context dates cache
      | some (.error _, cache) => cache
      | none => cache

/-- One page, rendered on the thread. -/
def renderOn (cache : FormatterCache icu) (page : PageView) : Option (FormatterCache icu) :=
  some (renderDates state time icu (pageContext state fluent page) page.dates cache)

end Thread

/-- The profile locale, if there is one, is a supported code. -/
def SupportedProfile (page : PageView) : Prop :=
  ∀ user s, page.user = some user → user.locale = some s → s ∈ supported

/-- The locale cookie, if it counts, has no subtag but the language. -/
def BareCookie (parse : String → Option LanguageIdentifier) (page : PageView) : Prop :=
  ∀ value id, (readCookies page.headers).1 = some value → parseSupported parse value = some id →
    id = langid id.language

/-- A profile locale stands in front of the cookie. -/
def HasProfile (page : PageView) : Prop := ∃ user s, page.user = some user ∧ user.locale = some s

/-- The keys of the supported locales. -/
def supportedKeys : List FormatterKey :=
  supported.flatMap fun s => DateTimeStyle.all.map fun style => formatterKey (langid s) style

theorem formatterKey_mem {s : String} (hs : s ∈ supported) (style : DateTimeStyle) :
    formatterKey (langid s) style ∈ supportedKeys :=
  List.mem_flatMap.mpr ⟨s, hs, List.mem_map.mpr ⟨style, style.mem_all, rfl⟩⟩

theorem supportedKeys_length : supportedKeys.length = supported.length * 3 := rfl

section Bound
variable {state : AppState} {fluent : FluentLangneg} {time : TimeLib} {icu : Icu}
variable {page : PageView}

/-- With a bare cookie, or none that counts, the negotiated locale is bare. -/
theorem negotiate_bare (hfluent : fluent.ChoosesAvailable)
    (hbare : BareCookie state.parseLanguage page) :
    (i18nMiddleware state fluent page.headers page.cspNonce).locale ∈ supported.map langid := by
  unfold i18nMiddleware
  dsimp only
  cases hcookie : (readCookies page.headers).1.bind (parseSupported state.parseLanguage) with
  | some id =>
      obtain ⟨value, hvalue, hid⟩ := Option.bind_eq_some_iff.mp hcookie
      rw [hvalue, negotiate_of_cookie hid, hbare value id hvalue hid]
      exact List.mem_map_of_mem (parseSupported_eq_some_iff.mp hid).2
  | none =>
      rw [negotiate_of_no_cookie hcookie]
      cases (page.headers.get "accept-language").bind HeaderValue.toStr with
      | none => exact defaultLocale_supported
      | some al => exact negotiateFromAcceptLanguage_mem hfluent al

/-- The template reads a supported code back. -/
theorem currentLocale_bare (hparse : ParsesSupported state.parseLanguage)
    {request : RequestContext} (h : request.locale ∈ supported.map langid) :
    currentLocale state.parseLanguage (baseContext request) ∈ supported.map langid := by
  obtain ⟨s, hs, hid⟩ := List.mem_map.mp h
  have hlookup : lookupStr (baseContext request) "_locale" = some request.locale.toString := rfl
  rw [currentLocale, hlookup, ← hid, langid_toString, Option.bind_some, hparse s hs]
  exact List.mem_map_of_mem hs

theorem pageContext_locale (hparse : ParsesSupported state.parseLanguage)
    (hfluent : fluent.ChoosesAvailable) (hprofile : SupportedProfile page)
    (hcookie : HasProfile page ∨ BareCookie state.parseLanguage page) :
    currentLocale state.parseLanguage (pageContext state fluent page) ∈
      supported.map langid := by
  apply currentLocale_bare hparse
  cases huser : page.user with
  | none =>
      rcases hcookie with ⟨user, _, hsome, _⟩ | hbare
      · rw [huser] at hsome
        cases hsome
      · exact negotiate_bare hfluent hbare
  | some user =>
      cases hlocale : user.locale with
      | none =>
          rcases hcookie with ⟨user', s, hsome, hs⟩ | hbare
          · obtain rfl := Option.some.inj (huser.symm.trans hsome)
            rw [hlocale] at hs
            cases hs
          · simpa [AppState.overrideFromProfile, hlocale] using negotiate_bare hfluent hbare
      | some s =>
          have hs := hprofile user s huser hlocale
          have hne : s ≠ "" := by
            rintro rfl
            exact absurd hs (by decide)
          have hmem : langid s ∈ supported.map langid := List.mem_map_of_mem hs
          simpa [AppState.overrideFromProfile, hlocale, hne, hparse s hs] using hmem

/-- The keys inserted are different, and belong to supported locales. -/
def Bounded (cache : FormatterCache icu) : Prop :=
  cache.keys.Nodup ∧ cache.keys ⊆ supportedKeys

theorem Bounded.length_le {cache : FormatterCache icu} (h : Bounded cache) :
    cache.keys.length ≤ supported.length * 3 := by
  rw [← supportedKeys_length]
  exact (List.subperm_of_subset h.1 h.2).length_le

theorem Bounded.datetime {context : Context} {cache cache' : FormatterCache icu}
    (hlocale : currentLocale state.parseLanguage context ∈ supported.map langid) {value : Value}
    {style : Option String} {r : Except String String} (h : Bounded cache)
    (hdate : datetime state.parseLanguage state.zonesByName time icu context value style cache =
      some (r, cache')) : Bounded cache' := by
  obtain ⟨s, hs, hid⟩ := List.mem_map.mp hlocale
  rcases datetime_keys _ _ _ hdate with hkept | ⟨key, hkey, hnew, hkeys⟩
  · rwa [Bounded, hkept]
  · rw [Bounded, hkeys, List.nodup_cons, List.cons_subset, hkey, ← hid]
    rw [hkey, ← hid] at hnew
    exact ⟨⟨hnew, h.1⟩, formatterKey_mem hs _, h.2⟩

theorem Bounded.renderDates {context : Context} {cache : FormatterCache icu}
    (hlocale : currentLocale state.parseLanguage context ∈ supported.map langid)
    (dates : List (Value × Option String)) (h : Bounded cache) :
    Bounded (renderDates state time icu context dates cache) := by
  induction dates generalizing cache with
  | nil => exact h
  | cons date dates ih =>
      unfold I18n.renderDates
      split
      · rename_i heq
        exact ih (h.datetime hlocale heq)
      · rename_i heq
        exact h.datetime hlocale heq
      · exact h

/-- In every run of pages whose locale cookies, as far as they count, are bare, the
thread keeps at most one formatter for each supported locale and style. -/
theorem formatter_cache_bounded (hparse : ParsesSupported state.parseLanguage)
    (hfluent : fluent.ChoosesAvailable) {h : List (FormatterCache icu × PageView)}
    {cache : FormatterCache icu} (run : Run (renderOn state fluent time icu) [] h cache)
    (hprofile : ∀ x ∈ h, SupportedProfile x.2)
    (hcookie : ∀ x ∈ h, HasProfile x.2 ∨ BareCookie state.parseLanguage x.2) :
    cache.keys.Nodup ∧ cache.keys.length ≤ supported.length * 3 := by
  have hbounded : Bounded cache := by
    refine run.invariant_under (fun page => SupportedProfile page ∧
      (HasProfile page ∨ BareCookie state.parseLanguage page))
      ⟨List.nodup_nil, List.nil_subset _⟩ ?_ fun x hx => ⟨hprofile x hx, hcookie x hx⟩
    rintro cache page cache' hcache ⟨hpage, hpageCookie⟩ hs
    rw [← Option.some.inj hs]
    exact hcache.renderDates (pageContext_locale hparse hfluent hpage hpageCookie) page.dates
  exact ⟨hbounded.1, hbounded.length_le⟩

end Bound

/-! ### Concrete pages -/

/-- A parser for a language and at most a region. -/
def parseRegional (s : String) : Option LanguageIdentifier :=
  match split s.toList '-' with
  | [language] => if language = [] then none else some (langid (String.ofList language))
  | [language, region] =>
      some ⟨String.ofList language, none, some (String.ofList region), []⟩
  | _ => none

def regional : AppState := { AppState.plain with parseLanguage := parseRegional }

theorem parseRegional_supported : ParsesSupported parseRegional := by
  unfold ParsesSupported supported
  simp only [List.forall_mem_cons]
  decide

/-- One instant, formatted in one way. -/
def TimeLib.plain : TimeLib where
  toTimezone value _ := some ⟨value, 0, 1970, 1, 1, 0, 0, 0, 0⟩
  formatRfc3339 _ := .ok "1970-01-01T00:00:00Z"
  parseRfc3339 s :=
    if s = "1970-01-01T00:00:00Z" then .ok ⟨0, 0, 1970, 1, 1, 0, 0, 0, 0⟩ else .error "not a date"

/-- Every locale has a formatter. -/
def Icu.plain : Icu where
  Locale := String
  DateTime := Int
  Formatter := String
  parseLocale s := some s
  english := "en-u-ca-gregory"
  tryNewIsoDatetime year _ _ _ _ _ := some year
  tryNew locale _ := some locale
  formatToString locale _ := some locale

/-- A page with one date in every style, requested with a locale cookie. -/
def pageWithCookie (locale : String) : PageView where
  headers := (HeaderValue.fromStr ("locale=" ++ locale)).toList.map fun value => ("cookie", value)
  cspNonce := ""
  user := none
  dates := ["short", "medium", "long"].map fun style =>
    (Value.str "1970-01-01T00:00:00Z", some style)

/-- The cache of a thread after pages requested with these cookies. -/
def renderPages (locales : List String) :
    Option (List (FormatterCache .plain × PageView) × FormatterCache .plain) :=
  Run.record (renderOn regional .plain .plain .plain) [] (locales.map pageWithCookie)

theorem supportedProfile_pages (locales : List String) :
    ∀ page ∈ locales.map pageWithCookie, SupportedProfile page := by
  intro page hpage user s huser
  obtain ⟨locale, _, rfl⟩ := List.mem_map.mp hpage
  cases huser

theorem formatter_cache_two_pages : ∃ h cache, renderPages ["fr", "de"] = some (h, cache) ∧
    cache.keys.Nodup ∧ cache.keys.length ≤ supported.length * 3 := by
  obtain ⟨⟨h, cache⟩, hrecord⟩ : ∃ r, renderPages ["fr", "de"] = some r := ⟨_, rfl⟩
  have hbare : ∀ page ∈ ["fr", "de"].map pageWithCookie,
      HasProfile page ∨ BareCookie regional.parseLanguage page := by
    simp only [List.map_cons, List.map_nil, List.forall_mem_cons]
    refine ⟨Or.inr ?_, Or.inr ?_, by simp⟩
    all_goals
      intro value id hvalue hid
      obtain rfl := Option.some.inj hvalue
      obtain rfl := Option.some.inj hid
      decide
  exact ⟨h, cache, hrecord, formatter_cache_bounded parseRegional_supported
    FluentLangneg.plain_choosesAvailable (Run.of_record _ hrecord)
    (Run.forall_record hrecord (supportedProfile_pages _)) (Run.forall_record hrecord hbare)⟩

/-- Five language texts in three styles. -/
theorem formatter_cache_regions :
    ¬ ∀ (state : AppState) (fluent : FluentLangneg) (time : TimeLib) (icu : Icu)
      (h : List (FormatterCache icu × PageView)) (cache : FormatterCache icu),
      ParsesSupported state.parseLanguage → fluent.ChoosesAvailable →
      Run (renderOn state fluent time icu) [] h cache → (∀ x ∈ h, SupportedProfile x.2) →
      cache.keys.length ≤ supported.length * 3 := by
  intro hall
  have hlength : (renderPages ["en", "es", "fr", "de", "en-US"]).map
      (fun r => r.2.keys.length) = some 15 := by decide +kernel
  obtain ⟨⟨h, cache⟩, hrecord, hkeys⟩ := Option.map_eq_some_iff.mp hlength
  have hle := hall _ _ _ _ h cache parseRegional_supported FluentLangneg.plain_choosesAvailable
    (Run.of_record _ hrecord) (Run.forall_record hrecord (supportedProfile_pages _))
  rw [show cache.keys.length = 15 from hkeys] at hle
  exact absurd hle (by decide)

end TodoRust.I18n
