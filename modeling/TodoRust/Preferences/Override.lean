import TodoRust.App.State
import TodoRust.I18n.Negotiate

/-!
# The profile override

The precedence of the locale sources is written down twice: in `negotiate`, and
in the request path, where the middleware negotiates without a profile and the
handler overrides the result. The override takes any profile that parses.
-/

namespace TodoRust.Preferences
open Domain Storage I18n App

/-- The profile, if it parses, names a supported language. -/
def ProfileSupported (parse : String → Option LanguageIdentifier) (profile : Option String) :
    Prop :=
  ∀ s id, profile = some s → parse s = some id → id.language ∈ supported

section Override
variable {state : AppState} {fluent : FluentLangneg} {user : User} {request : RequestContext}

theorem overrideFromProfile_absent (h : user.locale = none) :
    (state.overrideFromProfile user request).locale = request.locale := by
  simp [AppState.overrideFromProfile, h]

/-- A profile that does not parse is no profile. -/
theorem overrideFromProfile_unparsed {s : String} (h : user.locale = some s)
    (hs : state.parseLanguage s = none) :
    (state.overrideFromProfile user request).locale = request.locale := by
  simp [AppState.overrideFromProfile, h, hs]

/-- A profile that parses is taken, whatever its language. -/
theorem overrideFromProfile_parsed {s : String} {id : LanguageIdentifier}
    (h : user.locale = some s) (hs : state.parseLanguage s = some id) (hne : s ≠ "") :
    (state.overrideFromProfile user request).locale = id := by
  simp [AppState.overrideFromProfile, h, hs, hne]

/-- The request path and `negotiate` choose the same locale exactly when the profile
is absent, does not parse, or names a supported language. -/
theorem overrideFromProfile_negotiate_iff (hempty : state.parseLanguage "" = none)
    (hfluent : fluent.ChoosesAvailable) (user : User) (acceptLang cookie : Option String)
    (tz : Tz) (nonce : String) :
    (state.overrideFromProfile user
      ⟨negotiate state.parseLanguage fluent acceptLang cookie none, tz, nonce⟩).locale =
        negotiate state.parseLanguage fluent acceptLang cookie user.locale ↔
      ProfileSupported state.parseLanguage user.locale := by
  cases hprofile : user.locale with
  | none =>
      rw [overrideFromProfile_absent hprofile]
      exact iff_of_true rfl fun s id h => by cases h
  | some s =>
      cases hparse : state.parseLanguage s with
      | none =>
          rw [overrideFromProfile_unparsed hprofile hparse]
          have hnone : (some s).bind (parseSupported state.parseLanguage) = none := by
            simp [parseSupported, hparse]
          refine iff_of_true (negotiate_of_no_profile hnone).symm ?_
          intro s' id hs h
          rw [← Option.some.inj hs, hparse] at h
          cases h
      | some id =>
          have hne : s ≠ "" := by
            rintro rfl
            rw [hempty] at hparse
            cases hparse
          rw [overrideFromProfile_parsed hprofile hparse hne]
          constructor
          · -- the negotiated language is always a supported one
            intro hid s' id' hs h
            obtain rfl := Option.some.inj hs
            obtain rfl : id = id' := Option.some.inj (hparse.symm.trans h)
            rw [hid]
            exact negotiate_language hfluent acceptLang cookie _
          · intro h
            have haccepted := parseSupported_eq_some_iff.mpr ⟨hparse, h s id rfl hparse⟩
            exact (negotiate_of_profile haccepted).symm

end Override

/-- A deployment whose parser accepts every bare language. -/
def anyLanguage : AppState :=
  { AppState.plain with parseLanguage := fun s => if s = "" then none else some (langid s) }

/-- Ann with a profile locale. -/
def annWith (locale : String) : User := { rowToUser annRow with locale := some locale }

theorem overrideFromProfile_negotiate_fr :
    (anyLanguage.overrideFromProfile (annWith "fr")
      ⟨negotiate anyLanguage.parseLanguage .plain (some "de") (some "es") none, utc, ""⟩).locale =
        negotiate anyLanguage.parseLanguage .plain (some "de") (some "es") (some "fr") := by
  apply (overrideFromProfile_negotiate_iff rfl FluentLangneg.plain_choosesAvailable
    (annWith "fr") (some "de") (some "es") utc "").mpr
  rintro s id hs hid
  obtain rfl : "fr" = s := Option.some.inj hs
  obtain rfl : langid "fr" = id := Option.some.inj hid
  decide

theorem overrideFromProfile_ja :
    ¬ ∀ (state : AppState) (fluent : FluentLangneg) (user : User)
      (acceptLang cookie : Option String) (tz : Tz) (nonce : String),
      state.parseLanguage "" = none → fluent.ChoosesAvailable →
      (state.overrideFromProfile user
        ⟨negotiate state.parseLanguage fluent acceptLang cookie none, tz, nonce⟩).locale =
          negotiate state.parseLanguage fluent acceptLang cookie user.locale := by
  intro h
  have hja := h anyLanguage .plain (annWith "ja") none none utc "" rfl
    FluentLangneg.plain_choosesAvailable
  exact absurd hja (by decide)

end TodoRust.Preferences
