import TodoRust.Lib.Split
import TodoRust.Preferences.Override
import TodoRust.Preferences.Visits

/-!
# Which locale a page is in

After any visits, the pages of an account are in the locale it last switched to;
before its first switch, in the one its cookie, its languages or the default give.
-/

namespace TodoRust.Preferences
open Lib Domain Storage I18n Rust App Middleware

/-! ### The cookies of a line -/

/-- A cookie's name and value: what stands before and after its first equals sign. -/
def cookieOf (chunk : List Char) : Option (String × String) :=
  match chunk.dropWhile (· != '=') with
  | _ :: value => some (String.ofList (chunk.takeWhile (· != '=')), String.ofList value)
  | [] => none

/-- The cookies of a `Cookie` line, in order. -/
def cookiesIn (line : String) : List (String × String) :=
  (split line.toList ';').filterMap fun chunk => cookieOf (trimChars chunk)

theorem cookieOf_append {name : List Char} (h : '=' ∉ name) (value : List Char) :
    cookieOf (name ++ '=' :: value) = some (String.ofList name, String.ofList value) := by
  have hname : ∀ c ∈ name, (c != '=') = true := by
    intro c hc
    rw [bne_iff_ne]
    rintro rfl
    exact h hc
  simp [cookieOf, List.dropWhile_append_of_pos hname, List.takeWhile_append_of_pos hname]

/-- A part is read as the locale exactly if that is the cookie's name. -/
theorem isPrefixOf?_locale (chunk : List Char) :
    ("locale=".toList.isPrefixOf? chunk).map String.ofList =
      ((cookieOf chunk).filter (·.1 == "locale")).map Prod.snd := by
  by_cases hsep : '=' ∈ chunk
  · obtain ⟨name, value, rfl, hname⟩ := List.eq_append_cons_of_mem hsep
    have hlocale : '=' ∉ "locale".toList := by decide
    have hread : ∀ rest, "locale=".toList.isPrefixOf? (name ++ '=' :: value) = some rest ↔
        name = "locale".toList ∧ value = rest := by
      intro rest
      rw [List.isPrefixOf?_eq_some_iff_append_eq, ← split_first_inj hname hlocale, eq_comm]
      rfl
    rw [cookieOf_append hname]
    by_cases hkey : name = "locale".toList
    · rw [(hread value).mpr ⟨hkey, rfl⟩, hkey]
      rfl
    · have hnone : "locale=".toList.isPrefixOf? (name ++ '=' :: value) = none := by
        rw [Option.eq_none_iff_forall_ne_some]
        exact fun rest hrest => hkey ((hread rest).mp hrest).1
      have hne : String.ofList name ≠ "locale" := by
        intro h
        exact hkey (by rw [← h, String.toList_ofList])
      rw [hnone]
      simp [hne]
  · have hunread : "locale=".toList.isPrefixOf? chunk = none := by
      rw [Option.eq_none_iff_forall_ne_some]
      intro rest hrest
      rw [List.isPrefixOf?_eq_some_iff_append_eq] at hrest
      exact hsep (hrest ▸ List.mem_append_left rest (by decide))
    have hnone : cookieOf chunk = none := by
      have hnil : chunk.dropWhile (· != '=') = [] := by
        rw [List.dropWhile_eq_nil_iff]
        intro c hc
        rw [bne_iff_ne]
        rintro rfl
        exact hsep hc
      simp [cookieOf, hnil]
    rw [hunread, hnone]
    rfl

theorem readChunk_locale (found : Option String × Option String) (chunk : List Char) :
    (readChunk found chunk).1 =
      (((cookieOf (trimChars chunk)).filter (·.1 == "locale")).map Prod.snd).or found.1 := by
  rw [← isPrefixOf?_locale]
  unfold readChunk
  dsimp only
  split
  · rename_i rest hrest
    rw [hrest]
    rfl
  · rename_i hnone
    rw [hnone]
    split
    · rfl
    · rfl

/-- With at most one cookie of that name, the middleware reads its value. -/
theorem foldl_readChunk_locale (chunks : List (List Char))
    (found : Option String × Option String)
    (hone : ((chunks.filterMap fun chunk => cookieOf (trimChars chunk)).filter
      (·.1 == "locale")).length ≤ 1) :
    (chunks.foldl readChunk found).1 =
      ((chunks.filterMap fun chunk => cookieOf (trimChars chunk)).lookup "locale").or found.1 := by
  induction chunks generalizing found with
  | nil => rfl
  | cons chunk chunks ih =>
      rw [List.filterMap_cons] at hone ⊢
      cases hcookie : cookieOf (trimChars chunk) with
      | none =>
          rw [hcookie] at hone
          rw [List.foldl_cons, ih _ hone, readChunk_locale, hcookie]
          rfl
      | some cookie =>
          obtain ⟨name, value⟩ := cookie
          rw [hcookie] at hone
          by_cases hname : name = "locale"
          · subst hname
            have hrest : (chunks.filterMap fun chunk => cookieOf (trimChars chunk)).filter
                (·.1 == "locale") = [] := by
              simpa using hone
            have hnone : (chunks.filterMap fun chunk => cookieOf (trimChars chunk)).lookup
                "locale" = none := by
              rw [List.lookup_eq_none_iff]
              intro cookie hmem
              rw [List.filter_eq_nil_iff] at hrest
              exact bne_iff_ne.mpr fun h => hrest cookie hmem (beq_iff_eq.mpr h.symm)
            rw [List.foldl_cons, ih _ (by rw [hrest]; exact Nat.zero_le 1), hnone,
              readChunk_locale, hcookie]
            rfl
          · have hrest : ((chunks.filterMap fun chunk => cookieOf (trimChars chunk)).filter
                (·.1 == "locale")).length ≤ 1 := by
              simpa [hname] using hone
            rw [List.foldl_cons, ih _ hrest, readChunk_locale, hcookie, List.lookup_cons]
            have hkey : ("locale" == name) = false := beq_false_of_ne fun h => hname h.symm
            simp [Option.filter, hname, hkey]

/-- What the middleware reads of a readable line. -/
theorem readCookies_line {headers : HeaderMap} {v : HeaderValue} {line : String}
    (hsent : headers.getAll "cookie" = [v]) (hline : v.toStr = some line)
    (hone : ((cookiesIn line).filter (·.1 == "locale")).length ≤ 1) :
    (readCookies headers).1 = (cookiesIn line).lookup "locale" := by
  have hget : headers.get "cookie" = some v := by
    rw [headers.get_eq_head?_getAll, hsent, List.head?_cons]
  rw [readCookies, hget, Option.bind_some, hline]
  exact (foldl_readChunk_locale _ _ hone).trans (Option.or_none ..)

/-! ### The locale of a page -/

/-- The locale an account gets: the one it switched to, the cookie if it counts, what
its languages give, or the default. -/
def resolved (parse : String → Option LanguageIdentifier) (fluent : FluentLangneg)
    (switched cookie acceptLanguage : Option String) : LanguageIdentifier :=
  match switched with
  | some s => langid s
  | none =>
      match cookie.bind (parseSupported parse) with
      | some id => id
      | none =>
          match acceptLanguage with
          | some header => negotiateFromAcceptLanguage fluent header
          | none => defaultLocale

section Resolution
variable {services : Services} {state : AppState} {fluent : FluentLangneg}
variable {h : List (Site × Visit)} {site₀ site : Site}

/-- The middleware's locale under the profile of the account. -/
theorem overrideFromProfile_resolved (hparse : ParsesSupported state.parseLanguage)
    {headers : HeaderMap} {cspNonce : String} {user : User}
    (huser : ∀ s, user.locale = some s → s ∈ supported) :
    (state.overrideFromProfile user (i18nMiddleware state fluent headers cspNonce)).locale =
      resolved state.parseLanguage fluent user.locale (readCookies headers).1
        ((headers.get "accept-language").bind HeaderValue.toStr) := by
  cases hlocale : user.locale with
  | some s =>
      have hne : s ≠ "" := by
        rintro rfl
        exact absurd (huser "" hlocale) (by decide)
      rw [overrideFromProfile_parsed hlocale (hparse s (huser s hlocale)) hne]
      rfl
  | none =>
      rw [overrideFromProfile_absent hlocale]
      rfl

/-- For an account, a page of these routes has the locale the override leaves. -/
theorem shown_locale {client : Nat} {headers : HeaderMap} {cspNonce : String} {route : Route}
    {cs : Nat → Choice} {row : UserRow} (hrow : site.account client = some row)
    (hroute : showsProfile route = true) {page : Context}
    (hpage : page ∈ shown services state fluent site
      (.request client headers cspNonce route cs)) :
    page.lookup "_locale" = some (.str (state.overrideFromProfile (rowToUser row)
      (i18nMiddleware state fluent headers cspNonce)).locale.toString) := by
  obtain ⟨e, he, hshown⟩ := List.mem_filterMap.mp hpage
  obtain ⟨template, rfl⟩ : ∃ template, e = .render template page := by
    cases e with
    | render template shown =>
        obtain rfl := Option.some.inj hshown
        exact ⟨template, rfl⟩
    | _ => cases hshown
  rcases serve_performed he with ⟨stmt, hstmt⟩ | ⟨cs', s', hhandle⟩
  · cases hstmt
  · let shows (page : Context) : Prop := page.lookup "_locale" = some (.str
      (state.overrideFromProfile (rowToUser row)
        (i18nMiddleware state fluent headers cspNonce)).locale.toString)
    have hpages : Prog.Obeys (pages shows) Ends ()
        (handle state ⟨some (rowToUser row)⟩
          ⟨headers, i18nMiddleware state fluent headers cspNonce, route⟩).run := by
      apply handle_pages hroute
      intro user huser extra hextra
      obtain rfl := Option.some.inj huser
      simp only [shows, List.lookup_append, hextra, Option.none_or]
      rfl
    have hdone : Prog.Obeys (pages shows) Ends () ((handle state ⟨some (rowToUser row)⟩
        ⟨headers, i18nMiddleware state fluent headers cspNonce, route⟩).run >>= fun done =>
          Prog.ret (Handler.finish done)) :=
      hpages.bind fun _ _ _ => trivial
    rw [show accountOf site.world.db (site.session client) = some row from hrow] at hhandle
    obtain ⟨_, hallowed⟩ := hdone.performed (fun _ _ _ _ _ => trivial) cs' s' _ hhandle
    exact hallowed

/-- After any visits every profile locale is supported, and each page of an account is
in the locale it last switched to, or else in that of its cookie, its languages or
English. -/
theorem locale_resolution (services : Services) (state : AppState) (fluent : FluentLangneg)
    (hparse : ParsesSupported state.parseLanguage) (hfluent : fluent.ChoosesAvailable)
    {h : List (Site × Visit)} {site₀ site : Site}
    (run : Run (step services state fluent) site₀ h site)
    (hnew : ∀ row ∈ site₀.world.db.users, row.locale = none) :
    (∀ row ∈ site.world.db.users, ∀ s, row.locale = some s → s ∈ supported) ∧
    (∀ client s, lastCookie services state fluent h client = some s →
      parseSupported state.parseLanguage s = some (langid s)) ∧
    (∀ header, negotiateFromAcceptLanguage fluent header ∈ supported.map langid) ∧
    ∀ client headers cspNonce route cs row v line, site.account client = some row →
      showsProfile route = true → headers.getAll "cookie" = [v] → v.toStr = some line →
      ((cookiesIn line).filter (·.1 == "locale")).length ≤ 1 →
      ∀ page ∈ shown services state fluent site (.request client headers cspNonce route cs),
        page.lookup "_locale" = some (.str (resolved state.parseLanguage fluent
          (lastSwitch services state fluent h row.id) ((cookiesIn line).lookup "locale")
          ((headers.get "accept-language").bind HeaderValue.toStr)).toString) := by
  have hlocated := run_located run hnew
  have hsupported : ∀ row ∈ site.world.db.users, ∀ s, row.locale = some s → s ∈ supported :=
    fun row hrow s hs => (hlocated.known row.id s (hlocated.locale row hrow ▸ hs)).1
  refine ⟨hsupported, ?_, negotiateFromAcceptLanguage_mem hfluent, ?_⟩
  · exact fun client s hs => parseSupported_of_mem hparse (lastCookie_mem hs)
  · intro client headers cspNonce route cs row v line hrow hroute hsent hline hone page hpage
    have hmem := accountOf_mem hrow
    have hlast : (rowToUser row).locale = lastSwitch services state fluent h row.id :=
      hlocated.locale row hmem
    rw [shown_locale hrow hroute hpage, overrideFromProfile_resolved hparse (hsupported row hmem),
      readCookies_line hsent hline hone, hlast]

end Resolution

/-- Ann logs in, switches to French and logs out; then she logs in elsewhere. -/
def annSwitches : List Visit :=
  let cs : Nat → Choice := fun _ => .plain 0 ⟨7⟩
  let login : Route := .login ⟨"ann@example.org", "correct horse", none⟩
  [.request 0 [] "" login cs, .request 0 [] "" (.updateLocale " fr ") cs, .logout 0 [] cs (cs 0),
    .request 1 [] "" login cs]

def plainSite : Site := ⟨World.plain, fun _ => none⟩

/-- Her list is in French where the cookie asks for German. -/
theorem locale_resolution_elsewhere : ∃ h site page,
    Run.record (step .plain .plain .plain) plainSite annSwitches = some (h, site) ∧
    shown .plain .plain .plain site
      (.request 1 [("cookie", ⟨asBytes "theme=dark; locale=de", by decide⟩)] "" .list
        fun _ => .plain 0 ⟨7⟩) = [page] ∧
    page.lookup "_locale" = some (.str "fr") := by
  have hparse : ParsesSupported AppState.plain.parseLanguage := by
    intro s hs
    simp [AppState.plain, hs, langid]
  have hrecord : Run.record (step .plain .plain .plain) plainSite annSwitches = some (_, _) := rfl
  have hresolved := (locale_resolution .plain .plain .plain hparse
    FluentLangneg.plain_choosesAvailable (Run.of_record annSwitches hrecord) (by decide)).2.2.2 1
    [("cookie", ⟨asBytes "theme=dark; locale=de", by decide⟩)] "" .list (fun _ => .plain 0 ⟨7⟩)
    _ _ "theme=dark; locale=de" rfl rfl rfl (by decide) (by decide)
  exact ⟨_, _, _, hrecord, rfl, hresolved _ (List.mem_singleton.mpr rfl)⟩

end TodoRust.Preferences
