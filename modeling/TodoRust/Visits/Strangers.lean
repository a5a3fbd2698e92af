import TodoRust.Lib.Uniform
import TodoRust.Visits.WithoutRedis

/-!
# What strangers can find out

A client that is not logged in and has no valid credentials is answered without regard to
the accounts there are: a login is refused in the same way, after the same work, whether
the account does not exist or the password is wrong.
-/

namespace TodoRust.Visits
open Lib Domain Storage App Middleware Preferences

/-- The credentials are those of no account. -/
def Refused (services : Services) (db : Database) (creds : Credentials) : Prop :=
  ∀ row, db.selectUserByEmail services.pg (Rust.trim creds.email) = some row →
    services.passwords.verifyPassword creds.password row.passwordHash = false

/-- A request that lets nobody in. -/
def LetsNobodyIn (services : Services) (db : Database) : Route → Prop
  | .login creds => Refused services db creds
  | .signup _ => False
  | .index | .list | .create _ | .toggle _ | .delete _ | .updateLocale _ => True

/-- What an effect looks like from outside: which hash a password is verified against
does not show. -/
def look : Effect → Effect
  | .verifyPassword password _ => .verifyPassword password ""
  | e => e

section Handlers
variable {services : Services} {state : AppState}

/-- The same for everyone who is let in nowhere. -/
abbrev Blind {α : Type} (services : Services) (route : Route) (post : α → Prop)
    (p : Action α) : Prop :=
  Prog.Uniform (Preferences.actOn services) look
    (fun s : World × Option Session => LetsNobodyIn services s.1.db route) post p

/-- Nobody was found, or nothing could be found out. -/
def NobodyFound (found : Except StorageError (Option User)) : Prop :=
  ∀ user, found ≠ .ok (some user)

theorem nobodyFound_error {e : StorageError} : NobodyFound (.error e) := by
  intro user hfound
  cases hfound

theorem nobodyFound_none : NobodyFound (.ok none) := by
  intro user hfound
  cases hfound

/-- The verification takes one lookup and one check of a password, whose hash is that of
the account or a fixed one. -/
theorem verify_blind (creds : Credentials) :
    Blind services (.login creds) NobodyFound
      (UserRepository.verify creds.email creds.password).run := by
  intro cs
  rw [UserRepository.verify_program]
  simp only [Prog.run_op, Prog.performed, List.map_cons, Preferences.actOn, act_sql]
  cases hlookup : (cs 0).fault with
  | some message =>
      refine ⟨.error (.database (.other message)), [_], nobodyFound_error,
        fun s hs => ⟨rfl, rfl⟩⟩
  | none =>
      by_cases htext : services.pg.storesText (Rust.trim creds.email) = true
      · have hexec (db : Database) :
            db.exec services.pg (cs 0).now (.selectUserByEmail (Rust.trim creds.email)) =
              (.ok (db.selectUserByEmail services.pg (Rust.trim creds.email)), db) := by
          simp [Database.exec, Statement.texts, htext, Database.perform]
        simp only [hexec, Prog.run_op, Prog.performed, List.map_cons, Preferences.actOn, act]
        cases hcheck : (cs (0 + 1)).fault with
        | some message =>
            refine ⟨.error (.join message), [_, _], nobodyFound_error, fun s hs => ⟨rfl, rfl⟩⟩
        | none =>
            refine ⟨.ok none, [_, _], nobodyFound_none, fun s hs => ⟨?_, rfl⟩⟩
            simp only [Prog.run_ret, Except.map, Except.mapError]
            cases hfound : s.1.db.selectUserByEmail services.pg (Rust.trim creds.email) with
            | none => simp
            | some row =>
                have hwrong : services.passwords.verifyPassword creds.password row.passwordHash =
                    false := hs row hfound
                simp [UserRepository.storedHash, hwrong]
      · have hexec (db : Database) :
            db.exec services.pg (cs 0).now (.selectUserByEmail (Rust.trim creds.email)) =
              (.error .invalidText, db) := by
          simp [Database.exec, Statement.texts, htext]
        simp only [hexec]
        refine ⟨.error (.database .invalidText), [_], nobodyFound_error, fun s hs => ⟨rfl, rfl⟩⟩

theorem renderPage_blind {route : Route} {status : Rust.StatusCode} {headers : Rust.HeaderMap}
    {template : String} {page : Context} :
    Blind services route (fun _ => True) (renderPage status headers template page).run := by
  rw [renderPage_program]
  apply Prog.Uniform.op
  · intro c
    refine ⟨(command c World.plain World.plain).1, fun s _ => ?_⟩
    simp only [Preferences.actOn, act, command_self]
    rw [command_reply c s.1 World.plain]
  · intro r
    cases r with
    | ok u => exact .ret trivial
    | error message => exact .ret trivial

theorem login_blind (headers : Rust.HeaderMap) (context : RequestContext) (creds : Credentials) :
    Blind services (.login creds) (fun _ => True) (login state headers context creds).run := by
  unfold login
  dsimp only
  split
  · exact renderPage_blind
  · rw [ExceptT.run_bind_lift]
    apply (verify_blind creds).bind
    intro found hnobody
    match found with
    | .error _ => exact .ret trivial
    | .ok none => exact renderPage_blind
    | .ok (some user) => exact absurd rfl (hnobody user)

/-- Whoever is not logged in is sent away, but for the switch of the locale. -/
theorem handle_ret {headers : Rust.HeaderMap} {context : RequestContext} {route : Route}
    (hroute : logsIn route = false) :
    ∃ r, (handle state ⟨none⟩ ⟨headers, context, route⟩).run = .ret r := by
  cases route with
  | index =>
      simp only [handle, index, redirectTo]
      cases Rust.HeaderValue.fromStr "/login" with
      | none => exact ⟨_, rfl⟩
      | some location => exact ⟨_, rfl⟩
  | list | create | toggle | delete => exact ⟨_, rfl⟩
  | updateLocale locale =>
      simp only [handle, updateLocale]
      split
      · exact ⟨_, rfl⟩
      · cases localeCookie state (Rust.trim locale) with
        | none => exact ⟨_, rfl⟩
        | some cookie => exact ⟨_, rfl⟩
  | login | signup => cases hroute

theorem handle_blind (headers : Rust.HeaderMap) (context : RequestContext) (route : Route) :
    Blind services route (fun _ => True) (handle state ⟨none⟩ ⟨headers, context, route⟩).run := by
  have hsent (hroute : logsIn route = false) :
      Blind services route (fun _ => True) (handle state ⟨none⟩ ⟨headers, context, route⟩).run := by
    obtain ⟨r, hr⟩ := handle_ret hroute
    rw [hr]
    exact .ret trivial
  cases route with
  | index | list | create | toggle | delete | updateLocale => exact hsent rfl
  | login creds => exact login_blind headers context creds
  | signup new =>
      -- no state is of that kind
      intro cs
      exact ⟨.error (.error .unauthorized), [], trivial, fun s hs => absurd hs id⟩

theorem serve_blind (services : Services) (state : AppState) (headers : Rust.HeaderMap)
    (context : RequestContext) (route : Route) :
    Blind services route (fun _ => True) (serve state none ⟨headers, context, route⟩) := by
  apply (handle_blind headers context route).bind
  exact fun _ _ => .ret trivial

end Handlers

/-! ### Visits -/

section Visits
variable (services : Services) (state : AppState) (fluent : I18n.FluentLangneg)

/-- A visit that lets nobody in. -/
def Harmless (db : Database) : Visit → Prop
  | .request _ _ _ route _ => LetsNobodyIn services db route
  | .logout .. => True

/-- What shows of a visit: the answer, and what the steps taken for it look like. -/
def shows (site : Site) (v : Visit) : Except String Response × List Effect :=
  (answer services state fluent (site, v),
    (taken services state fluent site v).map fun x => look x.1)

/-- What shows of visits that follow one another. -/
def observed (site : Site) : List Visit → List (Except String Response × List Effect)
  | [] => []
  | v :: visits => shows services state fluent site v ::
      observed (visit services state fluent site v).2 visits

/-- The step lemma: a harmless visit shows the same to strangers of all sites, and leaves
each site as it was. -/
theorem visit_blind (v : Visit) : ∃ seen, ∀ site : Site, (∀ client, site.session client = none) →
    Harmless services site.world.db v →
      shows services state fluent site v = seen ∧
        (visit services state fluent site v).2 = site := by
  cases v with
  | request client headers cspNonce route cs =>
      obtain ⟨r, l, _, hserve⟩ := serve_blind services state headers
        (i18nMiddleware state fluent headers cspNonce) route cs
      refine ⟨(r, l), fun site hnone hharmless => ?_⟩
      obtain ⟨hrun, hlook⟩ := hserve (site.world, site.session client) hharmless
      have hsteps : (taken services state fluent site
          (.request client headers cspNonce route cs)).map (fun x => look x.1) = l := by
        rw [← hlook, ← Prog.steps_performed, List.map_map]
        simp only [taken, hnone client]
        rfl
      rw [← hnone client] at hrun
      simp only [shows, hsteps, answer, visit, hrun, Function.update_eq_self, and_self]
  | logout client headers cs flush =>
      obtain ⟨r, hr⟩ := logout_ret headers (command flush World.plain World.plain).1
      refine ⟨(Handler.finish r, []), fun site hnone _ => ?_⟩
      have hflushed : setSession flush (site.session client) none = site.session client := by
        rw [setSession, hnone client, ite_self]
      simp only [shows, answer, taken, visit, hflushed, Function.update_eq_self]
      rw [hnone client, command_reply flush site.world World.plain, hr]
      exact ⟨rfl, rfl⟩

end Visits

/-- Two sites with different accounts look the same to strangers: whatever requests they
send, each is answered alike and after the same steps, as long as no login succeeds and
nobody signs up. -/
theorem strangers_learn_nothing (services : Services) (state : AppState)
    (fluent : I18n.FluentLangneg) (site site' : Site) (visits : List Visit)
    (hnone : ∀ client, site.session client = none) (hnone' : ∀ client, site'.session client = none)
    (hharmless : ∀ v ∈ visits, Harmless services site.world.db v ∧
      Harmless services site'.world.db v) :
    observed services state fluent site visits = observed services state fluent site' visits := by
  induction visits with
  | nil => rfl
  | cons v visits ih =>
      obtain ⟨⟨hv, hv'⟩, hrest⟩ := List.forall_mem_cons.mp hharmless
      obtain ⟨seen, hseen⟩ := visit_blind services state fluent v
      obtain ⟨hshows, hsame⟩ := hseen site hnone hv
      obtain ⟨hshows', hsame'⟩ := hseen site' hnone' hv'
      simp only [observed, hshows, hshows', hsame, hsame']
      exact congrArg (seen :: ·) (ih hrest)

/-- Somebody tries a password for Ann's account. -/
def guesses : List Visit :=
  [.request 5 [] "" (.login ⟨"ann@example.org", "battery staple", none⟩) fun _ => .plain 0 ⟨7⟩,
    .request 5 [] "" .list fun _ => .plain 0 ⟨7⟩]

/-- That does not tell whether there is such an account. -/
theorem strangers_learn_nothing_ann :
    observed .plain .plain .plain plainSite guesses =
      observed .plain .plain .plain ⟨⟨⟨[], []⟩, fun _ => none⟩, fun _ => none⟩ guesses := by
  apply strangers_learn_nothing .plain .plain .plain
  · exact fun _ => rfl
  · exact fun _ => rfl
  · intro v hv
    simp only [guesses, List.mem_cons, List.not_mem_nil, or_false] at hv
    rcases hv with rfl | rfl
    · refine ⟨fun row hrow => ?_, fun row hrow => by cases hrow⟩
      have hann : World.plain.db.selectUserByEmail Services.plain.pg
          (Rust.trim "ann@example.org") = some annRow := rfl
      obtain rfl := Option.some.inj (hann.symm.trans hrow)
      decide
    · exact ⟨trivial, trivial⟩

end TodoRust.Visits
