import TodoRust.Lib.Run
import TodoRust.Middleware.I18n
import TodoRust.Preferences.Pages

/-!
# Visits and switches of the locale

The site with the sessions of its clients, visited one request after the other. A
switch is a successful `POST /preferences/locale`; the locale of every account is
the one it last switched to, and no account has another locale.
-/

namespace TodoRust.Preferences
open Lib Domain Storage I18n Rust App Middleware

/-- The site: the world, and what the session store holds for each client. -/
structure Site where
  world : World
  session : Nat → Option Session

/-- What a client sends, with what the environment contributes to the answer. -/
inductive Visit
  | request (client : Nat) (headers : HeaderMap) (cspNonce : String) (route : Route)
      (cs : Nat → Choice)
  | logout (client : Nat) (headers : HeaderMap) (cs : Nat → Choice) (flush : Choice)

def Visit.client : Visit → Nat
  | .request client .. | .logout client .. => client

/-- A write to the session store, which may fail after it took effect. -/
def setSession (c : Choice) (session written : Option Session) : Option Session :=
  if c.fault.isNone || c.tookEffect then written else session

/-- One effect, on the tables, the cache and the client's session. -/
def actOn (services : Services) (c : Choice) (e : Effect) (s : World × Option Session) :
    e.Reply × World × Option Session :=
  let done := act services c e s.1
  (done.1, done.2, match e with
    | .sessionLogin user => setSession c s.2 (some ⟨user.id.uuid, user.passwordHash⟩)
    | _ => s.2)

/-- The row of the account a session belongs to. -/
def accountOf (db : Database) (session : Option Session) : Option UserRow :=
  session.bind fun data =>
    (db.selectUser data.userId).filter fun row => row.passwordHash = data.authHash

/-- What a user agent keeps of a `Set-Cookie` line for the locale. -/
def keptLocale (line : HeaderValue) : Option String := do
  let text ← line.toStr
  let value ← "locale=".toList.isPrefixOf? (text.toList.takeWhile (· != ';'))
  return String.ofList value

section Visits
variable (services : Services) (state : AppState) (fluent : FluentLangneg)

/-- The answer to a visit, and the site after it. -/
def visit (site : Site) : Visit → Except String Response × Site
  | .request client headers cspNonce route cs =>
      let context := i18nMiddleware state fluent headers cspNonce
      let done := (serve state (site.session client) ⟨headers, context, route⟩).run
        (actOn services) cs (site.world, site.session client)
      (done.1, ⟨done.2.1, Function.update site.session client done.2.2⟩)
  | .logout client headers cs flush =>
      match ((AuthSession.fromSession (site.session client)).run.run (act services) cs
        site.world).1 with
      | .error _ => (.ok (StatusCode.intoResponse StatusCode.internalServerError), site)
      | .ok _ =>
          let done := (logout headers (command flush site.world site.world).1).run.run
            (act services) cs site.world
          (Handler.finish done.1, { site with
            session := Function.update site.session client
              (setSession flush (site.session client) none) })

/-- The pages that are rendered for a visit. -/
def shown (site : Site) : Visit → List Context
  | .request client headers cspNonce route cs =>
      let context := i18nMiddleware state fluent headers cspNonce
      let effects := (serve state (site.session client) ⟨headers, context, route⟩).performed
        (actOn services) cs (site.world, site.session client)
      effects.filterMap fun e => match e with
        | .render _ page => some page
        | _ => none
  | .logout .. => []

/-- Visits in sequence. -/
def step (site : Site) (v : Visit) : Option Site := some (visit services state fluent site v).2

/-- The row of the account a client is logged in to. -/
def Site.account (site : Site) (client : Nat) : Option UserRow :=
  accountOf site.world.db (site.session client)

/-- The locale a visit switches to, if it is a switch and succeeds. -/
def switch? (site : Site) (v : Visit) : Option String :=
  match v with
  | .request _ _ _ (.updateLocale locale) _ =>
      match (visit services state fluent site v).1 with
      | .ok response =>
          if response.status = StatusCode.noContent ∨ response.status = StatusCode.seeOther then
            some (trim locale)
          else none
      | .error _ => none
  | _ => none

/-- The locale cookie an answer sets, if it does. -/
def setLocale (answer : Except String Response) : Option String :=
  answer.toOption.bind fun response => (response.headers.get "set-cookie").bind keptLocale

/-- The locale an account last switched to while logged in. -/
def lastSwitch (h : List (Site × Visit)) (u : Uuid) : Option String :=
  (h.filterMap fun x =>
    (switch? services state fluent x.1 x.2).filter fun _ =>
      (x.1.account x.2.client).any fun row => row.id == u).getLast?

/-- The locale cookie that the last switch of a client has set. -/
def lastCookie (h : List (Site × Visit)) (client : Nat) : Option String :=
  (h.filterMap fun x =>
    if x.2.client = client then
      (switch? services state fluent x.1 x.2).bind fun _ =>
        setLocale (visit services state fluent x.1 x.2).1
    else none).getLast?

end Visits

section Answers
variable {services : Services} {state : AppState} {cs : Nat → Choice} {w : World}

theorem run_actOn {α : Type} (p : Action α) (cs : Nat → Choice) (w : World)
    (session : Option Session) :
    p.run (act services) cs w =
      ((p.run (actOn services) cs (w, session)).1, (p.run (actOn services) cs (w, session)).2.1) :=
  Prog.run_map Prod.fst (fun _ _ _ => rfl) p cs (w, session)

/-- Loading the session's user only reads, and finds the account unless it fails. -/
theorem fromSession_run (services : Services) (session : Option Session) (cs : Nat → Choice)
    (w : World) :
    ((AuthSession.fromSession session).run.run (act services) cs w).2 = w ∧
      ((∃ e, ((AuthSession.fromSession session).run.run (act services) cs w).1 = .error e) ∨
        ((AuthSession.fromSession session).run.run (act services) cs w).1 =
          .ok ⟨(accountOf w.db session).map rowToUser⟩) := by
  cases session with
  | none => exact ⟨rfl, Or.inr rfl⟩
  | some data =>
      simp only [AuthSession.fromSession, ExceptT.run_bind, UserRepository.findById_program,
        Prog.op_bind, Prog.ret_bind, Prog.run_op, act_sql, Database.exec_selectUser]
      cases (cs 0).fault with
      | some message => exact ⟨rfl, Or.inl ⟨_, rfl⟩⟩
      | none =>
          refine ⟨rfl, Or.inr ?_⟩
          have huser : ((w.db.selectUser data.userId).map rowToUser).filter
              (fun u => u.passwordHash = data.authHash) =
                (accountOf w.db (some data)).map rowToUser :=
            Option.filter_map
          exact congrArg (fun user => Except.ok (AuthSession.mk user)) huser

/-- A switch sets the locale and leaves the time zone. -/
theorem updatePreferences_locale (id : UserId) {candidate : String} (h : candidate ≠ "") :
    (UserRepository.updatePreferences id (some candidate) none).run =
      .op (.sql (.updatePreferences id.uuid true (some candidate) false none)) fun r =>
        .ret ((r.map fun _ => ()).mapError .database) := by
  have hset : UserRepository.preference (some candidate) = (true, some candidate) := by
    simp [UserRepository.preference, h]
  rw [UserRepository.updatePreferences, hset]
  apply execute_program
  · exact fun _ => rfl
  · exact fun _ => rfl

/-- A switch is refused, or sets the cookie and, for a user, the locale. -/
theorem updateLocale_run (services : Services) (state : AppState) (auth : AuthSession)
    (headers : HeaderMap) (locale : String) (cs : Nat → Choice) (w : World) :
    let done := (updateLocale state auth headers locale).run.run (act services) cs w
    (∃ e : AppError, done = (.error (.error e), w)) ∨
      trim locale ∈ supported ∧ ∃ cookie now, localeCookie state (trim locale) = some cookie ∧
        done.1 = .ok (localeResponse headers cookie) ∧
        done.2.db = (auth.user.elim w.db fun user =>
          (w.db.updatePreferences now user.id.uuid true (some (trim locale)) false none).2) := by
  obtain ⟨user⟩ := auth
  unfold updateLocale
  dsimp only
  generalize trim locale = candidate
  cases hknown : supported.contains candidate with
  | false => exact Or.inl ⟨_, rfl⟩
  | true =>
      have hmem : candidate ∈ supported := List.contains_iff_mem.mp hknown
      obtain ⟨cookie, hcookie⟩ := Option.isSome_iff_exists.mp (localeCookie_isSome hknown)
      rw [hcookie]
      cases user with
      | none => exact Or.inr ⟨hmem, cookie, 0, rfl, rfl, rfl⟩
      | some user =>
          have hne : candidate ≠ "" := fun h => absurd (h ▸ hmem) (by decide)
          simp only [Bool.not_true, Bool.false_eq_true, if_false, Handler.run_call_bind,
            updatePreferences_locale user.id hne, Prog.op_bind, Prog.ret_bind, Prog.run_op, act_sql]
          cases (cs 0).fault with
          | some message => exact Or.inl ⟨_, rfl⟩
          | none =>
              let stmt : Statement :=
                .updatePreferences user.id.uuid true (some candidate) false none
              have hexec : w.db.exec services.pg (cs 0).now stmt =
                  w.db.perform services.pg (cs 0).now stmt ∨
                    w.db.exec services.pg (cs 0).now stmt = (.error .invalidText, w.db) :=
                ite_eq_or_eq _ _ _
              rcases hexec with hexec | hexec
              · rw [hexec]
                exact Or.inr ⟨hmem, cookie, (cs 0).now, rfl, rfl, rfl⟩
              · rw [hexec]
                exact Or.inl ⟨_, rfl⟩

/-- A request fails before its handler, or is the handler's. -/
theorem serve_cases (session : Option Session) (request : Request) (cs : Nat → Choice)
    (w : World) :
    (serve state session request).run (act services) cs w =
        (.ok (StatusCode.intoResponse StatusCode.internalServerError), w) ∨
      ∃ cs', (serve state session request).run (act services) cs w =
        let done := (handle state ⟨(accountOf w.db session).map rowToUser⟩ request).run.run
          (act services) cs' w
        (Handler.finish done.1, done.2) := by
  obtain ⟨hkept, hloaded⟩ := fromSession_run services session cs w
  obtain ⟨n, hrun⟩ := Prog.run_bind (act services) (AuthSession.fromSession session).run
    (fun auth => match auth with
      | .error _ => return .ok (StatusCode.intoResponse StatusCode.internalServerError)
      | .ok auth => return Handler.finish (← (handle state auth request).run)) cs w
  rcases hloaded with ⟨e, herror⟩ | hauth
  · rw [hkept, herror] at hrun
    exact Or.inl hrun
  · rw [hkept, hauth] at hrun
    exact Or.inr ⟨_, hrun.trans (Prog.run_bind_ret _ _ _ _ _)⟩

/-- What a request does besides loading its user is done by the handler. -/
theorem serve_performed {session : Option Session} {request : Request} {cs : Nat → Choice}
    {s : World × Option Session} {e : Effect}
    (he : e ∈ (serve state session request).performed (actOn services) cs s) :
    (∃ stmt, e = .sql stmt) ∨ ∃ cs' s', e ∈ ((handle state
      ⟨(accountOf s.1.db session).map rowToUser⟩ request).run >>= fun done =>
        Prog.ret (Handler.finish done)).performed (actOn services) cs' s' := by
  obtain ⟨w, kept⟩ := s
  obtain ⟨n, hserve⟩ := Prog.performed_bind (actOn services) (AuthSession.fromSession session).run
    (fun auth => match auth with
      | .error _ => return .ok (StatusCode.intoResponse StatusCode.internalServerError)
      | .ok auth => return Handler.finish (← (handle state auth request).run)) cs (w, kept)
  rcases List.mem_append.mp (Eq.mp (congrArg (e ∈ ·) hserve) he) with hload | hhandle
  · left
    cases session with
    | none => cases hload
    | some data =>
        simp only [AuthSession.fromSession, ExceptT.run_bind, UserRepository.findById_program,
          Prog.op_bind, Prog.ret_bind, Prog.performed, List.mem_cons] at hload
        rcases hload with rfl | hrest
        · exact ⟨_, rfl⟩
        · generalize (Except.mapError StorageError.database _ : Except StorageError _) = loaded
            at hrest
          cases loaded with
          | error e => cases hrest
          | ok user => cases hrest
  · have hrun : ((AuthSession.fromSession session).run.run (actOn services) cs (w, kept)).1 =
        ((AuthSession.fromSession session).run.run (act services) cs w).1 :=
      (congrArg Prod.fst (run_actOn _ cs w kept)).symm
    rw [hrun] at hhandle
    rcases (fromSession_run services session cs w).2 with ⟨e, herror⟩ | hauth
    · rw [herror] at hhandle
      cases hhandle
    · rw [hauth] at hhandle
      exact Or.inr ⟨_, _, hhandle⟩

end Answers

section Switch
variable {services : Services} {state : AppState} {fluent : FluentLangneg} {site : Site}
variable {client : Nat} {headers : HeaderMap} {cspNonce : String} {cs : Nat → Choice}

/-- A user agent keeps the locale that was written. -/
theorem keptLocale_localeCookie {candidate : String} (h : candidate ∈ supported) :
    (localeCookie state candidate).bind keptLocale = some candidate := by
  obtain ⟨cookie, hcookie, hread⟩ := Option.bind_eq_some_iff.mp (localeCookie_toStr state h)
  have hvalue : ∀ c ∈ "locale=".toList ++ candidate.toList, (c != ';') = true := by
    have hsupported : (supported.all fun s => ("locale=".toList ++ s.toList).all (· != ';')) =
        true := by
      decide
    exact List.all_eq_true.mp (List.all_eq_true.mp hsupported candidate h)
  have hpath : "; Path=/; Max-Age=31536000; SameSite=Lax".toList =
      ';' :: " Path=/; Max-Age=31536000; SameSite=Lax".toList := rfl
  have hcut : ("locale=" ++ candidate ++ "; Path=/; Max-Age=31536000; SameSite=Lax" ++
      if state.cookieSecure then "; Secure" else "").toList.takeWhile (· != ';') =
        "locale=".toList ++ candidate.toList := by
    rw [String.toList_append, String.toList_append, String.toList_append, hpath, List.append_assoc,
      List.takeWhile_append_of_pos hvalue]
    exact List.append_nil _
  have hname : "locale=".toList.isPrefixOf? ("locale=".toList ++ candidate.toList) =
      some candidate.toList :=
    List.isPrefixOf?_eq_some_iff_append_eq.mpr rfl
  rw [hcookie, Option.bind_some, keptLocale, hread]
  dsimp only [Option.bind_eq_bind, Option.bind_some]
  rw [hcut, hname, Option.bind_some, String.ofList_toList]
  rfl

theorem setLocale_localeResponse {candidate : String} (h : candidate ∈ supported)
    {cookie : HeaderValue} (hcookie : localeCookie state candidate = some cookie) :
    setLocale (.ok (localeResponse headers cookie)) = some candidate := by
  have hset : (localeResponse headers cookie).headers.get "set-cookie" = some cookie := by
    have hrefresh : "set-cookie" ≠ "hx-refresh" := by decide
    have hlocation : "set-cookie" ≠ "location" := by decide
    unfold localeResponse
    dsimp only
    split
    · rw [HeaderMap.get_insert_of_ne _ hrefresh, HeaderMap.get_insert]
    · rw [HeaderMap.get_insert_of_ne _ hlocation, HeaderMap.get_insert]
  have hkept : (localeCookie state candidate).bind keptLocale = some candidate :=
    keptLocale_localeCookie h
  rw [hcookie] at hkept
  simpa [setLocale, Except.toOption, hset] using hkept

theorem localeResponse_status (headers : HeaderMap) (cookie : HeaderValue) :
    (localeResponse headers cookie).status = StatusCode.noContent ∨
      (localeResponse headers cookie).status = StatusCode.seeOther := by
  unfold localeResponse
  dsimp only
  split
  · exact Or.inl rfl
  · exact Or.inr rfl

/-- What a visit does to the tables is what the request does alone. -/
theorem visit_request (site : Site) (client : Nat) (headers : HeaderMap) (cspNonce : String)
    (route : Route) (cs : Nat → Choice) :
    let v := Visit.request client headers cspNonce route cs
    let context := i18nMiddleware state fluent headers cspNonce
    ((visit services state fluent site v).1, (visit services state fluent site v).2.world) =
      (serve state (site.session client) ⟨headers, context, route⟩).run (act services) cs
        site.world :=
  (run_actOn _ cs site.world (site.session client)).symm

/-- A switch fails and leaves the tables alone, or sets the cookie and, for a client
that is logged in, the locale of its account. -/
theorem visit_switch (services : Services) (state : AppState) (fluent : FluentLangneg)
    (site : Site) (client : Nat) (headers : HeaderMap) (cspNonce : String) (locale : String)
    (cs : Nat → Choice) :
    let v := Visit.request client headers cspNonce (.updateLocale locale) cs
    switch? services state fluent site v = none ∧
        (visit services state fluent site v).2.world.db = site.world.db ∨
      ∃ s ∈ supported, ∃ now, switch? services state fluent site v = some s ∧
        setLocale (visit services state fluent site v).1 = some s ∧
        (visit services state fluent site v).2.world.db =
          (site.account client).elim site.world.db fun row =>
            (site.world.db.updatePreferences now row.id true (some s) false none).2 := by
  intro v
  have hvisit : ((visit services state fluent site v).1,
      (visit services state fluent site v).2.world) = _ := visit_request ..
  have hswitch : ∀ response, (visit services state fluent site v).1 = .ok response →
      switch? services state fluent site v =
        if response.status = StatusCode.noContent ∨ response.status = StatusCode.seeOther then
          some (trim locale)
        else none := by
    intro response hresponse
    simp only [switch?, v, hresponse]
  rcases serve_cases (site.session client)
      ⟨headers, i18nMiddleware state fluent headers cspNonce, .updateLocale locale⟩ cs
      site.world with hfailed | ⟨cs', hhandled⟩
  · rw [hfailed, Prod.mk.injEq] at hvisit
    exact Or.inl ⟨hswitch _ hvisit.1, congrArg World.db hvisit.2⟩
  · have hcases := updateLocale_run services state
      ⟨(accountOf site.world.db (site.session client)).map rowToUser⟩ headers locale cs' site.world
    rw [hhandled, Prod.mk.injEq] at hvisit
    simp only [handle] at hvisit hcases
    generalize Prog.run (act services) (updateLocale state _ headers locale).run cs' site.world =
      done at hvisit hcases
    rcases hcases with ⟨e, rfl⟩ | ⟨hmem, cookie, now, hcookie, hok, hdb⟩
    · have hanswer : (visit services state fluent site v).1 = .ok e.intoResponse := hvisit.1
      have hworld : (visit services state fluent site v).2.world = site.world := hvisit.2
      have hstatus : ¬ (e.intoResponse.status = StatusCode.noContent ∨
          e.intoResponse.status = StatusCode.seeOther) := by
        have hle : 400 ≤ e.intoResponse.status := e.le_status
        rintro (h | h)
        · exact absurd (h ▸ hle) (by decide)
        · exact absurd (h ▸ hle) (by decide)
      rw [hswitch _ hanswer, if_neg hstatus, hworld]
      exact Or.inl ⟨rfl, rfl⟩
    · have hanswer : (visit services state fluent site v).1 = .ok (localeResponse headers cookie) :=
        hvisit.1.trans (congrArg Handler.finish hok)
      refine Or.inr ⟨trim locale, hmem, now, ?_, ?_, ?_⟩
      · rw [hswitch _ hanswer, if_pos (localeResponse_status headers cookie)]
      · rw [hanswer, setLocale_localeResponse hmem hcookie]
      · rw [hvisit.2, hdb, Site.account]
        cases accountOf site.world.db (site.session client) with
        | none => rfl
        | some row => rfl

end Switch

/-! ### The locale of every account -/

/-- The accounts have the locales they last switched to, all of them supported. -/
structure Located (last : Uuid → Option String) (db : Database) : Prop where
  locale : ∀ row ∈ db.users, row.locale = last row.id
  known : ∀ u s, last u = some s → s ∈ supported ∧ ∃ row ∈ db.users, row.id = u

section Located
variable {services : Services} {last : Uuid → Option String} {db : Database}

/-- The other statements keep the users, or add one without a locale. -/
theorem exec_users (pg : Postgres) (now : OffsetDateTime) (db : Database) {stmt : Statement}
    (h : ∀ id setLocale locale setTimezone timezone,
      stmt ≠ .updatePreferences id setLocale locale setTimezone timezone) :
    (db.exec pg now stmt).2.users = db.users ∨
      ∃ new : UserRow, new.locale = none ∧ (∀ row ∈ db.users, row.id ≠ new.id) ∧
        (db.exec pg now stmt).2.users = db.users ++ [new] := by
  unfold Database.exec
  split
  · cases stmt with
    | updatePreferences id setLocale locale setTimezone timezone =>
        exact absurd rfl (h id setLocale locale setTimezone timezone)
    | selectTodos | selectTodo | selectUser | selectUserByEmail | deleteTodo => exact Or.inl rfl
    | insertTodo id ownerId title =>
        left
        simp only [Database.perform, Database.insertTodo]
        split
        · rfl
        · split
          · rfl
          · split
            · rfl
            · rfl
    | updateTodo | toggleTodo =>
        left
        simp only [Database.perform, Database.modifyTodo]
        split
        · rfl
        · split
          · rfl
          · rfl
    | insertUser id email passwordHash =>
        simp only [Database.perform, Database.insertUser]
        split
        · exact Or.inl rfl
        · rename_i hid
          split
          · exact Or.inl rfl
          · exact Or.inr ⟨_, rfl, by simpa using hid, rfl⟩
  · exact Or.inl rfl

theorem Located.exec {pg : Postgres} {now : OffsetDateTime} {stmt : Statement}
    (hdb : Located last db) (h : ∀ id setLocale locale setTimezone timezone,
      stmt ≠ .updatePreferences id setLocale locale setTimezone timezone) :
    Located last (db.exec pg now stmt).2 := by
  rcases exec_users pg now db h with husers | ⟨new, hnone, hfresh, husers⟩
  · exact ⟨husers ▸ hdb.locale, husers ▸ hdb.known⟩
  · constructor
    · rw [husers]
      intro row hrow
      rcases List.mem_append.mp hrow with hold | hnew
      · exact hdb.locale row hold
      · -- an account that has switched is there already
        obtain rfl := List.mem_singleton.mp hnew
        cases hlast : last row.id with
        | none => exact hnone
        | some s =>
            obtain ⟨old, hold, hid⟩ := (hdb.known row.id s hlast).2
            exact absurd hid (hfresh old hold)
    · intro u s hlast
      obtain ⟨hs, row, hrow, hid⟩ := hdb.known u s hlast
      exact ⟨hs, row, husers ▸ List.mem_append_left _ hrow, hid⟩

theorem Located.act {c : Choice} {e : Effect} {w : World} (hdb : Located last w.db)
    (h : (pages fun _ => True).allows () e) : Located last (act services c e w).2.db := by
  cases e with
  | sql stmt =>
      rw [act_sql]
      cases c.fault with
      | some message => exact hdb
      | none =>
          apply hdb.exec
          rintro id setLocale locale setTimezone timezone rfl
          exact h
  | _ =>
      rw [act_db (by simp)]
      exact hdb

/-- A switch of an account that is there. -/
theorem Located.switch {u : Uuid} {s : String} (hdb : Located last db) (hs : s ∈ supported)
    (hrow : ∃ row ∈ db.users, row.id = u) (now : OffsetDateTime) :
    Located (Function.update last u (some s))
      (db.updatePreferences now u true (some s) false none).2 := by
  constructor
  · intro row hrow
    obtain ⟨old, hold, rfl⟩ := List.mem_map.mp hrow
    split
    · rename_i hid
      obtain rfl : old.id = u := beq_iff_eq.mp hid
      simp [Database.setPreferences]
    · rename_i hid
      have hne : old.id ≠ u := fun h => hid (beq_iff_eq.mpr h)
      rw [Function.update_of_ne hne]
      exact hdb.locale old hold
  · -- an update keeps the ids
    have hids : (db.updatePreferences now u true (some s) false none).2.users.map UserRow.id =
        db.users.map UserRow.id :=
      Table.map_update fun _ => rfl
    have hknown : ∀ v, (∃ row ∈ (db.updatePreferences now u true (some s) false none).2.users,
        row.id = v) ↔ ∃ row ∈ db.users, row.id = v := by
      intro v
      rw [← List.mem_map, hids, List.mem_map]
    intro v s' hlast
    rw [hknown]
    by_cases hv : v = u
    · subst hv
      rw [Function.update_self] at hlast
      exact ⟨Option.some.inj hlast ▸ hs, hrow⟩
    · rw [Function.update_of_ne hv] at hlast
      exact hdb.known v s' hlast

end Located

theorem accountOf_mem {db : Database} {session : Option Session} {row : UserRow}
    (h : accountOf db session = some row) : row ∈ db.users := by
  obtain ⟨data, _, hrow⟩ := Option.bind_eq_some_iff.mp h
  exact List.mem_of_find?_eq_some (Option.filter_eq_some_iff.mp hrow).1

section Runs
variable {services : Services} {state : AppState} {fluent : FluentLangneg}
variable {h : List (Site × Visit)} {site₀ site : Site} {v : Visit}

theorem lastSwitch_snoc : lastSwitch services state fluent (h ++ [(site, v)]) =
    match switch? services state fluent site v, site.account v.client with
    | some s, some row =>
        Function.update (lastSwitch services state fluent h) row.id (some s)
    | _, _ => lastSwitch services state fluent h := by
  funext u
  rw [lastSwitch, List.filterMap_append, List.getLast?_append]
  cases hs : switch? services state fluent site v with
  | none => simp [hs, lastSwitch]
  | some s =>
      cases hrow : site.account v.client with
      | none => simp [hs, hrow, lastSwitch]
      | some row =>
          by_cases hu : row.id = u
          · simp [hs, hrow, hu]
          · have hne : u ≠ row.id := fun h => hu h.symm
            simp [hs, hrow, hu, Function.update_of_ne hne, lastSwitch]

/-- The other visits switch nothing. -/
theorem Located.other {last : Uuid → Option String} (hdb : Located last site.world.db)
    (services : Services) (state : AppState) (fluent : FluentLangneg)
    (hv : ∀ client headers cspNonce locale cs,
      v ≠ .request client headers cspNonce (.updateLocale locale) cs) :
    switch? services state fluent site v = none ∧
      Located last (visit services state fluent site v).2.world.db := by
  cases v with
  | logout client headers cs flush =>
      refine ⟨rfl, ?_⟩
      unfold visit
      dsimp only
      split
      · exact hdb
      · exact hdb
  | request client headers cspNonce route cs =>
      have hroute : ∀ locale, route ≠ .updateLocale locale :=
        fun locale h => hv client headers cspNonce locale cs (h ▸ rfl)
      constructor
      · cases route with
        | updateLocale locale => exact absurd rfl (hroute locale)
        | _ => rfl
      · have hvisit : (_, (visit services state fluent site
            (.request client headers cspNonce route cs)).2.world) = _ := visit_request ..
        rcases serve_cases (site.session client)
          ⟨headers, i18nMiddleware state fluent headers cspNonce, route⟩ cs site.world with
          hfailed | ⟨cs', hhandled⟩
        · rw [hfailed, Prod.mk.injEq] at hvisit
          exact hvisit.2 ▸ hdb
        · rw [hhandled, Prod.mk.injEq] at hvisit
          have hkeeps : Prog.Obeys (pages fun _ => True) Ends ()
              (handle state ⟨(accountOf site.world.db (site.session client)).map rowToUser⟩
                ⟨headers, i18nMiddleware state fluent headers cspNonce, route⟩).run :=
            handle_keeps _ hroute
          have hsound : ∀ (c : Choice) (e : Effect) (u : Unit) (w : World), Located last w.db →
              (pages fun _ => True).allows u e →
                True ∧ Located last (TodoRust.act services c e w).2.db :=
            fun _ _ _ _ hw he => ⟨trivial, hw.act he⟩
          obtain ⟨_, _, hkept⟩ := hkeeps.run hsound cs' hdb
          exact hvisit.2 ▸ hkept

/-- The step lemma: what a visit does, the history knows. -/
theorem Located.visit (hdb : Located (lastSwitch services state fluent h) site.world.db)
    (v : Visit) : Located (lastSwitch services state fluent (h ++ [(site, v)]))
      (visit services state fluent site v).2.world.db := by
  by_cases hv : ∃ client headers cspNonce locale cs,
      v = .request client headers cspNonce (.updateLocale locale) cs
  · obtain ⟨client, headers, cspNonce, locale, cs, rfl⟩ := hv
    rcases visit_switch services state fluent site client headers cspNonce locale cs with
      ⟨hnone, hkept⟩ | ⟨s, hs, now, hsome, _, hset⟩
    · rw [lastSwitch_snoc, hnone, hkept]
      exact hdb
    · rw [lastSwitch_snoc, hsome, hset, Visit.client]
      cases hrow : site.account client with
      | none => exact hdb
      | some row => exact hdb.switch hs ⟨row, accountOf_mem hrow, rfl⟩ now
  · have hother : ∀ client headers cspNonce locale cs,
        v ≠ .request client headers cspNonce (.updateLocale locale) cs :=
      fun client headers cspNonce locale cs h => hv ⟨client, headers, cspNonce, locale, cs, h⟩
    obtain ⟨hnone, hkept⟩ := hdb.other services state fluent hother
    rw [lastSwitch_snoc, hnone]
    exact hkept

/-- A cookie that a switch has set is a supported locale. -/
theorem lastCookie_mem {client : Nat} {s : String}
    (hs : lastCookie services state fluent h client = some s) : s ∈ supported := by
  obtain ⟨⟨site, v⟩, _, hcookie⟩ := List.mem_filterMap.mp (List.mem_of_getLast? hs)
  simp only [Option.ite_none_right_eq_some, Option.bind_eq_some_iff] at hcookie
  obtain ⟨_, written, hswitch, hset⟩ := hcookie
  cases v with
  | logout => cases hswitch
  | request client headers cspNonce route cs =>
      cases route with
      | updateLocale locale =>
          rcases visit_switch services state fluent site client headers cspNonce locale cs with
            ⟨hnone, _⟩ | ⟨s', hs', _, _, hset', _⟩
          · rw [hnone] at hswitch
            cases hswitch
          · rw [hset'] at hset
            exact Option.some.inj hset ▸ hs'
      | _ => cases hswitch

/-- The run lemma. -/
theorem run_located (run : Run (step services state fluent) site₀ h site)
    (hnew : ∀ row ∈ site₀.world.db.users, row.locale = none) :
    Located (lastSwitch services state fluent h) site.world.db := by
  induction run with
  | nil => exact ⟨hnew, fun u s h => by cases h⟩
  | snoc _ hstep ih =>
      rw [← Option.some.inj hstep]
      exact ih.visit _

end Runs

end TodoRust.Preferences
