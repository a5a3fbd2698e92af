import TodoRust.Accounts.Registry
import TodoRust.Router.Endpoints
import TodoRust.Visits.WithoutRedis

/-!
# Who is logged in

A client is logged in to an account because it has shown that the account is its own: it
presented the password, it signed up, or the development login is set up for that account.
Nothing else writes a session, and no client writes the session of another.
-/

namespace TodoRust.Visits
open Lib Domain Storage App Middleware Preferences

/-! ### One access -/

/-- A visit, or a use of the development login. -/
inductive Access
  | visit (v : Visit)
  | autoLogin (client : Nat) (cs : Nat → Choice)

def Access.client : Access → Nat
  | .visit v => v.client
  | .autoLogin client _ => client

/-- `POST /dev/login` behind the layer that loads the session's user. -/
def serveAutoLogin (enabledEmail : Option String) (session : Option Session) :
    Action (Except String Response) := do
  match ← (AuthSession.fromSession session).run with
  | .error _ => return .ok (StatusCode.intoResponse Rust.StatusCode.internalServerError)
  | .ok _ => return Handler.finish (← (Router.autoLogin enabledEmail).run)

section Access
variable (services : Services) (state : AppState) (fluent : I18n.FluentLangneg)
variable (enabledEmail : Option String)

/-- The site after an access. -/
def access (site : Site) : Access → Site
  | .visit v => (visit services state fluent site v).2
  | .autoLogin client cs =>
      let done := (serveAutoLogin enabledEmail (site.session client)).run
        (Preferences.actOn services) cs (site.world, site.session client)
      ⟨done.2.1, Function.update site.session client done.2.2⟩

/-- Accesses in sequence. -/
def accessStep (site : Site) (a : Access) : Option Site :=
  some (access services state fluent enabledEmail site a)

/-- An access that shows whose account the session is for. -/
def Authenticates (site : Site) (a : Access) (u : Uuid) : Prop :=
  match a with
  | .visit (.request _ _ _ (.login creds) _) =>
      ∃ row, site.world.db.selectUserByEmail services.pg (Rust.trim creds.email) = some row ∧
        row.id = u ∧ services.passwords.verifyPassword creds.password row.passwordHash = true
  | .visit (.request _ _ _ (.signup new) _) =>
      (∀ row ∈ site.world.db.users, row.id ≠ u) ∧
        ∃ row ∈ (access services state fluent enabledEmail site a).world.db.users, ∃ salt,
          row.account = ⟨u, Rust.trim new.email,
            services.passwords.generateHash salt new.password⟩
  | .autoLogin _ _ =>
      ∃ email row, enabledEmail = some email ∧
        site.world.db.selectUserByEmail services.pg (Rust.trim email) = some row ∧ row.id = u
  | _ => False

end Access

/-! ### What the calls give -/

section Calls
variable {services : Services} {s s' : World × Option Session} {l : List (Effect × Choice)}

/-- The row that a lookup by email returns is in the table. -/
theorem actOn_selectUserByEmail {c : Choice} {email : String} {row : UserRow}
    (h : (Preferences.actOn services c (.sql (.selectUserByEmail email)) s).1 = .ok (some row)) :
    s.1.db.selectUserByEmail services.pg email = some row := by
  simp only [Preferences.actOn, act_sql] at h
  cases hfault : c.fault with
  | some message =>
      rw [hfault] at h
      cases h
  | none =>
      rw [hfault] at h
      dsimp only at h
      rcases Database.exec_cases services.pg c.now s.1.db (.selectUserByEmail email)
        with hexec | hexec
      · rw [hexec] at h
        exact Except.ok.inj h
      · rw [hexec] at h
        cases h

theorem actOn_selectUserByEmail_state {c : Choice} {email : String} :
    (Preferences.actOn services c (.sql (.selectUserByEmail email)) s).2 = s := by
  simp only [Preferences.actOn, act_sql]
  cases c.fault with
  | some message => rfl
  | none =>
      dsimp only
      rcases Database.exec_cases services.pg c.now s.1.db (.selectUserByEmail email)
        with hexec | hexec
      · rw [hexec]
        rfl
      · rw [hexec]

theorem actOn_verifyPassword {c : Choice} {password hash : String}
    (h : (Preferences.actOn services c (.verifyPassword password hash) s).1 = .ok true) :
    services.passwords.verifyPassword password hash = true := by
  simp only [Preferences.actOn, act] at h
  cases hfault : c.fault with
  | some message =>
      rw [hfault] at h
      cases h
  | none =>
      rw [hfault] at h
      exact Except.ok.inj h

theorem actOn_verifyPassword_state {c : Choice} {password hash : String} :
    (Preferences.actOn services c (.verifyPassword password hash) s).2 = s := by
  simp only [Preferences.actOn, act]
  cases c.fault with
  | some message => rfl
  | none => rfl

/-- Whoever `verify` returns is the account of that email, and the password is its own. -/
theorem verify_exec {email password : String} {done : Except StorageError (Option User)}
    (h : Prog.Exec (Preferences.actOn services) (UserRepository.verify email password).run s l
      done s') :
    s' = s ∧ ∀ user, done = .ok (some user) → ∃ row,
      s.1.db.selectUserByEmail services.pg (Rust.trim email) = some row ∧
        services.passwords.verifyPassword password row.passwordHash = true ∧
        user = rowToUser row := by
  rw [UserRepository.verify_program] at h
  cases h with
  | @op _ _ _ _ c _ _ h =>
      rw [actOn_selectUserByEmail_state] at h
      cases hreply : (Preferences.actOn services c
          (.sql (.selectUserByEmail (Rust.trim email))) s).1 with
      | error e =>
          rw [hreply] at h
          cases h
          exact ⟨rfl, fun user huser => by cases huser⟩
      | ok found =>
          rw [hreply] at h
          cases h with
          | @op _ _ _ _ c' _ _ h =>
              rw [actOn_verifyPassword_state] at h
              cases h
              refine ⟨rfl, fun user huser => ?_⟩
              cases hchecked : (Preferences.actOn services c'
                  (.verifyPassword password (UserRepository.storedHash found)) s).1 with
              | error message =>
                  rw [hchecked] at huser
                  cases huser
              | ok ok =>
                  rw [hchecked] at huser
                  cases ok with
                  | false => cases huser
                  | true =>
                      cases found with
                      | none => cases huser
                      | some row =>
                          obtain rfl := Option.some.inj (Except.ok.inj huser)
                          exact ⟨row, actOn_selectUserByEmail hreply,
                            actOn_verifyPassword hchecked, rfl⟩

/-- An insert that succeeds has found no row of that id, and added one. -/
theorem actOn_insertUser {c : Choice} {id : Uuid} {email hash : String} {row : UserRow}
    (h : (Preferences.actOn services c (.sql (.insertUser id email hash)) s).1 = .ok row) :
    (∀ old ∈ s.1.db.users, old.id ≠ id) ∧ row.account = ⟨id, email, hash⟩ ∧
      (Preferences.actOn services c (.sql (.insertUser id email hash)) s).2.1.db.users =
        s.1.db.users ++ [row] := by
  simp only [Preferences.actOn, act_sql] at h ⊢
  cases hfault : c.fault with
  | some message =>
      rw [hfault] at h
      cases h
  | none =>
      rw [hfault] at h
      dsimp only at h ⊢
      rcases Database.exec_cases services.pg c.now s.1.db (.insertUser id email hash)
        with hexec | hexec
      · rw [hexec] at h ⊢
        simp only [Database.perform, Database.insertUser] at h ⊢
        split at h
        · cases h
        · rename_i hid
          split at h
          · cases h
          · rename_i hemail
            obtain rfl := Except.ok.inj h
            simp only [List.any_eq_true, beq_iff_eq, not_exists, not_and] at hid
            refine ⟨hid, rfl, ?_⟩
            rw [if_neg (by simpa using hid), if_neg hemail]
      · rw [hexec] at h
        cases h

/-- A new user is a new row, with the hash of the password. -/
theorem create_exec {new : NewUser} {done : Except StorageError User}
    (h : Prog.Exec (Preferences.actOn services) (UserRepository.create new).run s l done s') :
    s'.2 = s.2 ∧ ∀ user, done = .ok user → ∃ row salt,
      (∀ old ∈ s.1.db.users, old.id ≠ row.id) ∧ s'.1.db.users = s.1.db.users ++ [row] ∧
        row.account = ⟨row.id, Rust.trim new.email,
          services.passwords.generateHash salt new.password⟩ ∧ user = rowToUser row := by
  rw [UserRepository.create_program] at h
  cases h with
  | @op _ _ _ _ c _ _ h =>
      cases h with
      | @op _ _ _ _ c' _ _ h =>
          simp only [Preferences.actOn, act] at h
          cases hfault : c'.fault with
          | some message =>
              rw [hfault] at h
              cases h
              exact ⟨rfl, fun user huser => by cases huser⟩
          | none =>
              rw [hfault] at h
              cases h with
              | @op _ _ _ _ c'' _ _ h =>
                  cases h
                  refine ⟨rfl, fun user huser => ?_⟩
                  cases hreply : (Preferences.actOn services c'' (.sql (.insertUser c.uuid
                      (Rust.trim new.email)
                      (services.passwords.generateHash c'.salt new.password))) s).1 with
                  | error e =>
                      rw [hreply] at huser
                      cases huser
                  | ok row =>
                      rw [hreply] at huser
                      obtain rfl := Except.ok.inj huser
                      obtain ⟨hfresh, haccount, husers⟩ := actOn_insertUser hreply
                      have hid : row.id = c.uuid := congrArg Account.id haccount
                      refine ⟨row, c'.salt, ?_, husers, ?_, rfl⟩
                      · rw [hid]
                        exact hfresh
                      · rw [haccount, hid]

end Calls

/-! ### What the handlers leave of a session -/

section Handlers
variable {services : Services} {state : AppState} {s s' : World × Option Session}
variable {l : List (Effect × Choice)}

/-- Only a login effect writes the session. -/
theorem session_kept {α : Type} {p : Action α} {allowed : Effect → Prop} {a : α}
    {post : α → Unit → Prop} (h : Prog.Exec (Preferences.actOn services) p s l a s')
    (hp : Prog.Obeys (.permitting allowed) post () p)
    (hallowed : ∀ e, allowed e → ∀ user, e ≠ .sessionLogin user) : s'.2 = s.2 := by
  apply h.invariant (I := fun t => t.2 = s.2) ?_ rfl
  rintro ⟨e, c⟩ hx t ht
  have he : allowed e := h.permitted hp (e, c) hx
  cases e with
  | sessionLogin user => exact absurd rfl (hallowed _ he user)
  | _ => exact ht

/-- Loading the user changes nothing. -/
theorem fromSession_exec {session : Option Session} {loaded : Except StorageError AuthSession}
    (h : Prog.Exec (Preferences.actOn services) (AuthSession.fromSession session).run s l
      loaded s') : s' = s := by
  apply h.invariant (I := fun t => t = s) ?_ rfl
  rintro ⟨e, c⟩ hx t rfl
  obtain ⟨data, _, rfl⟩ := h.permitted (fromSession_performs session) (e, c) hx
  simp only [Preferences.actOn, act_sql, Database.exec_selectUser]
  cases c.fault with
  | some message => rfl
  | none => rfl

/-- The user that is loaded is the account of the session. -/
theorem fromSession_loaded {session : Option Session} {auth : AuthSession}
    (h : Prog.Exec (Preferences.actOn services) (AuthSession.fromSession session).run s l
      (.ok auth) s') : auth = ⟨(accountOf s.1.db session).map rowToUser⟩ := by
  obtain ⟨cs, hrun, _⟩ := h.run fun _ => .plain 0 ⟨0⟩
  have hresult :
      ((AuthSession.fromSession session).run.run (act services) cs s.1).1 = .ok auth := by
    rw [run_actOn _ cs s.1 s.2, hrun]
  rcases (fromSession_run services session cs s.1).2 with ⟨e, herror⟩ | hloaded
  · rw [herror] at hresult
    cases hresult
  · rw [hloaded] at hresult
    exact (Except.ok.inj hresult).symm

theorem renderPage_exec {status : Rust.StatusCode} {headers : Rust.HeaderMap} {template : String}
    {page : Context} {done : Except Halt Response}
    (h : Prog.Exec (Preferences.actOn services) (renderPage status headers template page).run s l
      done s') : s'.2 = s.2 :=
  have hpage : Prog.Obeys (.permitting (Performs ⟨none⟩ .index)) Whatever ()
      (renderPage status headers template page).run := renderPage_performs
  session_kept h hpage fun _ he => he.not_session rfl

/-- What follows a login effect: its failure, or the redirect. -/
def afterLogin (failure : String) (redirect : Handler Response) :
    Except String Unit → Handler Response
  | .error e => Handler.fail (.internal (failure ++ e))
  | .ok () => redirect

/-- A login effect, after which nothing is performed. -/
theorem authLogin_exec {user : User} {redirect : Handler Response} {done : Except Halt Response}
    (failure : String) (hredirect : ∃ r, redirect.run = .ret r)
    (h : Prog.Exec (Preferences.actOn services)
      (ExceptT.lift (AuthSession.login user) >>= afterLogin failure redirect).run s l done s') :
    s'.1 = s.1 ∧ (s'.2 = s.2 ∨ s'.2 = some ⟨user.id.uuid, user.passwordHash⟩) := by
  have hends (reply : Except String Unit) :
      ∃ r, (afterLogin failure redirect reply).run = .ret r := by
    cases reply with
    | error e => exact ⟨_, rfl⟩
    | ok u => exact hredirect
  rw [ExceptT.run_bind_lift] at h
  cases h with
  | @op _ _ _ _ c _ _ h =>
      obtain ⟨r, hr⟩ := hends (Preferences.actOn services c (.sessionLogin user) s).1
      have hlast : Prog.Exec (Preferences.actOn services)
          (afterLogin failure redirect (Preferences.actOn services c (.sessionLogin user) s).1).run
          (Preferences.actOn services c (.sessionLogin user) s).2 _ done s' := h
      rw [hr] at hlast
      cases hlast
      refine ⟨command_self c s.1, ?_⟩
      simp only [Preferences.actOn, setSession]
      split
      · exact Or.inr rfl
      · exact Or.inl rfl

theorem login_exec {headers : Rust.HeaderMap} {context : RequestContext} {creds : Credentials}
    {done : Except Halt Response}
    (h : Prog.Exec (Preferences.actOn services) (login state headers context creds).run s l
      done s') :
    s'.2 = s.2 ∨ ∃ row,
      s.1.db.selectUserByEmail services.pg (Rust.trim creds.email) = some row ∧
        services.passwords.verifyPassword creds.password row.passwordHash = true ∧
        s'.2 = some ⟨row.id, row.passwordHash⟩ := by
  unfold login at h
  dsimp only at h
  split at h
  · exact Or.inl (renderPage_exec h)
  · rw [ExceptT.run_bind_lift] at h
    obtain ⟨l₁, l₂, found, t, _, hverify, hrest⟩ := h.bind_inv
    obtain ⟨rfl, hfound⟩ := verify_exec hverify
    match found with
    | .error _ =>
        cases hrest
        exact Or.inl rfl
    | .ok none => exact Or.inl (renderPage_exec hrest)
    | .ok (some user) =>
        obtain ⟨row, hrow, hpassword, rfl⟩ := hfound user rfl
        have hredirect := redirectAfterForm_ret headers ((safeNext creds.next).getD "/")
        rcases (authLogin_exec "session login failed: " hredirect hrest).2 with hkept | hset
        · exact Or.inl hkept
        · exact Or.inr ⟨row, hrow, hpassword, hset⟩

theorem signup_exec {headers : Rust.HeaderMap} {context : RequestContext} {new : NewUser}
    {done : Except Halt Response}
    (h : Prog.Exec (Preferences.actOn services) (signup state headers context new).run s l
      done s') :
    s'.2 = s.2 ∨ ∃ row salt, (∀ old ∈ s.1.db.users, old.id ≠ row.id) ∧
      row ∈ s'.1.db.users ∧
        row.account = ⟨row.id, Rust.trim new.email,
          services.passwords.generateHash salt new.password⟩ ∧
        s'.2 = some ⟨row.id, row.passwordHash⟩ := by
  unfold signup at h
  dsimp only at h
  split at h
  · exact Or.inl (renderPage_exec h)
  · rw [ExceptT.run_bind_lift] at h
    obtain ⟨l₁, l₂, created, t, _, hcreate, hrest⟩ := h.bind_inv
    obtain ⟨hkept, hcreated⟩ := create_exec hcreate
    match created with
    | .error (.conflict _) => exact Or.inl ((renderPage_exec hrest).trans hkept)
    | .error .notFound | .error .invalidCredentials | .error .hashing
    | .error (.database _) | .error (.join _) =>
        cases hrest
        exact Or.inl hkept
    | .ok user =>
        obtain ⟨row, salt, hfresh, husers, haccount, rfl⟩ := hcreated user rfl
        obtain ⟨hworld, hwritten⟩ := authLogin_exec "post-signup session login failed: "
          (redirectAfterForm_ret headers "/") hrest
        rcases hwritten with hleft | hset
        · exact Or.inl (hleft.trans hkept)
        · refine Or.inr ⟨row, salt, hfresh, ?_, haccount, hset⟩
          rw [hworld, husers]
          exact List.mem_append_right _ (List.mem_singleton.mpr rfl)

theorem autoLogin_exec {enabledEmail : Option String} {done : Except Halt Response}
    (h : Prog.Exec (Preferences.actOn services) (Router.autoLogin enabledEmail).run s l done s') :
    s'.2 = s.2 ∨ ∃ email row, enabledEmail = some email ∧
      s.1.db.selectUserByEmail services.pg (Rust.trim email) = some row ∧
        s'.2 = some ⟨row.id, row.passwordHash⟩ := by
  cases enabledEmail with
  | none =>
      cases h
      exact Or.inl rfl
  | some email =>
      unfold Router.autoLogin at h
      dsimp only at h
      rw [Handler.run_call_bind, UserRepository.findByEmail_program] at h
      cases h with
      | @op _ _ _ _ c _ _ h =>
          rw [actOn_selectUserByEmail_state] at h
          cases hreply : (Preferences.actOn services c
              (.sql (.selectUserByEmail (Rust.trim email))) s).1 with
          | error e =>
              rw [hreply] at h
              cases h
              exact Or.inl rfl
          | ok found =>
              rw [hreply] at h
              cases found with
              | none =>
                  cases h
                  exact Or.inl rfl
              | some row =>
                  have hredirect : ∃ r, (redirectTo "/").run = .ret r := by
                    unfold redirectTo
                    cases Rust.HeaderValue.fromStr "/" with
                    | none => exact ⟨_, rfl⟩
                    | some location => exact ⟨_, rfl⟩
                  rcases (authLogin_exec "dev session login failed: " hredirect h).2 with
                    hkept | hset
                  · exact Or.inl hkept
                  · exact Or.inr ⟨email, row, rfl, actOn_selectUserByEmail hreply, hset⟩

/-- A request loads its user, and then, unless that fails, its handler runs. -/
theorem serve_exec {session : Option Session} {request : Request} {r : Except String Response}
    (h : Prog.Exec (Preferences.actOn services) (serve state session request) s l r s') :
    ∃ l₁ l₂, l = l₁ ++ l₂ ∧
      (∀ x ∈ l₁, ∃ data, session = some data ∧ x.1 = .sql (.selectUser data.userId)) ∧
      (l₂ = [] ∧ s' = s ∨ ∃ done, Prog.Exec (Preferences.actOn services)
        (handle state ⟨(accountOf s.1.db session).map rowToUser⟩ request).run s l₂ done s') := by
  obtain ⟨l₁, l₂, loaded, t, rfl, hload, hrest⟩ := h.bind_inv
  have hselects := hload.permitted (fromSession_performs session)
  obtain rfl := fromSession_exec hload
  refine ⟨l₁, l₂, rfl, hselects, ?_⟩
  cases loaded with
  | error e =>
      cases hrest
      exact Or.inl ⟨rfl, rfl⟩
  | ok auth =>
      obtain ⟨l₃, l₄, done, t', rfl, hhandle, hfinish⟩ := hrest.bind_inv
      cases hfinish
      rw [List.append_nil]
      exact Or.inr ⟨done, fromSession_loaded hload ▸ hhandle⟩

theorem handle_session_kept {auth : AuthSession} {request : Request} {done : Except Halt Response}
    (h : Prog.Exec (Preferences.actOn services) (handle state auth request).run s l done s')
    (hroute : logsIn request.route = false) : s'.2 = s.2 :=
  session_kept h (handle_performs state auth request) fun _ he => he.not_session hroute

theorem serveAutoLogin_exec {enabledEmail : Option String} {session : Option Session}
    {r : Except String Response}
    (h : Prog.Exec (Preferences.actOn services) (serveAutoLogin enabledEmail session) s l r s') :
    s'.2 = s.2 ∨ ∃ email row, enabledEmail = some email ∧
      s.1.db.selectUserByEmail services.pg (Rust.trim email) = some row ∧
        s'.2 = some ⟨row.id, row.passwordHash⟩ := by
  obtain ⟨l₁, l₂, loaded, t, _, hload, hrest⟩ := h.bind_inv
  obtain rfl := fromSession_exec hload
  cases loaded with
  | error e =>
      cases hrest
      exact Or.inl rfl
  | ok auth =>
      obtain ⟨l₃, l₄, done, t', _, hhandle, hfinish⟩ := hrest.bind_inv
      cases hfinish
      exact autoLogin_exec hhandle

end Handlers

/-! ### Runs -/

section Runs
variable {services : Services} {state : AppState} {fluent : I18n.FluentLangneg}
variable {enabledEmail : Option String} {site : Site}

/-- No client writes the session of another. -/
theorem access_other {a : Access} {client : Nat} (h : client ≠ a.client) :
    (access services state fluent enabledEmail site a).session client = site.session client := by
  cases a with
  | visit v =>
      cases v with
      | request k headers cspNonce route cs => exact Function.update_of_ne h ..
      | logout k headers cs flush =>
          simp only [access, visit]
          split
          · rfl
          · exact Function.update_of_ne h ..
  | autoLogin k cs => exact Function.update_of_ne h ..

theorem request_session (services : Services) (state : AppState) (fluent : I18n.FluentLangneg)
    (enabledEmail : Option String) (site : Site) (client : Nat) (headers : Rust.HeaderMap)
    (cspNonce : String)
    (route : Route) (cs : Nat → Choice) :
    let a := Access.visit (.request client headers cspNonce route cs)
    let after := access services state fluent enabledEmail site a
    after.session client = site.session client ∨ ∃ u hash, after.session client = some ⟨u, hash⟩ ∧
      Authenticates services state fluent enabledEmail site a u := by
  intro a after
  have hexec := Prog.exec_run (Preferences.actOn services)
    (serve state (site.session client)
      ⟨headers, i18nMiddleware state fluent headers cspNonce, route⟩) cs
    (site.world, site.session client)
  have hafter : after.session client = _ := Function.update_self ..
  rw [hafter]
  obtain ⟨_, l, _, _, ⟨_, hsame⟩ | ⟨done, hhandle⟩⟩ := serve_exec hexec
  · rw [hsame]
    exact Or.inl rfl
  · cases route with
    | index | list | create | toggle | delete | updateLocale =>
        exact Or.inl (handle_session_kept hhandle rfl)
    | login creds =>
        rcases login_exec hhandle with hkept | ⟨row, hrow, hpassword, hset⟩
        · exact Or.inl hkept
        · exact Or.inr ⟨row.id, row.passwordHash, hset, row, hrow, rfl, hpassword⟩
    | signup new =>
        rcases signup_exec hhandle with hkept | ⟨row, salt, hfresh, hmem, haccount, hset⟩
        · exact Or.inl hkept
        · exact Or.inr ⟨row.id, row.passwordHash, hset, hfresh, row, hmem, salt, haccount⟩

/-- The step lemma: a session is kept, cleared, or set by an access that authenticates. -/
theorem access_session (services : Services) (state : AppState) (fluent : I18n.FluentLangneg)
    (enabledEmail : Option String) (site : Site) (a : Access) :
    let after := access services state fluent enabledEmail site a
    after.session a.client = site.session a.client ∨ after.session a.client = none ∨
      ∃ u hash, after.session a.client = some ⟨u, hash⟩ ∧
        Authenticates services state fluent enabledEmail site a u := by
  intro after
  cases a with
  | visit v =>
      cases v with
      | request client headers cspNonce route cs =>
          rcases request_session services state fluent enabledEmail site client headers
            cspNonce route cs with hkept | hset
          · exact Or.inl hkept
          · exact Or.inr (Or.inr hset)
      | logout client headers cs flush =>
          have hafter : after.session client = site.session client ∨
              after.session client = setSession flush (site.session client) none := by
            simp only [after, access, visit]
            split
            · exact Or.inl rfl
            · exact Or.inr (Function.update_self ..)
          rcases hafter with hkept | hflushed
          · exact Or.inl hkept
          · unfold setSession at hflushed
            split at hflushed
            · exact Or.inr (Or.inl hflushed)
            · exact Or.inl hflushed
  | autoLogin client cs =>
      have hexec := Prog.exec_run (Preferences.actOn services)
        (serveAutoLogin enabledEmail (site.session client)) cs (site.world, site.session client)
      have hafter : after.session client = _ := Function.update_self ..
      rw [Access.client, hafter]
      rcases serveAutoLogin_exec hexec with hkept | ⟨email, row, henabled, hrow, hset⟩
      · exact Or.inl hkept
      · exact Or.inr (Or.inr ⟨row.id, row.passwordHash, hset, email, row, henabled, hrow, rfl⟩)

/-- The access at position `k` opened the session that the client still has. -/
def OpenedAt (services : Services) (state : AppState) (fluent : I18n.FluentLangneg)
    (enabledEmail : Option String) (h : List (Site × Access)) (site : Site) (client : Nat)
    (u : Uuid) (k : Nat) : Prop :=
  ∃ x, h[k]? = some x ∧ x.2.client = client ∧
    Authenticates services state fluent enabledEmail x.1 x.2 u ∧
    ∀ j, k < j → j ≤ h.length → (stateAt h site j).session client = site.session client

/-- The run lemma. -/
theorem run_opened {h : List (Site × Access)} {site₀ : Site}
    (run : Run (accessStep services state fluent enabledEmail) site₀ h site)
    (hnone : ∀ client, site₀.session client = none) {client : Nat} {data : Session}
    (hdata : site.session client = some data) :
    ∃ k, OpenedAt services state fluent enabledEmail h site client data.userId k := by
  induction run generalizing data with
  | nil =>
      rw [hnone client] at hdata
      cases hdata
  | @snoc h site a site' _ hstep ih =>
      obtain rfl := Option.some.inj hstep
      have hlast : (h ++ [(site, a)])[h.length]? = some (site, a) :=
        List.getElem?_concat_length
      have hkeep (hkept : (access services state fluent enabledEmail site a).session client =
          site.session client) : ∃ k, OpenedAt services state fluent enabledEmail (h ++ [(site, a)])
            (access services state fluent enabledEmail site a) client data.userId k := by
        obtain ⟨k, x, hx, hclient, hauth, hconst⟩ := ih (hkept.symm.trans hdata)
        refine ⟨k, x, getElem?_snoc_of_some hx, hclient, hauth, fun j hkj hj => ?_⟩
        rcases Nat.lt_or_eq_of_le hj with hlt | rfl
        · have hle : j ≤ h.length := by
            simp only [List.length_append, List.length_singleton] at hlt
            omega
          rw [stateAt_snoc hle, hkept]
          exact hconst j hkj hle
        · rw [stateAt_length]
      by_cases hclient : client = a.client
      · subst hclient
        rcases access_session services state fluent enabledEmail site a
          with hkept | hcleared | ⟨u, hash, hset, hauth⟩
        · exact hkeep hkept
        · rw [hcleared] at hdata
          cases hdata
        · rw [hset] at hdata
          obtain rfl := Option.some.inj hdata
          refine ⟨h.length, (site, a), hlast, rfl, hauth, fun j hkj hj => ?_⟩
          have hend : j = (h ++ [(site, a)]).length := by
            simp only [List.length_append, List.length_singleton] at hj ⊢
            omega
          rw [hend, stateAt_length]
      · exact hkeep (access_other hclient)

end Runs

/-- Whoever is logged in has shown, by the access that opened the session, that the account
is its own: with the password, by signing up, or by a development login set up for it. -/
theorem session_authenticated (services : Services) (state : AppState)
    (fluent : I18n.FluentLangneg) (enabledEmail : Option String) {h : List (Site × Access)}
    {site₀ site : Site} (run : Run (accessStep services state fluent enabledEmail) site₀ h site)
    (hnone : ∀ client, site₀.session client = none) {client : Nat} {row : UserRow}
    (hrow : site.account client = some row) :
    ∃ k, OpenedAt services state fluent enabledEmail h site client row.id k := by
  obtain ⟨data, hdata, hfound⟩ := Option.bind_eq_some_iff.mp hrow
  have hid : row.id = data.userId :=
    Database.selectUser_id (Option.filter_eq_some_iff.mp hfound).1
  rw [hid]
  exact run_opened run hnone hdata

/-- Ann tries a wrong password, and then hers. -/
def annLogsIn : List Access :=
  ["battery staple", "correct horse"].map fun password => .visit (.request 0 [] ""
    (.login ⟨"ann@example.org", password, none⟩) fun _ => .plain 0 ⟨7⟩)

/-- It is one of her logins that has opened her session. -/
theorem session_authenticated_ann : ∃ h site k,
    Run.record (accessStep .plain .plain .plain none) plainSite annLogsIn = some (h, site) ∧
    OpenedAt .plain .plain .plain none h site 0 ⟨1⟩ k := by
  have hrecord : Run.record (accessStep .plain .plain .plain none) plainSite annLogsIn =
      some (_, _) := rfl
  obtain ⟨k, hk⟩ : ∃ k, OpenedAt .plain .plain .plain none _ _ 0 annRow.id k :=
    session_authenticated .plain .plain .plain none (Run.of_record annLogsIn hrecord)
      (fun _ => rfl) rfl
  exact ⟨_, _, k, hrecord, hk⟩

end TodoRust.Visits
