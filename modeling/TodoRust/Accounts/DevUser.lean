import TodoRust.Accounts.Registry
import TodoRust.Router.Endpoints
import TodoRust.Settings.Config

/-!
# The development user

`ensure_dev_user` runs whenever the program starts, and `POST /dev/login` counts on
the account it leaves behind. Several processes may start at once over one database;
a startup that loses the race for the insert has what it wanted all the same. Whatever
runs beside them is made of the statements, commands and sessions of this application,
none of which takes an account away.
-/

namespace TodoRust.Accounts
open Lib Domain Storage Storage.Database Rust App Settings

def passwordAlphabet : List Char :=
  "ABCDEFGHIJKLMNOPQRSTUVWXYZabcdefghijklmnopqrstuvwxyz0123456789".toList

theorem passwordAlphabet_length : 62 = passwordAlphabet.length := by decide

/-- The random password, from the 48 numbers drawn. -/
def devPassword (draws : Fin 48 → Fin 62) : String :=
  String.ofList (List.ofFn fun n => passwordAlphabet.get ((draws n).cast passwordAlphabet_length))

/-- `ensure_dev_user` -/
def ensureDevUser (debugAssertions : Bool) (config : Config) (draws : Fin 48 → Fin 62) :
    Call Unit :=
  match config.dev.enabledEmail debugAssertions with
  | none => pure ()
  | some email => do
      match ← UserRepository.findByEmail email with
      | some _ => pure ()
      | none =>
          let new : NewUser := { email, password := devPassword draws }
          match ← ExceptT.lift (UserRepository.create new).run with
          | .ok _ => pure ()
          | .error (.conflict _) => pure ()
          | .error err => throw err

/-! ### The processes -/

/-- What runs over the database: startups, development logins, and any other program of
this application's effects. -/
inductive DevCall
  | startup (draws : Fin 48 → Fin 62)
  | autoLogin
  | other (program : Action Unit)

inductive DevReply
  | started (reply : Except StorageError Unit)
  | loggedIn (reply : Except Halt Response)
  | other

section Processes
variable (debugAssertions : Bool) (config : Config)

def DevCall.prog : DevCall → Action DevReply
  | .startup draws => do
      return .started (← (ensureDevUser debugAssertions config draws).run)
  | .autoLogin => do
      return .loggedIn (← (Router.autoLogin (config.dev.enabledEmail debugAssertions)).run)
  | .other program => do
      program
      return .other

/-- Any number of them over one database; the environment acts on what is not in it. -/
def processes {X : Type} (services : Services) (env : X → World → World) :
    System Nat DevCall Choice X Effect Effect.Reply DevReply World where
  prog _ call := call.prog debugAssertions config
  act := act services
  env := env

end Processes

abbrev DevPool := Pool Nat Effect Effect.Reply DevReply World
abbrev DevHistory (X : Type) := List (DevPool × Event Nat DevCall Choice X)

/-- One of the task's steps fails. -/
def Faulted {X : Type} (h : DevHistory X) (j : Nat) : Prop :=
  ∃ t c, (t, .step j c) ∈ h ∧ c.fault ≠ none

/-- A row about to be inserted has an id of its own. -/
def FreshRow {X : Type} (s : DevPool) : Event Nat DevCall Choice X → Prop
  | .step i _ =>
      ∀ stmt ∈ (s.nextEffect i).bind Effect.statement?, FreshInsert stmt s.world.db
  | _ => True

instance {X : Type} (s : DevPool) :
    DecidablePred (FreshRow s : Event Nat DevCall Choice X → Prop) := fun e => by
  unfold FreshRow
  split <;> infer_instance

/-! ### The account of an email -/

/-- What the lookup of the email finds. -/
def Found (pg : Postgres) (email : String) (account : Account) (db : Database) : Prop :=
  (db.selectUserByEmail pg email).map UserRow.account = some account

section Found
variable {services : Services} {pg : Postgres} {email : String} {account : Account}
variable {db : Database} {w : World}

/-- No statement takes an account away. -/
theorem accounts_kept (now : OffsetDateTime) (stmt : Statement) :
    db.accounts <+: (db.exec pg now stmt).2.accounts := by
  by_cases h : ∃ id email passwordHash, stmt = .insertUser id email passwordHash
  · obtain ⟨id, email, passwordHash, rfl⟩ := h
    unfold exec
    split
    · simp only [perform, insertUser]
      split
      · exact List.prefix_rfl
      · split
        · exact List.prefix_rfl
        · simp [accounts]
    · exact List.prefix_rfl
  · rw [accounts_exec]
    intro id email passwordHash hstmt
    exact h ⟨id, email, passwordHash, hstmt⟩

theorem found_iff : Found pg email account db ↔
    db.accounts.find? (fun a => pg.lower a.email == pg.lower email) = some account := by
  rw [Found, selectUserByEmail, accounts, List.find?_map]
  rfl

/-- An account that is found once is found from then on. -/
theorem Found.act {c : Choice} {e : Effect} (h : Found services.pg email account w.db) :
    Found services.pg email account (act services c e w).2.db := by
  cases e with
  | sql stmt =>
      rw [act_sql]
      cases c.fault with
      | some message => exact h
      | none =>
          rw [found_iff] at h ⊢
          exact (accounts_kept c.now stmt).find?_eq_some h
  | newUuid | generateHash | verifyPassword | redisGet | redisSet | redisDel | sessionLogin
  | render =>
      rw [act_db]
      · exact h
      · simp

theorem Found.lower (h : Found pg email account db) :
    pg.lower account.email = pg.lower email := by
  rw [found_iff] at h
  exact beq_iff_eq.mp (List.find?_some (p := fun a : Account => pg.lower a.email == _) h)

theorem found_of_taken (h : Taken pg db email) : ∃ account, Found pg email account db := by
  obtain ⟨row, hrow, hlower⟩ := h
  have hsome : (db.selectUserByEmail pg email).isSome := by
    rw [selectUserByEmail, List.find?_isSome]
    exact ⟨row, hrow, beq_iff_eq.mpr hlower⟩
  obtain ⟨found, hfound⟩ := Option.isSome_iff_exists.mp hsome
  exact ⟨found.account, by rw [Found, hfound]; rfl⟩

end Found

/-! ### What a startup has shown -/

/-- Replies that show the email's account to be there: a lookup that found it, an insert
that made it, an insert that lost the race for it. -/
def shows (email : String) : (e : Effect) → e.Reply → Bool
  | .sql (.selectUserByEmail email'), .ok (some _) => email' == email
  | .sql (.insertUser _ email' _), .ok _ => email' == email
  | .sql (.insertUser _ email' _), .error e => email' == email && e.isUniqueViolation
  | _, _ => false

section Shown
variable {services : Services} {email : String} {c : Choice} {w : World}

theorem selected_found {row : UserRow}
    (h : (act services c (.sql (.selectUserByEmail email)) w).1 = .ok (some row)) :
    ∃ account, Found services.pg email account w.db := by
  rw [act_sql] at h
  cases hfault : c.fault with
  | some message =>
      rw [hfault] at h
      cases h
  | none =>
      rw [hfault] at h
      have hperform := exec_ok h
      dsimp only at h
      rw [hperform] at h
      exact ⟨row.account, congrArg (Option.map UserRow.account) (Except.ok.inj h)⟩

/-- An insert that is not refused for another reason leaves the email with an account. -/
theorem inserted_found {id : Uuid} {hash : String}
    (hfresh : ∀ row ∈ w.db.users, row.id ≠ id)
    (h : shows email (.sql (.insertUser id email hash))
      (act services c (.sql (.insertUser id email hash)) w).1 = true) :
    ∃ account, Found services.pg email account
      (act services c (.sql (.insertUser id email hash)) w).2.db := by
  rw [act_sql] at h ⊢
  cases hfault : c.fault with
  | some message => simp [hfault, shows, SqlxError.isUniqueViolation] at h
  | none =>
      simp only [hfault] at h ⊢
      rcases exec_cases services.pg c.now w.db (.insertUser id email hash) with hexec | hexec
      · rw [hexec]
        by_cases htaken : Taken services.pg w.db email
        · obtain ⟨account, hfound⟩ := found_of_taken htaken
          refine ⟨account, ?_⟩
          rw [perform, insertUser_taken hfresh htaken]
          exact hfound
        · obtain ⟨row, hrow, hinsert⟩ : ∃ row : UserRow, row.account = ⟨id, email, hash⟩ ∧
              w.db.insertUser services.pg c.now id email hash =
                (.ok row, { w.db with users := w.db.users ++ [row] }) :=
            insertUser_free hfresh htaken
          apply found_of_taken
          rw [perform, hinsert]
          refine ⟨row, List.mem_append_right _ (List.mem_singleton_self _), ?_⟩
          exact congrArg (fun account : Account => services.pg.lower account.email) hrow
      · rw [hexec] at h
        simp [shows, SqlxError.invalidText, SqlxError.isUniqueViolation] at h

/-- What was shown is so. -/
theorem shown_found {e : Effect}
    (hfresh : ∀ stmt, e = .sql stmt → FreshInsert stmt w.db)
    (h : shows email e (act services c e w).1 = true) :
    ∃ account, Found services.pg email account (act services c e w).2.db := by
  match e with
  | .sql (.selectUserByEmail email') =>
      cases hreply : (act services c (.sql (.selectUserByEmail email')) w).1 with
      | error e => simp [hreply, shows] at h
      | ok found =>
          cases found with
          | none => simp [hreply, shows] at h
          | some row =>
              obtain rfl : email' = email := by simpa [hreply, shows] using h
              obtain ⟨account, hfound⟩ := selected_found hreply
              exact ⟨account, hfound.act⟩
  | .sql (.insertUser id email' hash) =>
      have hemail : email' = email := by
        revert h
        cases (act services c (.sql (.insertUser id email' hash)) w).1 with
        | error e => simp +contextual [shows]
        | ok row => simp [shows]
      subst hemail
      exact inserted_found (hfresh _ rfl) h
  | .sql (.selectTodos _) | .sql (.insertTodo ..) | .sql (.selectTodo ..) | .sql (.updateTodo ..)
  | .sql (.toggleTodo ..) | .sql (.deleteTodo ..) | .sql (.selectUser _)
  | .sql (.updatePreferences ..) | .newUuid | .generateHash _ | .verifyPassword .. | .redisGet _
  | .redisSet .. | .redisDel _ | .sessionLogin _ | .render .. => simp [shows] at h

end Shown

/-! ### The startups -/

/-- How far a task is with the account. -/
inductive Seeding
  | other
  | seeding
  | seeded

/-- A startup of a task, which fails only if one of its steps does. -/
def seeding (services : Services) (email : String) (faulty : Prop) :
    Monitor Effect Effect.Reply Seeding where
  allows m e :=
    match m, e with
    | .seeding, .sql (.insertUser _ email' hash) =>
        email' = email ∧ services.pg.storesText hash = true
    | _, _ => True
  answers _ e reply :=
    match e, reply with
    | .generateHash _, .ok hash => services.pg.storesText hash = true
    | .generateHash _, .error _ => faulty
    | .sql (.selectUserByEmail email'), .error _ => email' = email → faulty
    | .sql (.insertUser _ email' hash), .error e =>
        email' = email → services.pg.storesText hash = true →
          e.isUniqueViolation = true ∨ faulty
    | _, _ => True
  next m e reply :=
    match m with
    | .seeding => if shows email e reply then .seeded else .seeding
    | m => m

/-- A startup that ends well has shown the account. -/
def Seeded (faulty : Prop) : DevReply → Seeding → Prop
  | .started (.ok ()), m => m = .seeded
  | .started (.error _), _ => faulty
  | _, _ => True

def DevCall.seeding : DevCall → Seeding
  | .startup _ => .seeding
  | _ => .other

/-- What `ensure_dev_user` makes of the reply to its insert. -/
def readSeeded (reply : Except SqlxError UserRow) : Except StorageError Unit :=
  match reply with
  | .ok _ => .ok ()
  | .error e => if e.isUniqueViolation then .ok () else .error (.database e)

section Startups
variable {services : Services} {debugAssertions : Bool} {config : Config} {email : String}
variable {faulty : Prop}

theorem enabledEmail_trimmed (h : config.dev.enabledEmail debugAssertions = some email) :
    trim email = email := by
  unfold DevConfig.enabledEmail at h
  dsimp only at h
  split at h
  · cases h
  · split at h
    · cases h
    · obtain rfl := Option.some.inj h
      exact trim_trim _

theorem ensureDevUser_program (h : config.dev.enabledEmail debugAssertions = some email)
    (draws : Fin 48 → Fin 62) :
    (ensureDevUser debugAssertions config draws).run =
      .op (.sql (.selectUserByEmail email)) fun found =>
        match found with
        | .error e => .ret (.error (.database e))
        | .ok (some _) => .ret (.ok ())
        | .ok none => .op .newUuid fun id => .op (.generateHash (devPassword draws)) fun hashed =>
            match hashed with
            | .error message => .ret (.error (.join message))
            | .ok hash => .op (.sql (.insertUser id email hash)) fun reply =>
                .ret (readSeeded reply) := by
  have htrim := enabledEmail_trimmed h
  unfold ensureDevUser
  rw [h]
  dsimp only
  rw [ExceptT.run_bind, UserRepository.findByEmail_program, Prog.op_bind, htrim]
  refine congrArg (Prog.op _) (funext fun found => ?_)
  match found with
  | .error e => rfl
  | .ok (some row) => rfl
  | .ok none =>
      show (ExceptT.lift (UserRepository.create ⟨email, devPassword draws⟩).run >>= _).run = _
      rw [ExceptT.run_bind_lift, UserRepository.create_program, htrim]
      refine congrArg (Prog.op _) (funext fun id => congrArg (Prog.op _) (funext fun hashed => ?_))
      cases hashed with
      | error message => rfl
      | ok hash =>
          refine congrArg (Prog.op _) (funext fun reply => ?_)
          cases reply with
          | ok row => rfl
          | error e =>
              simp only [readSeeded, Except.map, Except.mapError, UserRepository.createError]
              cases e.isUniqueViolation with
              | true => rfl
              | false => rfl

theorem ensureDevUser_seeding (h : config.dev.enabledEmail debugAssertions = some email)
    (draws : Fin 48 → Fin 62) :
    Prog.Obeys (seeding services email faulty) (fun reply m => Seeded faulty (.started reply) m)
      .seeding (ensureDevUser debugAssertions config draws).run := by
  rw [ensureDevUser_program h]
  refine ⟨trivial, fun found hfound => ?_⟩
  match found with
  | .error e => exact hfound rfl
  | .ok (some row) =>
      show (if shows email _ _ then Seeding.seeded else .seeding) = .seeded
      simp [shows]
  | .ok none =>
      refine ⟨trivial, fun id _ => ⟨trivial, fun hashed hhashed => ?_⟩⟩
      cases hashed with
      | error message => exact hhashed
      | ok hash =>
          refine ⟨⟨rfl, hhashed⟩, fun reply hreply => ?_⟩
          cases reply with
          | ok row =>
              show (if shows email _ _ then Seeding.seeded else .seeding) = .seeded
              simp [shows]
          | error e =>
              cases hunique : e.isUniqueViolation with
              | true =>
                  simp only [readSeeded, hunique]
                  show (if shows email _ _ then Seeding.seeded else .seeding) = .seeded
                  simp [shows, hunique]
              | false =>
                  simp only [readSeeded, hunique]
                  rcases hreply rfl hhashed with hviolation | hfaulty
                  · rw [hunique] at hviolation
                    cases hviolation
                  · exact hfaulty

/-- Programs that are no startup are not followed. -/
theorem other_seeding {α : Type} (p : Action α) :
    Prog.Obeys (seeding services email faulty) (fun _ _ => True) .other p := by
  induction p with
  | ret a => trivial
  | op e k ih => exact ⟨trivial, fun r _ => ih r⟩

theorem DevCall.obeys_seeding (h : config.dev.enabledEmail debugAssertions = some email)
    (call : DevCall) :
    Prog.Obeys (Accounts.seeding services email faulty) (Seeded faulty) call.seeding
      (call.prog debugAssertions config) := by
  cases call with
  | startup draws =>
      apply (ensureDevUser_seeding h draws).bind
      exact fun reply m hreply => hreply
  | autoLogin =>
      apply (other_seeding _).bind
      exact fun reply m _ => trivial
  | other program =>
      apply (other_seeding _).bind
      exact fun reply m _ => trivial

end Startups

section SeedingStep
variable {services : Services} {email : String} {c : Choice} {w : World} {faulty : Prop}

theorem insertUser_unique {pg : Postgres} {now : OffsetDateTime} {db : Database} {id : Uuid}
    {hash : String} {e : SqlxError} (h : (db.insertUser pg now id email hash).1 = .error e) :
    e.isUniqueViolation = true := by
  unfold insertUser at h
  split at h
  · cases h
    rfl
  · split at h
    · cases h
      rfl
    · cases h

/-- With texts the server stores, a statement fails by itself only for a constraint. -/
theorem act_seeding (hemail : services.pg.storesText email = true)
    (hhash : ∀ salt password, services.pg.storesText
      (services.passwords.generateHash salt password) = true)
    (hfaulty : c.fault ≠ none → faulty) (m : Seeding) (e : Effect) :
    (seeding services email faulty).answers m e (act services c e w).1 := by
  match e with
  | .generateHash password =>
      cases hfault : c.fault with
      | some message => simpa [seeding, act, hfault] using hfaulty (by simp [hfault])
      | none => simpa [seeding, act, hfault] using hhash c.salt password
  | .sql (.selectUserByEmail email') =>
      rw [act_sql]
      cases hfault : c.fault with
      | some message => exact fun _ => hfaulty (by simp [hfault])
      | none =>
          cases hexec : (w.db.exec services.pg c.now (.selectUserByEmail email')).1 with
          | ok found => trivial
          | error e =>
              rintro rfl
              simp [exec, Statement.texts, hemail, perform] at hexec
  | .sql (.insertUser id email' hash) =>
      rw [act_sql]
      cases hfault : c.fault with
      | some message => exact fun _ _ => Or.inr (hfaulty (by simp [hfault]))
      | none =>
          cases hexec : (w.db.exec services.pg c.now (.insertUser id email' hash)).1 with
          | ok row => trivial
          | error e =>
              rintro rfl hstored
              apply Or.inl
              apply insertUser_unique
              simpa [exec, Statement.texts, hemail, hstored, perform] using hexec
  | .sql (.selectTodos _) | .sql (.insertTodo ..) | .sql (.selectTodo ..) | .sql (.updateTodo ..)
  | .sql (.toggleTodo ..) | .sql (.deleteTodo ..) | .sql (.selectUser _)
  | .sql (.updatePreferences ..) | .newUuid | .verifyPassword .. | .redisGet _
  | .redisSet .. | .redisDel _ | .sessionLogin _ | .render .. => trivial

end SeedingStep

/-! ### The logins -/

theorem home_valid : (asBytes "/").all isValidByte = true := by decide

/-- The redirect to the front page. -/
def homeRedirect : Response where
  status := StatusCode.seeOther
  headers := [("location", ⟨asBytes "/", home_valid⟩)]
  body := .empty

/-- How far a task is with a login. -/
inductive Login
  | other
  | pending
  | performed

/-- A login that finds the account, if the task is one. -/
def loggingIn (email : String) (account : Account) (faulty : Prop) :
    Monitor Effect Effect.Reply Login where
  allows m e :=
    match m, e with
    | .other, _ => True
    | _, .sessionLogin user => user.id.uuid = account.id
    | _, _ => True
  answers _ e reply :=
    match e, reply with
    | .sql (.selectUserByEmail email'), .ok found =>
        email' = email → ∃ row, found = some row ∧ row.account = account
    | .sql (.selectUserByEmail email'), .error _ => email' = email → faulty
    | .sessionLogin _, .error _ => faulty
    | _, _ => True
  next m e reply :=
    match m, e, reply with
    | .pending, .sessionLogin _, .ok () => .performed
    | m, _, _ => m

/-- The end of a login: it is performed where it ends well, and fails only if one of its
steps does. -/
def LoggedIn (faulty : Prop) (reply : Except Halt Response) (m : Login) : Prop :=
  m ≠ .other ∧ (reply = .ok homeRedirect ∧ m = .performed ∨ (∃ e, reply = .error e) ∧ faulty)

def DevCall.login : DevCall → Login
  | .autoLogin => .pending
  | _ => .other

section Logins
variable {services : Services} {debugAssertions : Bool} {config : Config} {email : String}
variable {account : Account} {faulty : Prop}

theorem autoLogin_program (email : String) :
    (Router.autoLogin (some email)).run =
      .op (.sql (.selectUserByEmail (trim email))) fun found =>
        match found with
        | .error e => .ret (.error (.error (AppError.fromStorage (.database e))))
        | .ok none =>
            .ret (.error (.error (.internal ("dev user " ++ email ++ " missing from db"))))
        | .ok (some row) => .op (.sessionLogin (rowToUser row)) fun reply =>
            match reply with
            | .error e => .ret (.error (.error (.internal ("dev session login failed: " ++ e))))
            | .ok () => .ret (.ok homeRedirect) := by
  unfold Router.autoLogin
  dsimp only
  rw [Handler.run_call_bind, UserRepository.findByEmail_program]
  refine congrArg (Prog.op _) (funext fun found => ?_)
  match found with
  | .error e => rfl
  | .ok none => rfl
  | .ok (some row) =>
      refine congrArg (Prog.op _) (funext fun reply => ?_)
      cases reply with
      | error e => rfl
      | ok u => rfl

theorem autoLogin_obeys (h : config.dev.enabledEmail debugAssertions = some email) :
    Prog.Obeys (loggingIn email account faulty) (LoggedIn faulty) .pending
      (Router.autoLogin (config.dev.enabledEmail debugAssertions)).run := by
  have hpending : Login.pending ≠ .other := by simp
  rw [h, autoLogin_program, enabledEmail_trimmed h]
  refine ⟨trivial, fun found hfound => ?_⟩
  cases found with
  | error e => exact ⟨hpending, Or.inr ⟨⟨_, rfl⟩, hfound rfl⟩⟩
  | ok found =>
      obtain ⟨row, rfl, hrow⟩ := hfound rfl
      refine ⟨congrArg Account.id hrow, fun reply hreply => ?_⟩
      cases reply with
      | error e => exact ⟨hpending, Or.inr ⟨⟨_, rfl⟩, hreply⟩⟩
      | ok u => exact ⟨by simp [loggingIn], Or.inl ⟨rfl, rfl⟩⟩

theorem other_loggingIn {α : Type} (p : Action α) :
    Prog.Obeys (loggingIn email account faulty) (fun _ _ => True) .other p := by
  induction p with
  | ret a => trivial
  | op e k ih => exact ⟨trivial, fun r _ => ih r⟩

/-- The end of a task that was idle before. -/
def Ended (idle faulty : Prop) (reply : DevReply) (m : Login) : Prop :=
  idle → match reply with
    | .loggedIn done => LoggedIn faulty done m
    | _ => True

theorem DevCall.obeys_loggingIn {idle : Prop}
    (h : config.dev.enabledEmail debugAssertions = some email) (call : DevCall) :
    Prog.Obeys (loggingIn email account faulty) (Ended idle faulty) call.login
      (call.prog debugAssertions config) := by
  cases call with
  | autoLogin =>
      apply (autoLogin_obeys h).bind
      exact fun reply m hreply _ => hreply
  | startup draws =>
      apply (other_loggingIn _).bind
      exact fun reply m _ _ => trivial
  | other program =>
      apply (other_loggingIn _).bind
      exact fun reply m _ _ => trivial

theorem act_loggingIn {c : Choice} {w : World} (hemail : services.pg.storesText email = true)
    (hfound : Found services.pg email account w.db) (hfaulty : c.fault ≠ none → faulty)
    (m : Login) (e : Effect) :
    (loggingIn email account faulty).answers m e (act services c e w).1 := by
  match e with
  | .sql (.selectUserByEmail email') =>
      rw [act_sql]
      cases hfault : c.fault with
      | some message => exact fun _ => hfaulty (by simp [hfault])
      | none =>
          cases hexec : (w.db.exec services.pg c.now (.selectUserByEmail email')).1 with
          | error e =>
              rintro rfl
              simp [exec, Statement.texts, hemail, perform] at hexec
          | ok found =>
              rintro rfl
              have hrow : w.db.selectUserByEmail services.pg email' = found := by
                simpa [exec, Statement.texts, hemail, perform] using hexec
              rw [Found, hrow] at hfound
              exact Option.map_eq_some_iff.mp hfound
  | .sessionLogin user =>
      cases hfault : c.fault with
      | some message => simpa [loggingIn, act, command, hfault] using hfaulty (by simp [hfault])
      | none => simp [loggingIn, act, command, hfault]
  | .sql (.selectTodos _) | .sql (.insertTodo ..) | .sql (.selectTodo ..) | .sql (.updateTodo ..)
  | .sql (.toggleTodo ..) | .sql (.deleteTodo ..) | .sql (.selectUser _) | .sql (.insertUser ..)
  | .sql (.updatePreferences ..) | .newUuid | .generateHash _ | .verifyPassword .. | .redisGet _
  | .redisSet .. | .redisDel _ | .render .. => trivial

end Logins

/-! ### Whole runs -/

/-- The task has written a session for the account, and that did not fail. -/
def WroteSession {X : Type} (h : DevHistory X) (j : Nat) (account : Account) : Prop :=
  ∃ k t c user, System.PerformedAt h k j (.sessionLogin user) t c ∧ c.fault = none ∧
    user.id.uuid = account.id

theorem WroteSession.snoc {X : Type} {h : DevHistory X} {j : Nat} {account : Account}
    (hj : WroteSession h j account) (x : DevPool × Event Nat DevCall Choice X) :
    WroteSession (h ++ [x]) j account := by
  obtain ⟨k, t, c, user, hk, hsession⟩ := hj
  exact ⟨k, t, c, user, hk.snoc, hsession⟩

/-- What the logins have done: they wrote sessions for this account only, and those that
are through did write one. -/
structure Sessions {X : Type} (account : Account) (h : DevHistory X) (m : Nat → Login) : Prop where
  own : ∀ j, m j ≠ .other → ∀ k t c user,
    System.PerformedAt h k j (.sessionLogin user) t c → user.id.uuid = account.id
  wrote : ∀ j, m j = .performed → WroteSession h j account

section Runs
variable {X : Type} {services : Services} {debugAssertions : Bool} {config : Config}
variable {email : String} {env : X → World → World} {s₀ s₁ s₂ : DevPool} {h₁ h₂ : DevHistory X}

theorem faulted_of_mem {h : DevHistory X} {x : DevPool × Event Nat DevCall Choice X} (hx : x ∈ h)
    {j : Nat} {c : Choice} (hstep : x.2 = .step j c) (hfault : c.fault ≠ none) : Faulted h j :=
  ⟨x.1, c, by rwa [← hstep], hfault⟩

/-- Startups that have ended well have shown the account, and it is there. -/
theorem run_seeded (henabled : config.dev.enabledEmail debugAssertions = some email)
    (henv : ∀ x w, (env x w).db = w.db) (hemail : services.pg.storesText email = true)
    (hhash : ∀ salt password, services.pg.storesText
      (services.passwords.generateHash salt password) = true)
    (run : Run (processes debugAssertions config services env).step s₀ h₁ s₁)
    (hidle : ∀ i, s₀.task i = .idle) (hfresh : ∀ x ∈ h₁, FreshRow x.1 x.2) :
    ∃ m : Nat → Seeding,
      (∀ i, m i = .seeded → ∃ account, Found services.pg email account s₁.world.db) ∧
      ∀ i p, s₁.task i = .running p →
        Prog.Obeys (seeding services email (Faulted h₁ i)) (Seeded (Faulted h₁ i)) (m i) p := by
  apply System.monitored
    (fun s e => FreshRow s e ∧ ∀ i c, e = .step i c → c.fault ≠ none → Faulted h₁ i)
    (fun _ w m => ∀ i, m i = .seeded → ∃ account, Found services.pg email account w.db)
    (fun _ => .other) (fun i call => call.obeys_seeding henabled) hidle (by simp) _ _ _ _ run
  · exact fun x hx => ⟨hfresh x hx, fun i c => faulted_of_mem hx⟩
  · intro h s m i call _ hI _ j hj
    by_cases hij : j = i
    · subst hij
      rw [Function.update_self] at hj
      cases call <;> cases hj
    · rw [Function.update_of_ne hij] at hj
      exact hI j hj
  · intro h s m i c e k hI hrun hok _
    refine ⟨act_seeding hemail hhash (hok.2 i c rfl) _ _, ?_⟩
    -- an account that some task has seen is still there
    have hkept : ∀ j, m j = .seeded → ∃ account,
        Found services.pg email account (act services c e s.world).2.db := by
      intro j hj
      obtain ⟨account, hfound⟩ := hI j hj
      exact ⟨account, hfound.act⟩
    intro j hj
    by_cases hij : j = i
    · subst hij
      rw [Function.update_self] at hj
      cases hm : m j with
      | other =>
          rw [hm] at hj
          cases hj
      | seeded => exact hkept j hm
      | seeding =>
          rw [hm] at hj
          apply shown_found
          · rintro stmt rfl
            exact hok.1 stmt (by rw [Pool.nextEffect_eq_some.mpr ⟨k, hrun⟩]; rfl)
          · by_contra hno
            have hseeded : (if shows email e (act services c e s.world).1 then Seeding.seeded
              else .seeding) = .seeded := hj
            rw [if_neg hno] at hseeded
            cases hseeded
    · rw [Function.update_of_ne hij] at hj
      exact hkept j hj
  · exact fun h s m i hI => hI
  · intro h s m x hI _ j hj
    obtain ⟨account, hfound⟩ := hI j hj
    exact ⟨account, by rw [processes, henv]; exact hfound⟩

/-- What is recorded beside the logins changes nothing for them. -/
theorem Sessions.snoc {account : Account} {h : DevHistory X} {m : Nat → Login}
    (hsessions : Sessions account h m) {s : DevPool} {e : Event Nat DevCall Choice X}
    (he : ∀ i c, e ≠ .step i c) : Sessions account (h ++ [(s, e)]) m := by
  refine ⟨fun j hj k t c user hk => ?_, fun j hj => (hsessions.wrote j hj).snoc _⟩
  rcases hk.of_snoc with hk | ⟨_, hlast, _⟩
  · exact hsessions.own j hj k t c user hk
  · exact absurd (congrArg Prod.snd hlast) (he j c)

/-- A step of a login writes a session for the account, or it writes none. -/
theorem Sessions.step {account : Account} {h : DevHistory X} {m : Nat → Login} {faulty : Prop}
    (hsessions : Sessions account h m) {s : DevPool} {i : Nat} {c : Choice} {e : Effect}
    {k : e.Reply → Action DevReply} (hrun : s.task i = .running (.op e k))
    (hallows : (loggingIn email account faulty).allows (m i) e) :
    Sessions account (h ++ [(s, .step i c)]) (Function.update m i
      ((loggingIn email account faulty).next (m i) e (act services c e s.world).1)) := by
  have hnext : s.nextEffect i = some e := Pool.nextEffect_eq_some.mpr ⟨k, hrun⟩
  have hown : ∀ j, (Function.update m i ((loggingIn email account faulty).next (m i) e
      (act services c e s.world).1)) j ≠ .other → m j ≠ .other := by
    intro j hj hother
    by_cases hij : j = i
    · subst hij
      rw [Function.update_self, hother] at hj
      exact hj rfl
    · rw [Function.update_of_ne hij] at hj
      exact hj hother
  constructor
  · intro j hj q t c' user hq
    rcases hq.of_snoc with hq | ⟨_, hlast, hown'⟩
    · exact hsessions.own j (hown j hj) q t c' user hq
    · cases hlast
      obtain rfl : e = .sessionLogin user := Option.some.inj (hnext.symm.trans hown')
      have hi := hown i hj
      cases hm : m i with
      | other => exact absurd hm hi
      | pending | performed =>
          rw [hm] at hallows
          exact hallows
  · intro j hj
    by_cases hij : j = i
    · subst hij
      rw [Function.update_self] at hj
      cases hm : m j with
      | other =>
          rw [hm] at hj
          cases hj
      | performed => exact (hsessions.wrote j hm).snoc _
      | pending =>
          rw [hm] at hj hallows
          match e with
          | .sessionLogin user =>
              refine ⟨h.length, s, c, user, ⟨by simp, hnext⟩, ?_, hallows⟩
              cases hfault : c.fault with
              | none => rfl
              | some message =>
                  simp [act, command, hfault, loggingIn] at hj
          | .sql _ | .newUuid | .generateHash _ | .verifyPassword .. | .redisGet _ | .redisSet ..
          | .redisDel _ | .render .. => cases hj
    · rw [Function.update_of_ne hij] at hj
      exact (hsessions.wrote j hj).snoc _

/-- From a state with the account, it stays, and the logins that start there find it. -/
theorem run_loggedIn {account : Account}
    (henabled : config.dev.enabledEmail debugAssertions = some email)
    (henv : ∀ x w, (env x w).db = w.db) (hemail : services.pg.storesText email = true)
    (hfound : Found services.pg email account s₁.world.db)
    (run : Run (processes debugAssertions config services env).step s₁ h₂ s₂) :
    ∃ m : Nat → Login,
      (Found services.pg email account s₂.world.db ∧ Sessions account h₂ m) ∧
      ∀ j p, s₂.task j = .running p →
        Prog.Obeys (loggingIn email account (Faulted h₂ j))
          (Ended (s₁.task j = .idle) (Faulted h₂ j)) (m j) p := by
  have hbefore : ∀ {p : Action DevReply} {j : Nat}, s₁.task j = .running p →
      Prog.Obeys (loggingIn email account (Faulted h₂ j))
        (Ended (s₁.task j = .idle) (Faulted h₂ j)) .other p := by
    intro p j hp
    apply (other_loggingIn p).mono
    intro reply m _ hj
    rw [hj] at hp
    cases hp
  apply System.monitored_from
    (fun s e => ∀ i c, e = .step i c → c.fault ≠ none → Faulted h₂ i)
    (fun h w m => Found services.pg email account w.db ∧ Sessions account h m)
    (fun _ => .other) (fun i call => call.obeys_loggingIn henabled) (fun i p => hbefore) _ _ _ _ _
    run
  · exact fun x hx i c => faulted_of_mem hx
  · exact ⟨hfound, fun j hj => absurd rfl hj, fun j hj => by cases hj⟩
  · intro h s m i call hrun hI hi
    refine ⟨hI.1, fun j hj k t c user hk => ?_, fun j hj => ?_⟩
    · rcases hk.of_snoc with hold | ⟨_, hlast, _⟩
      · by_cases hij : j = i
        · -- a task that was idle has not acted
          subst hij
          exact absurd hold.1 (System.not_step_of_idle hrun hi)
        · rw [Function.update_of_ne hij] at hj
          exact hI.2.own j hj k t c user hold
      · cases hlast
    · by_cases hij : j = i
      · subst hij
        rw [Function.update_self] at hj
        cases call <;> cases hj
      · rw [Function.update_of_ne hij] at hj
        exact (hI.2.wrote j hj).snoc _
  · intro h s m i c e k hI hrun hok hallows
    exact ⟨act_loggingIn hemail hI.1 (hok i c rfl) _ _, hI.1.act, hI.2.step hrun hallows⟩
  · exact fun h s m i hI => ⟨hI.1, hI.2.snoc fun j c he => by cases he⟩
  · intro h s m x hI _
    refine ⟨?_, hI.2.snoc fun j c he => by cases he⟩
    rw [processes, henv]
    exact hI.1

/-- However many startups race for the account, none fails but for a step of its own.
Once one has ended well there is one account of the email, which nothing this application
does takes away: every login that starts from then on writes a session for that account
and is answered by the redirect, unless a step of its own fails, and no login writes a
session for another. -/
theorem dev_user_ready (services : Services) (debugAssertions : Bool) (config : Config)
    (env : X → World → World) (henabled : config.dev.enabledEmail debugAssertions = some email)
    (henv : ∀ x w, (env x w).db = w.db) (hemail : services.pg.storesText email = true)
    (hhash : ∀ salt password, services.pg.storesText
      (services.passwords.generateHash salt password) = true)
    (run : Run (processes debugAssertions config services env).step s₀ h₁ s₁)
    (hidle : ∀ i, s₀.task i = .idle) (hfresh : ∀ x ∈ h₁, FreshRow x.1 x.2) :
    (∀ i e, s₁.result i = some (.started (.error e)) → Faulted h₁ i) ∧
    ∀ i, s₁.result i = some (.started (.ok ())) → ∃ account : Account,
      services.pg.lower account.email = services.pg.lower email ∧
      ∀ h₂ s₂, Run (processes debugAssertions config services env).step s₁ h₂ s₂ →
        Found services.pg email account s₂.world.db ∧
        ∀ j done, s₁.task j = .idle → s₂.result j = some (.loggedIn done) →
          (done = .ok homeRedirect ∧ WroteSession h₂ j account ∨
            (∃ e, done = .error e) ∧ Faulted h₂ j) ∧
          ∀ k t c user, System.PerformedAt h₂ k j (.sessionLogin user) t c →
            user.id.uuid = account.id := by
  obtain ⟨m, hseeded, hobeys⟩ := run_seeded henabled henv hemail hhash run hidle hfresh
  constructor
  · intro i e hresult
    exact hobeys i _ (Pool.result_eq_some.mp hresult)
  · intro i hresult
    obtain ⟨account, hfound⟩ := hseeded i (hobeys i _ (Pool.result_eq_some.mp hresult))
    refine ⟨account, hfound.lower, fun h₂ s₂ run₂ => ?_⟩
    obtain ⟨m₂, ⟨hstays, hsessions⟩, hobeys₂⟩ :=
      run_loggedIn henabled henv hemail hfound run₂
    refine ⟨hstays, fun j done hj hresult => ?_⟩
    obtain ⟨hlogin, hdone⟩ := hobeys₂ j _ (Pool.result_eq_some.mp hresult) hj
    exact ⟨hdone.imp_left fun h => ⟨h.1, hsessions.wrote j h.2⟩, hsessions.own j hlogin⟩

end Runs

/-- A hash that keeps the password, but for NUL characters. -/
def textHash : PasswordAuth where
  generateHash _ password := String.ofList (password.toList.filter (· != Char.ofNat 0))
  verifyPassword password hash :=
    String.ofList (password.toList.filter (· != Char.ofNat 0)) == hash

theorem textHash_noNul (salt password : String) :
    noNul (textHash.generateHash salt password) = true := by
  simp [noNul, textHash]

def devConfig : Config :=
  { Config.default with dev := ⟨" dev@example.org ", false, "fixtures/templates"⟩ }

/-- The processes of the concrete run. -/
def devProcesses : System Nat DevCall Choice Empty Effect Effect.Reply DevReply World :=
  processes true devConfig { Services.plain with passwords := textHash } fun x => x.elim

/-- Two startups that both find no account; the second inserts first. -/
def racingStartups : List (Event Nat DevCall Choice Empty) :=
  [.start 0 (.startup fun _ => 0), .start 1 (.startup fun _ => 1),
    .step 0 (.plain 0 ⟨1⟩), .step 1 (.plain 0 ⟨2⟩), .step 0 (.plain 0 ⟨3⟩),
    .step 1 (.plain 0 ⟨4⟩), .step 0 (.plain 0 ⟨5⟩), .step 1 (.plain 0 ⟨6⟩),
    .step 1 (.plain 0 ⟨7⟩), .step 0 (.plain 0 ⟨8⟩)]

/-- A login afterwards. -/
def devLogin : List (Event Nat DevCall Choice Empty) :=
  [.start 2 .autoLogin, .step 2 (.plain 0 ⟨9⟩), .step 2 (.plain 0 ⟨10⟩)]

theorem dev_user_ready_race : ∃ h₁ s₁ h₂ s₂ account,
    Run.record devProcesses.step ⟨⟨⟨[], []⟩, fun _ => none⟩, fun _ => .idle⟩ racingStartups =
      some (h₁, s₁) ∧
    s₁.result 0 = some (.started (.ok ())) ∧ s₁.result 1 = some (.started (.ok ())) ∧
    Run.record devProcesses.step s₁ devLogin = some (h₂, s₂) ∧
    Found Services.plain.pg "dev@example.org" account s₂.world.db ∧
    s₂.result 2 = some (.loggedIn (.ok homeRedirect)) ∧ WroteSession h₂ 2 account := by
  have run : Run devProcesses.step ⟨⟨⟨[], []⟩, fun _ => none⟩, fun _ => .idle⟩ _ _ :=
    Run.of_record racingStartups rfl
  have henabled : devConfig.dev.enabledEmail true = some "dev@example.org" := by decide +kernel
  obtain ⟨_, hready⟩ := dev_user_ready _ true _ _ henabled (fun x => x.elim) rfl textHash_noNul run
    (fun _ => rfl) (by decide +kernel)
  obtain ⟨account, _, hlater⟩ := hready 0 rfl
  obtain ⟨hfound, hlogins⟩ := hlater _ _ (Run.of_record devLogin rfl)
  have hlogin := (hlogins 2 (.ok homeRedirect) rfl rfl).1
  refine ⟨_, _, _, _, account, rfl, rfl, rfl, rfl, hfound, rfl, ?_⟩
  rcases hlogin with ⟨-, hwrote⟩ | ⟨⟨e, he⟩, -⟩
  · exact hwrote
  · cases he

end TodoRust.Accounts
