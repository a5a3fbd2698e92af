import TodoRust.Accounts.Registry

/-!
# Account identity

Calls that create accounts and calls that update preferences, interleaved effect
by effect. Each create goes through the same stages, and its insert decides it:
the email is taken, or the account is in the registry from then on. So a login
means the account that signed up with that email and that password.
-/

namespace TodoRust.Accounts
open Lib Domain Storage Storage.Database Rust

inductive AccountCall
  | create (new : NewUser)
  | updatePreferences (id : UserId) (locale timezone : Option String)

inductive AccountReply
  | created (reply : Except StorageError User)
  | updated (reply : Except StorageError Unit)

def AccountCall.prog : AccountCall → Action AccountReply
  | .create new => do return .created (← (UserRepository.create new).run)
  | .updatePreferences id locale timezone => do
      return .updated (← (UserRepository.updatePreferences id locale timezone).run)

/-- Any number of calls over one database. -/
def accountCalls (services : Services) :
    System Nat AccountCall Choice Empty Effect Effect.Reply AccountReply World where
  prog _ call := call.prog
  act := act services
  env x := x.elim

abbrev AccountPool := Pool Nat Effect Effect.Reply AccountReply World
abbrev AccountEvent := Event Nat AccountCall Choice Empty
abbrev AccountHistory := List (AccountPool × AccountEvent)

/-- Statements are refused for the constraints only, and a hash verifies the
password it was made of and no other. -/
structure Ideal (services : Services) : Prop where
  stores : ∀ s, services.pg.storesText s = true
  verifies : ∀ salt p q, services.passwords.verifyPassword q
    (services.passwords.generateHash salt p) = true ↔ q = p

/-- The account about to be inserted has an id of its own. -/
def FreshId (s : AccountPool) : AccountEvent → Prop
  | .step i _ =>
      ∀ stmt ∈ (s.nextEffect i).bind Effect.statement?, FreshInsert stmt s.world.db
  | _ => True

instance (s : AccountPool) : DecidablePred (FreshId s) := fun e => by
  unfold FreshId
  split <;> infer_instance

/-! ### The stages of a call -/

inductive Stage
  | idle
  | called (call : AccountCall)
  | named (new : NewUser) (id : Uuid)
  | hashed (new : NewUser) (id : Uuid) (hash : String)
  | answered (reply : AccountReply)

/-- What `create` makes of the reply to its insert. -/
def readCreated (r : Except SqlxError UserRow) : Except StorageError User :=
  (r.map rowToUser).mapError UserRepository.createError

def Stage.allows : Stage → Effect → Prop
  | .called (.create _), e => e = .newUuid
  | .named new _, e => e = .generateHash new.password
  | .hashed new id hash, e => e = .sql (.insertUser id (trim new.email) hash)
  | .called (.updatePreferences id locale timezone), e =>
      e = .sql (.updatePreferences id.uuid (UserRepository.preference locale).1
        (UserRepository.preference locale).2 (UserRepository.preference timezone).1
        (UserRepository.preference timezone).2)
  | .idle, _ | .answered _, _ => False

def Stage.next : Stage → (e : Effect) → e.Reply → Stage
  | .called (.create new), .newUuid, id => .named new id
  | .named new id, .generateHash _, .ok hash => .hashed new id hash
  | .hashed .., .sql (.insertUser ..), r => .answered (.created (readCreated r))
  | .called _, .sql (.updatePreferences ..), r =>
      .answered (.updated ((r.map fun _ => ()).mapError .database))
  | m, _, _ => m

/-- Hashing does not fail. -/
def stages : Monitor Effect Effect.Reply Stage where
  allows := Stage.allows
  answers _ e reply :=
    match e, reply with
    | .generateHash _, .error _ => False
    | _, _ => True
  next := Stage.next

theorem prog_obeys (call : AccountCall) :
    Prog.Obeys stages (fun reply m => m = .answered reply) (.called call) call.prog := by
  cases call with
  | create new =>
      simp only [AccountCall.prog, UserRepository.create_program, Prog.op_bind]
      refine ⟨rfl, fun id _ => ⟨rfl, fun hashed hanswer => ?_⟩⟩
      cases hashed with
      | error message => exact hanswer.elim
      | ok hash => exact ⟨rfl, fun r _ => rfl⟩
  | updatePreferences id locale timezone =>
      simp only [AccountCall.prog, UserRepository.updatePreferences_program, Prog.op_bind]
      exact ⟨rfl, fun r _ => rfl⟩

/-! ### What the stages mean -/

section Invariant
variable (services : Services) (h : AccountHistory)

def Started (i : Nat) (call : AccountCall) : Prop :=
  ∃ (k : Nat) (t : AccountPool), h[k]? = some (t, .start i call)

/-- The call sends no statement but at `q`. -/
def SilentBut (i : Nat) (q : Option Nat) : Prop :=
  ∀ k t c stmt, System.PerformedAt h k i (.sql stmt) t c → q = some k

/-- The call has sent one statement, its insert, and read the reply. -/
def Decided (i : Nat) (new : NewUser) (r : Except StorageError User) : Prop :=
  ∃ q t c id salt,
    let stmt : Statement := .insertUser id (trim new.email)
      (services.passwords.generateHash salt new.password)
    System.PerformedAt h q i (.sql stmt) t c ∧ SilentBut h i (some q) ∧
    r = readCreated (t.world.db.exec services.pg c.now stmt).1

/-- How a call came to its stage. -/
def Explained (i : Nat) : Stage → Prop
  | .idle => True
  | .called call => Started h i call ∧ SilentBut h i none
  | .named new _ => Started h i (.create new) ∧ SilentBut h i none
  | .hashed new _ hash => Started h i (.create new) ∧ SilentBut h i none ∧
      ∃ salt, hash = services.passwords.generateHash salt new.password
  | .answered (.created r) => ∃ new, Started h i (.create new) ∧ Decided services h i new r
  | .answered (.updated _) => ∃ id locale timezone,
      Started h i (.updatePreferences id locale timezone)

/-- The account a created user stands for. -/
def userAccount (user : User) : Account := ⟨user.id.uuid, user.email, user.passwordHash⟩

/-- The invariant of a run: the tables are a registry, every stage is explained,
and every created user is registered. -/
structure Inv (w : World) (m : Nat → Stage) : Prop where
  registered : Registered services.pg w.db
  explained : ∀ i, Explained services h i (m i)
  kept : ∀ i user, m i = .answered (.created (.ok user)) → userAccount user ∈ w.db.accounts

end Invariant

section Steps
variable {services : Services} {h : AccountHistory} {s : AccountPool} {i : Nat}

theorem Started.snoc {call : AccountCall} {x : AccountPool × AccountEvent}
    (hstart : Started h i call) : Started (h ++ [x]) i call := by
  obtain ⟨k, t, hk⟩ := hstart
  exact ⟨k, t, getElem?_snoc_of_some hk⟩

theorem SilentBut.snoc {q : Option Nat} {x : AccountPool × AccountEvent}
    (hsilent : SilentBut h i q)
    (hx : ∀ t c stmt, x = (t, .step i c) → t.nextEffect i ≠ some (.sql stmt)) :
    SilentBut (h ++ [x]) i q := by
  intro k t c stmt hk
  rcases hk.of_snoc with hold | ⟨_, hlast, hnext⟩
  · exact hsilent k t c stmt hold
  · exact absurd hnext (hx t c stmt hlast)

theorem Decided.snoc {new : NewUser} {r : Except StorageError User}
    {x : AccountPool × AccountEvent} (hdecided : Decided services h i new r)
    (hx : ∀ t c, x ≠ (t, .step i c)) : Decided services (h ++ [x]) i new r := by
  obtain ⟨q, t, c, id, salt, hq, hsilent, hr⟩ := hdecided
  exact ⟨q, t, c, id, salt, hq.snoc, hsilent.snoc fun t c _ hlast => absurd hlast (hx t c), hr⟩

/-- An event that is no step of the call leaves its stage explained. -/
theorem Explained.snoc {m : Stage} {x : AccountPool × AccountEvent}
    (hm : Explained services h i m) (hx : ∀ t c, x ≠ (t, .step i c)) :
    Explained services (h ++ [x]) i m := by
  have hsilent : ∀ {q}, SilentBut h i q → SilentBut (h ++ [x]) i q :=
    fun hq => hq.snoc fun t c _ hlast => absurd hlast (hx t c)
  match m with
  | .idle => trivial
  | .called call => exact ⟨hm.1.snoc, hsilent hm.2⟩
  | .named new id => exact ⟨hm.1.snoc, hsilent hm.2⟩
  | .hashed new id hash => exact ⟨hm.1.snoc, hsilent hm.2.1, hm.2.2⟩
  | .answered (.created r) =>
      obtain ⟨new, hstart, hdecided⟩ := hm
      exact ⟨new, hstart.snoc, hdecided.snoc hx⟩
  | .answered (.updated r) =>
      obtain ⟨id, locale, timezone, hstart⟩ := hm
      exact ⟨id, locale, timezone, hstart.snoc⟩

/-- One step of a call: the tables stay a registry that keeps its accounts, the
new stage is explained, and a user that was created is registered. -/
structure Stepped (services : Services) (h : AccountHistory) (db : Database) (i : Nat)
    (m' : Stage) (db' : Database) : Prop where
  registered : Registered services.pg db'
  explained : Explained services h i m'
  kept : ∀ account ∈ db.accounts, account ∈ db'.accounts
  created : ∀ user, m' = .answered (.created (.ok user)) → userAccount user ∈ db'.accounts

/-- A step to a stage without a reply, which leaves the tables alone. -/
theorem stepped_silent {m' : Stage} {db : Database} (hreg : Registered services.pg db)
    (hm' : Explained services h i m') (hreply : ∀ reply, m' ≠ .answered reply) :
    Stepped services h db i m' db where
  registered := hreg
  explained := hm'
  kept _ haccount := haccount
  created _ hm := absurd hm (hreply _)

theorem exec_insertUser (hideal : Ideal services) {now : OffsetDateTime} {id : Uuid}
    {email hash : String} {db : Database} :
    db.exec services.pg now (.insertUser id email hash) =
      db.insertUser services.pg now id email hash := by
  simp [exec, Statement.texts, hideal.stores, perform]

/-- The insert decides the call. -/
theorem stepped_insert (hideal : Ideal services) {c : Choice} {new : NewUser} {id : Uuid}
    {salt : String} (hreg : Registered services.pg s.world.db) (hstart : Started h i (.create new))
    (hsilent : SilentBut h i none)
    (hfresh : ∀ row ∈ s.world.db.users, row.id ≠ id)
    (hnext : s.nextEffect i = some (.sql (.insertUser id (trim new.email)
      (services.passwords.generateHash salt new.password)))) :
    let done := s.world.db.exec services.pg c.now (.insertUser id (trim new.email)
      (services.passwords.generateHash salt new.password))
    Stepped services (h ++ [(s, .step i c)]) s.world.db i
      (.answered (.created (readCreated done.1))) done.2 := by
  intro done
  have hdecided : Decided services (h ++ [(s, .step i c)]) i new (readCreated done.1) := by
    refine ⟨h.length, s, c, id, salt, ⟨List.getElem?_concat_length, hnext⟩, ?_, rfl⟩
    intro k t c' stmt hk
    rcases hk.of_snoc with hold | ⟨rfl, _⟩
    · cases hsilent k t c' stmt hold
    · rfl
  have hexplained : Explained services (h ++ [(s, .step i c)]) i
      (.answered (.created (readCreated done.1))) := ⟨new, hstart.snoc, hdecided⟩
  by_cases htaken : Taken services.pg s.world.db (trim new.email)
  · have hdone : done = (.error (.duplicateKey "users_email_lower_idx"), s.world.db) :=
      (exec_insertUser hideal).trans (insertUser_taken hfresh htaken)
    rw [hdone] at hexplained ⊢
    refine ⟨hreg, hexplained, fun _ haccount => haccount, ?_⟩
    intro user huser
    cases huser
  · obtain ⟨row, hrow, hinsert⟩ := insertUser_free hfresh htaken
    have hdone : done = (.ok row, { s.world.db with users := s.world.db.users ++ [row] }) :=
      (exec_insertUser hideal).trans hinsert
    rw [hdone] at hexplained ⊢
    have haccounts : accounts { s.world.db with users := s.world.db.users ++ [row] } =
        s.world.db.accounts ++ [row.account] := by simp [accounts]
    constructor
    · have htrim : trim row.account.email = row.account.email := by
        rw [hrow]
        exact trim_trim new.email
      have hid : ∀ other ∈ s.world.db.users, other.id ≠ row.account.id := by
        rw [hrow]
        exact hfresh
      have hfree : ¬ Taken services.pg s.world.db row.account.email := by
        rw [hrow]
        exact htaken
      exact hreg.insert htrim hid hfree haccounts
    · exact hexplained
    · intro account haccount
      rw [haccounts]
      exact List.mem_append_left _ haccount
    · intro user huser
      have huser' : rowToUser row = user := by
        simpa [readCreated, Except.map, Except.mapError] using huser
      rw [haccounts, ← huser']
      exact List.mem_append_right _ (List.mem_singleton_self _)

/-- The step lemma: whatever a call does next, the invariant survives it. -/
theorem Inv.step (hideal : Ideal services) {m : Nat → Stage} {c : Choice} {e : Effect}
    {k : e.Reply → Action AccountReply} (hI : Inv services h s.world m)
    (hrun : s.task i = .running (.op e k)) (hfault : c.fault = none)
    (hfresh : FreshId s (.step i c)) (hallows : (m i).allows e) :
    stages.answers (m i) e (act services c e s.world).1 ∧
      Stepped services (h ++ [(s, .step i c)]) s.world.db i
        ((m i).next e (act services c e s.world).1) (act services c e s.world).2.db := by
  have hm := hI.explained i
  have hnext : s.nextEffect i = some e := Pool.nextEffect_eq_some.mpr ⟨k, hrun⟩
  -- a stage whose effect is no statement stays silent
  have hquiet : (∀ stmt, e ≠ .sql stmt) → SilentBut h i none →
      SilentBut (h ++ [(s, .step i c)]) i none := by
    intro he hsilent
    apply hsilent.snoc
    intro t c' stmt hlast hstmt
    cases hlast
    exact he stmt (Option.some.inj (hnext.symm.trans hstmt))
  generalize m i = stage at hm hallows ⊢
  match stage with
  | .idle | .answered reply => exact hallows.elim
  | .called (.create new) =>
      obtain rfl : e = .newUuid := hallows
      refine ⟨trivial, stepped_silent hI.registered ⟨hm.1.snoc, hquiet (by simp) hm.2⟩ ?_⟩
      intro reply hreply
      cases hreply
  | .named new id =>
      obtain rfl : e = .generateHash new.password := hallows
      have hact : act services c (.generateHash new.password) s.world =
          (.ok (services.passwords.generateHash c.salt new.password), s.world) := by
        simp only [act, hfault]
      rw [hact]
      refine ⟨trivial, stepped_silent hI.registered
        ⟨hm.1.snoc, hquiet (by simp) hm.2, c.salt, rfl⟩ ?_⟩
      intro reply hreply
      cases hreply
  | .hashed new id hash =>
      obtain rfl : e = .sql (.insertUser id (trim new.email) hash) := hallows
      obtain ⟨hstart, hsilent, salt, rfl⟩ := hm
      have hid : FreshInsert (.insertUser id (trim new.email)
          (services.passwords.generateHash salt new.password)) s.world.db :=
        hfresh _ (by rw [hnext]; rfl)
      rw [act_sql, hfault]
      exact ⟨trivial, stepped_insert hideal hI.registered hstart hsilent hid hnext⟩
  | .called (.updatePreferences id locale timezone) =>
      obtain rfl := hallows
      rw [act_sql, hfault]
      constructor
      · trivial
      · constructor
        · apply hI.registered.of_accounts
          apply accounts_exec
          simp
        · exact ⟨id, locale, timezone, hm.1.snoc⟩
        · intro account haccount
          rw [accounts_exec]
          · exact haccount
          · simp
        · intro user huser
          cases huser

/-- An event of call `i` alone keeps the invariant if its step does. -/
theorem Stepped.inv {m : Nat → Stage} {m' : Stage} {w w' : World}
    {x : AccountPool × AccountEvent} (hI : Inv services h w m)
    (hstep : Stepped services (h ++ [x]) w.db i m' w'.db)
    (hx : ∀ j, j ≠ i → ∀ t c, x ≠ (t, .step j c)) :
    Inv services (h ++ [x]) w' (Function.update m i m') where
  registered := hstep.registered
  explained := by
    apply (Function.forall_update_iff m (Explained services (h ++ [x]))).mpr
    exact ⟨hstep.explained, fun j hj => (hI.explained j).snoc (hx j hj)⟩
  kept := by
    apply (Function.forall_update_iff m fun _ stage => ∀ user,
      stage = .answered (.created (.ok user)) → userAccount user ∈ w'.db.accounts).mpr
    exact ⟨hstep.created, fun j _ user hj => hstep.kept _ (hI.kept j user hj)⟩

end Steps

section Runs
variable {services : Services} {s₀ s : AccountPool} {h : AccountHistory}

/-- The run lemma: from an empty users table, the invariant holds in every state
reached, and what is left of each call follows its stages. -/
theorem run_inv (hideal : Ideal services) (run : Run (accountCalls services).step s₀ h s)
    (hidle : ∀ i, s₀.task i = .idle) (hempty : s₀.world.db.users = [])
    (hfault : ∀ x ∈ h, NoFault x.2) (hfresh : ∀ x ∈ h, FreshId x.1 x.2) :
    ∃ m, Inv services h s.world m ∧ ∀ i p, s.task i = .running p →
      Prog.Obeys stages (fun reply m => m = .answered reply) (m i) p := by
  have hinit : Inv services [] s₀.world fun _ => .idle := by
    refine ⟨⟨?_, ?_, ?_⟩, fun _ => trivial, by simp⟩
    all_goals simp [accounts, hempty]
  apply System.monitored
    (fun s e => NoFault e ∧ FreshId s e) (fun h => Inv services h) _ (fun _ => prog_obeys)
    hidle hinit _ _ _ _ run fun x hx => ⟨hfault x hx, hfresh x hx⟩
  · intro h s m i call run hI hi
    apply Stepped.inv hI
    · apply stepped_silent hI.registered
      · refine ⟨⟨h.length, s, List.getElem?_concat_length⟩, ?_⟩
        intro k t c stmt hk
        rcases hk.of_snoc with hold | ⟨_, hlast, _⟩
        · exact absurd hold.1 (System.not_step_of_idle run hi)
        · cases hlast
      · simp
    · simp
  · intro h s m i c e k hI hrun hok hallows
    obtain ⟨hanswers, hstep⟩ := hI.step hideal hrun hok.1 hok.2 hallows
    refine ⟨hanswers, hstep.inv hI ?_⟩
    intro j hji t c' hlast
    cases hlast
    exact hji rfl
  · intro h s m i hI
    exact ⟨hI.registered, fun j => (hI.explained j).snoc (by simp), hI.kept⟩
  · intro h s m x
    exact x.elim

/-- At its insert a create is answered by a conflict exactly when the email is
taken, and then none of its steps has changed the database. -/
def ConflictIffTaken (services : Services) (h : AccountHistory) (s : AccountPool) (i : Nat)
    (new : NewUser) (r : Except StorageError User) : Prop :=
  ∃ q t c id hash,
    System.PerformedAt h q i (.sql (.insertUser id (trim new.email) hash)) t c ∧
    ((∃ message, r = .error (.conflict message)) ↔
      Taken services.pg t.world.db (trim new.email)) ∧
    ((∃ message, r = .error (.conflict message)) → ∀ k e t' c',
      System.PerformedAt h k i e t' c' → (stateAt h s (k + 1)).world.db = t'.world.db)

/-- The created user is one row, which a login means exactly with the email and
the password of the signup. -/
def LoginMeans (services : Services) (w : World) (new : NewUser) (user : User) : Prop :=
  ∃ row ∈ w.db.users, row.id = user.id.uuid ∧ (∀ other ∈ w.db.users, other.id = row.id →
    other = row) ∧
    ∀ email password (cs : Nat → Choice), (∀ n, (cs n).fault = none) →
      (((UserRepository.verify email password).run.run (act services) cs w).1 =
          .ok (some (rowToUser row)) ↔
        services.pg.lower (trim email) = services.pg.lower (trim new.email) ∧
          password = new.password)

/-- The insert a call is decided by, and its two outcomes. -/
theorem Decided.cases (hideal : Ideal services) {i : Nat} {new : NewUser}
    {r : Except StorageError User} (hfresh : ∀ x ∈ h, FreshId x.1 x.2)
    (hdecided : Decided services h i new r) :
    ∃ q t c id salt,
      let hash := services.passwords.generateHash salt new.password
      let stmt : Statement := .insertUser id (trim new.email) hash
      System.PerformedAt h q i (.sql stmt) t c ∧ SilentBut h i (some q) ∧
      (Taken services.pg t.world.db (trim new.email) ∧
          r = .error (.conflict "email already in use") ∧
          (t.world.db.exec services.pg c.now stmt).2 = t.world.db ∨
        ¬ Taken services.pg t.world.db (trim new.email) ∧
          ∃ user, r = .ok user ∧ userAccount user = ⟨id, trim new.email, hash⟩) := by
  obtain ⟨q, t, c, id, salt, hq, hsilent, hr⟩ := hdecided
  refine ⟨q, t, c, id, salt, hq, hsilent, ?_⟩
  have hid : FreshInsert (.insertUser id (trim new.email)
      (services.passwords.generateHash salt new.password)) t.world.db :=
    hfresh _ (List.mem_of_getElem? hq.1) _ (by rw [hq.2]; rfl)
  rw [exec_insertUser hideal] at hr ⊢
  by_cases htaken : Taken services.pg t.world.db (trim new.email)
  · left
    rw [insertUser_taken hid htaken] at hr ⊢
    exact ⟨htaken, hr, rfl⟩
  · right
    obtain ⟨row, hrow, hinsert⟩ := insertUser_free hid htaken
    rw [hinsert] at hr
    exact ⟨htaken, rowToUser row, hr, hrow⟩

theorem Decided.conflictIffTaken (hideal : Ideal services) {i : Nat} {new : NewUser}
    {r : Except StorageError User} (run : Run (accountCalls services).step s₀ h s)
    (hfault : ∀ x ∈ h, NoFault x.2) (hfresh : ∀ x ∈ h, FreshId x.1 x.2)
    (hdecided : Decided services h i new r) : ConflictIffTaken services h s i new r := by
  obtain ⟨q, t, c, id, salt, hq, hsilent, hcases⟩ := hdecided.cases hideal hfresh
  refine ⟨q, t, c, id, _, hq, ?_⟩
  rcases hcases with ⟨htaken, rfl, hsame⟩ | ⟨hfree, user, rfl, _⟩
  · refine ⟨⟨fun _ => htaken, fun _ => ⟨_, rfl⟩⟩, ?_⟩
    intro _ k e t' c' hk
    rw [hk.world run]
    by_cases hstmt : ∃ stmt, e = .sql stmt
    · -- the one statement of the call is its insert
      obtain ⟨stmt, rfl⟩ := hstmt
      obtain rfl : q = k := Option.some.inj (hsilent k t' c' stmt hk)
      cases hk.1.symm.trans hq.1
      cases hk.2.symm.trans hq.2
      have hnofault : c.fault = none := hfault _ (List.mem_of_getElem? hq.1)
      simp only [accountCalls, act_sql, hnofault]
      exact hsame
    · exact act_db fun stmt he => hstmt ⟨stmt, he⟩
  · refine ⟨⟨?_, fun htaken => absurd htaken hfree⟩, ?_⟩
    · rintro ⟨message, hconflict⟩
      cases hconflict
    · rintro ⟨message, hconflict⟩
      cases hconflict

/-- A registered account is meant by its own email and password alone. -/
theorem loginMeans (hideal : Ideal services) {w : World} {new : NewUser} {user : User}
    {id : Uuid} {salt : String} (hreg : Registered services.pg w.db)
    (hmem : userAccount user ∈ w.db.accounts)
    (huser : userAccount user =
      ⟨id, trim new.email, services.passwords.generateHash salt new.password⟩) :
    LoginMeans services w new user := by
  obtain ⟨row, hrow, haccount⟩ := List.mem_map.mp hmem
  have hid : row.id = user.id.uuid := congrArg Account.id haccount
  have hemail : row.email = trim new.email := congrArg Account.email (haccount.trans huser)
  have hhash : row.passwordHash = services.passwords.generateHash salt new.password :=
    congrArg Account.passwordHash (haccount.trans huser)
  refine ⟨row, hrow, hid, ?_, ?_⟩
  · intro other hother hsame
    have hids : (w.db.users.map UserRow.id).Nodup := by
      simpa [accounts, UserRow.account, Function.comp_def] using hreg.ids
    exact List.inj_on_of_nodup_map hids hother hrow hsame
  · intro email password cs hcs
    rw [UserRepository.verify_run hideal.stores hcs, ← hemail]
    constructor
    · intro hok
      obtain ⟨found, hfound, hchecked⟩ := Option.bind_eq_some_iff.mp (Except.ok.inj hok)
      obtain ⟨_, hlower⟩ := hreg.selectUserByEmail_iff.mp hfound
      obtain ⟨hverify, hsame⟩ := Option.ite_none_right_eq_some.mp hchecked
      have hfoundEmail : found.email = row.email :=
        congrArg User.email (Option.some.inj hsame)
      have hfoundHash : found.passwordHash = row.passwordHash :=
        congrArg User.passwordHash (Option.some.inj hsame)
      constructor
      · rw [← hfoundEmail, hlower]
      · rw [hfoundHash, hhash] at hverify
        exact (hideal.verifies salt new.password password).mp hverify
    · rintro ⟨hlower, rfl⟩
      have hfound := hreg.selectUserByEmail_iff.mpr ⟨hrow, hlower.symm⟩
      have hverify := (hideal.verifies salt new.password new.password).mpr rfl
      simp [hfound, checked, hhash, hverify]

/-- Account identity over whole runs. -/
theorem account_identity (services : Services) (hideal : Ideal services)
    {s₀ s : AccountPool} {h : AccountHistory} (run : Run (accountCalls services).step s₀ h s)
    (hidle : ∀ i, s₀.task i = .idle) (hempty : s₀.world.db.users = [])
    (hfault : ∀ x ∈ h, NoFault x.2) (hfresh : ∀ x ∈ h, FreshId x.1 x.2) :
    (∀ row ∈ s.world.db.users, trim row.email = row.email) ∧
    (s.world.db.users.map fun row => services.pg.lower row.email).Nodup ∧
    (∀ (i k : Nat) (t : AccountPool) new reply, h[k]? = some (t, .start i (.create new)) →
      s.result i = some reply → ∃ r, reply = .created r ∧
        ConflictIffTaken services h s i new r ∧
        ∀ user, r = .ok user → LoginMeans services s.world new user) ∧
    (∀ email password (cs cs' : Nat → Choice), (∀ n, (cs n).fault = none) →
      (∀ n, (cs' n).fault = none) → ∃ found,
        ((UserRepository.findByEmail email).run.run (act services) cs s.world).1 = .ok found ∧
        ((UserRepository.verify email password).run.run (act services) cs' s.world).1 =
          .ok (found.filter fun user =>
            services.passwords.verifyPassword password user.passwordHash) ∧
        (found = none ↔ ¬ Taken services.pg s.world.db (trim email))) ∧
    (∀ validateEmail new next, NewUser.validate validateEmail new = [] →
      Credentials.validate validateEmail ⟨new.email, new.password, next⟩ = []) := by
  obtain ⟨m, hI, hobeys⟩ := run_inv hideal run hidle hempty hfault hfresh
  refine ⟨?_, ?_, ?_, ?_, fun _ _ next hvalid => Credentials.validate_of_newUser hvalid next⟩
  · intro row hrow
    exact hI.registered.trimmed row.account (List.mem_map_of_mem hrow)
  · simpa [accounts, UserRow.account, Function.comp_def] using hI.registered.unique
  · intro i k t new reply hk hresult
    have hm : m i = .answered reply := hobeys i _ (Pool.result_eq_some.mp hresult)
    have hexplained := hI.explained i
    rw [hm] at hexplained
    cases reply with
    | updated r =>
        obtain ⟨id, locale, timezone, q, t', hq⟩ := hexplained
        cases System.start_unique run hk hq
    | created r =>
        obtain ⟨new', ⟨q, t', hq⟩, hdecided⟩ := hexplained
        cases System.start_unique run hk hq
        refine ⟨r, rfl, hdecided.conflictIffTaken hideal run hfault hfresh, ?_⟩
        rintro user rfl
        obtain ⟨_, _, _, id, salt, _, _, hcases⟩ := hdecided.cases hideal hfresh
        rcases hcases with ⟨_, hr, _⟩ | ⟨_, user', hr, huser⟩
        · cases hr
        · cases hr
          exact loginMeans hideal hI.registered (hI.kept i user hm) huser
  · intro email password cs cs' hcs hcs'
    rw [UserRepository.findByEmail_run hideal.stores hcs,
      UserRepository.verify_run hideal.stores hcs']
    refine ⟨_, rfl, ?_, ?_⟩
    · cases s.world.db.selectUserByEmail services.pg (trim email) with
      | none => rfl
      | some row => simp [checked, Option.filter, rowToUser]
    · simp [selectUserByEmail, Taken]

end Runs

/-- The services of the concrete run: `TEXT` holds every string. -/
def plainIdeal : Services :=
  { Services.plain with pg := { Services.plain.pg with storesText := fun _ => true } }

/-- One email in two spellings. -/
def annSignsUp : NewUser := ⟨" Ann@example.org ", "correct horse battery"⟩

def annSignsUpAgain : NewUser := ⟨"ann@example.org", "battery staple horse"⟩

/-- Two signups for one email, interleaved; the second inserts first. -/
def racingSignups : List AccountEvent :=
  [.start 0 (.create annSignsUp), .start 1 (.create annSignsUpAgain),
   .step 0 (.plain 0 ⟨1⟩), .step 1 (.plain 0 ⟨2⟩), .step 0 (.plain 0 ⟨3⟩),
   .step 1 (.plain 0 ⟨4⟩), .step 1 (.plain 0 ⟨5⟩), .step 0 (.plain 0 ⟨6⟩)]

theorem account_identity_racing_signups : ∃ h s,
    Run.record (accountCalls plainIdeal).step ⟨⟨⟨[], []⟩, fun _ => none⟩, fun _ => .idle⟩
      racingSignups = some (h, s) ∧
    (∃ r, s.result 0 = some (.created r) ∧ ConflictIffTaken plainIdeal h s 0 annSignsUp r) ∧
    ∃ user, s.result 1 = some (.created (.ok user)) ∧
      LoginMeans plainIdeal s.world annSignsUpAgain user := by
  have run : Run (accountCalls plainIdeal).step ⟨⟨⟨[], []⟩, fun _ => none⟩, fun _ => .idle⟩ _ _ :=
    Run.of_record racingSignups rfl
  have hideal : Ideal plainIdeal := ⟨fun _ => rfl, fun _ p q => beq_iff_eq⟩
  obtain ⟨_, _, hcreate, _⟩ := account_identity plainIdeal hideal run (fun _ => rfl) rfl
    (by decide +kernel) (by decide +kernel)
  obtain ⟨r, hr, hconflict, _⟩ := hcreate 0 0 _ annSignsUp _ rfl rfl
  obtain ⟨r', hr', _, hlogin⟩ := hcreate 1 1 _ annSignsUpAgain _ rfl rfl
  cases hr'
  exact ⟨_, _, rfl, ⟨r, congrArg some hr, hconflict⟩, _, rfl, hlogin _ rfl⟩

end TodoRust.Accounts
