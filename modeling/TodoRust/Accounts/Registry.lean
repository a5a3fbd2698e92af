import TodoRust.Storage.Repo

/-!
# The registry of accounts

The users table, as far as identity goes: each row is an account with an id, an
email and a password hash, and no two accounts have the same `LOWER` email. No
statement changes an account, and the only one that adds any is the insert.
The lookups of the login path read the registry.
-/

namespace TodoRust.Storage
open Lib Domain Rust

/-- What an account is known by. -/
structure Account where
  id : Uuid
  email : String
  passwordHash : String
  deriving DecidableEq

def UserRow.account (row : UserRow) : Account := ⟨row.id, row.email, row.passwordHash⟩

namespace Database

def accounts (db : Database) : List Account := db.users.map UserRow.account

/-- Some account has this email, up to `LOWER`. -/
def Taken (pg : Postgres) (db : Database) (email : String) : Prop :=
  ∃ row ∈ db.users, pg.lower row.email = pg.lower email

/-- The emails of a registry are trimmed, and pairwise different up to `LOWER`; the
ids are different as well. -/
structure Registered (pg : Postgres) (db : Database) : Prop where
  trimmed : ∀ account ∈ db.accounts, trim account.email = account.email
  ids : (db.accounts.map Account.id).Nodup
  unique : (db.accounts.map fun account => pg.lower account.email).Nodup

variable {pg : Postgres} {now : OffsetDateTime} {db : Database}

theorem taken_iff {email : String} :
    Taken pg db email ↔ ∃ account ∈ db.accounts, pg.lower account.email = pg.lower email := by
  simp [Taken, accounts, UserRow.account]

theorem accounts_updatePreferences {id : Uuid} {setLocale setTimezone : Bool}
    {locale timezone : Option String} :
    (db.updatePreferences now id setLocale locale setTimezone timezone).2.accounts =
      db.accounts := by
  apply Table.map_update
  exact fun _ => rfl

theorem insertUser_taken {id : Uuid} {email passwordHash : String}
    (hfresh : ∀ row ∈ db.users, row.id ≠ id) (h : Taken pg db email) :
    db.insertUser pg now id email passwordHash =
      (.error (.duplicateKey "users_email_lower_idx"), db) := by
  have hid : db.users.any (·.id == id) = false := by simpa using hfresh
  have hemail : db.users.any (fun row => pg.lower row.email == pg.lower email) = true := by
    simpa [Taken] using h
  simp [insertUser, hid, hemail]

/-- A new account, and nothing else, when its email is free. -/
theorem insertUser_free {id : Uuid} {email passwordHash : String}
    (hfresh : ∀ row ∈ db.users, row.id ≠ id) (h : ¬ Taken pg db email) :
    ∃ row, row.account = ⟨id, email, passwordHash⟩ ∧
      db.insertUser pg now id email passwordHash =
        (.ok row, { db with users := db.users ++ [row] }) := by
  have hid : db.users.any (·.id == id) = false := by simpa using hfresh
  have hemail : db.users.any (fun row => pg.lower row.email == pg.lower email) = false := by
    simpa [Taken] using h
  simp only [insertUser, hid, hemail, Bool.false_eq_true, if_false, Prod.mk.injEq,
    Except.ok.injEq]
  exact ⟨_, rfl, rfl, rfl⟩

/-- No statement but the insert touches the registry. -/
theorem accounts_exec {stmt : Statement}
    (h : ∀ id email passwordHash, stmt ≠ .insertUser id email passwordHash) :
    (db.exec pg now stmt).2.accounts = db.accounts := by
  unfold exec
  split
  · cases stmt with
    | insertUser id email passwordHash => exact absurd rfl (h id email passwordHash)
    | selectTodos | selectTodo | selectUser | selectUserByEmail | deleteTodo => rfl
    | insertTodo id ownerId title =>
        simp only [perform, insertTodo]
        split
        · rfl
        · split
          · rfl
          · split
            · rfl
            · rfl
    | updateTodo | toggleTodo =>
        simp only [perform, modifyTodo]
        split
        · rfl
        · split
          · rfl
          · rfl
    | updatePreferences => exact accounts_updatePreferences
  · rfl

/-- A registry takes a new account whose email is trimmed and free. -/
theorem Registered.insert {db' : Database} {account : Account} (hreg : Registered pg db)
    (htrim : trim account.email = account.email)
    (hfresh : ∀ row ∈ db.users, row.id ≠ account.id) (hfree : ¬ Taken pg db account.email)
    (hdb : db'.accounts = db.accounts ++ [account]) : Registered pg db' := by
  constructor
  · intro other hother
    rw [hdb, List.mem_append, List.mem_singleton] at hother
    rcases hother with hold | rfl
    · exact hreg.trimmed other hold
    · exact htrim
  · rw [hdb, List.map_append]
    apply hreg.ids.append (List.nodup_singleton _)
    simp only [List.disjoint_singleton, List.mem_map, accounts, exists_exists_and_eq_and,
      not_exists, not_and]
    exact hfresh
  · rw [hdb, List.map_append]
    apply hreg.unique.append (List.nodup_singleton _)
    simp only [List.disjoint_singleton, List.mem_map, not_exists, not_and]
    exact fun other hother hlower => hfree (taken_iff.mpr ⟨other, hother, hlower⟩)

theorem Registered.of_accounts {db' : Database} (hreg : Registered pg db)
    (hdb : db'.accounts = db.accounts) : Registered pg db' where
  trimmed := hdb ▸ hreg.trimmed
  ids := hdb ▸ hreg.ids
  unique := hdb ▸ hreg.unique

/-- The lookup by email is well defined: it finds the row with that email. -/
theorem Registered.selectUserByEmail_iff (hreg : Registered pg db) {email : String}
    {row : UserRow} :
    db.selectUserByEmail pg email = some row ↔
      row ∈ db.users ∧ pg.lower row.email = pg.lower email := by
  constructor
  · intro h
    have hlower := List.find?_some (p := fun row : UserRow => pg.lower row.email == _) h
    exact ⟨List.mem_of_find?_eq_some h, beq_iff_eq.mp hlower⟩
  · rintro ⟨hrow, hlower⟩
    have hunique : (db.users.map fun row => pg.lower row.email).Nodup := by
      simpa [accounts, UserRow.account, Function.comp_def] using hreg.unique
    rw [selectUserByEmail, ← hlower]
    exact Table.find?_key hunique hrow

end Database

section Lookups
variable {services : Services} {cs : Nat → Choice} {w : World}

/-- What `verify` makes of the row it finds. -/
def checked (passwords : PasswordAuth) (password : String) (row : Option UserRow) : Option User :=
  row.bind fun row =>
    if passwords.verifyPassword password row.passwordHash then some (rowToUser row) else none

theorem exec_selectUserByEmail (hstores : ∀ s, services.pg.storesText s = true)
    (hfault : (cs 0).fault = none) (email : String) :
    act services (cs 0) (.sql (.selectUserByEmail email)) w =
      (.ok (w.db.selectUserByEmail services.pg email), w) := by
  rw [act_sql, hfault]
  simp [Database.exec, Statement.texts, hstores, Database.perform]

theorem UserRepository.findByEmail_run (hstores : ∀ s, services.pg.storesText s = true)
    (hfault : ∀ n, (cs n).fault = none) (email : String) :
    (findByEmail email).run.run (act services) cs w =
      (.ok ((w.db.selectUserByEmail services.pg (trim email)).map rowToUser), w) := by
  rw [findByEmail_program, Prog.run_op, exec_selectUserByEmail hstores (hfault 0)]
  rfl

/-- The dummy hash decides nothing. -/
theorem UserRepository.verify_run (hstores : ∀ s, services.pg.storesText s = true)
    (hfault : ∀ n, (cs n).fault = none) (email password : String) :
    (verify email password).run.run (act services) cs w =
      (.ok (checked services.passwords password
        (w.db.selectUserByEmail services.pg (trim email))), w) := by
  rw [verify_program, Prog.run_op, exec_selectUserByEmail hstores (hfault 0)]
  dsimp only
  rw [Prog.run_op]
  cases w.db.selectUserByEmail services.pg (trim email) with
  | none =>
      simp only [act, hfault, Except.map, Except.mapError, Option.map_none, ite_self]
      rfl
  | some row =>
      simp only [act, hfault, Except.map, Except.mapError, Option.map_some, storedHash]
      rfl

end Lookups

end TodoRust.Storage
