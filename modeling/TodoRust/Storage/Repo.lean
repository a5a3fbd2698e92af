import TodoRust.World

/-!
# The repositories

`TodoRepository` and `UserRepository`: every method binds its parameters,
sends one statement and reads the reply. Only account creation and login add
steps of their own, the password hash and its check.
-/

namespace TodoRust.Storage
open Lib Domain Rust

inductive StorageError
  | notFound
  | conflict (message : String)
  | invalidCredentials
  | hashing
  | database (e : SqlxError)
  | join (message : String)
  deriving DecidableEq

/-- `Display` -/
def StorageError.toString : StorageError → String
  | .notFound => "not found"
  | .conflict message => "conflict: " ++ message
  | .invalidCredentials => "invalid credentials"
  | .hashing => "password hashing failed"
  | .database e => e.toString
  | .join message => "task join error: " ++ message

/-- A repository call. -/
abbrev Call (α : Type) := ExceptT StorageError (Prog Effect Effect.Reply) α

/-- Send one statement, with the errors of this call. -/
def execute (wrap : SqlxError → StorageError) (stmt : Statement) : Call stmt.Rows :=
  ExceptT.mk (Prog.op (.sql stmt) fun r => .ret (r.mapError wrap))

/-- A statement whose errors all become `StorageError::Database`. -/
def query (stmt : Statement) : Call stmt.Rows := execute .database stmt

/-- `spawn_blocking(…).await.map_err(StorageError::Join)` -/
def generateHash (password : String) : Call String :=
  ExceptT.mk (Prog.op (.generateHash password) fun r => .ret (r.mapError .join))

def verifyPassword (password hash : String) : Call Bool :=
  ExceptT.mk (Prog.op (.verifyPassword password hash) fun r => .ret (r.mapError .join))

def newUuid : Call Uuid := ExceptT.mk (Prog.op .newUuid fun id => .ret (.ok id))

def rowToTodo (row : TodoRow) : Todo where
  id := ⟨row.id⟩
  ownerId := ⟨row.ownerId⟩
  title := row.title
  completed := row.completed
  createdAt := row.createdAt
  updatedAt := row.updatedAt

def rowToUser (row : UserRow) : User where
  id := ⟨row.id⟩
  email := row.email
  passwordHash := row.passwordHash
  createdAt := row.createdAt
  locale := row.locale
  timezone := row.timezone

/-- `row.as_ref().map(row_to_todo).ok_or(StorageError::NotFound)` -/
def rowOrNotFound : Option TodoRow → Call Todo
  | some row => pure (rowToTodo row)
  | none => throw .notFound

namespace TodoRepository

def listForUser (userId : UserId) : Call (List Todo) := do
  let rows ← query (.selectTodos userId.uuid)
  return rows.map rowToTodo

def create (userId : UserId) (new : NewTodo) : Call Todo := do
  let id ← newUuid
  let title := trim new.title
  let row ← query (.insertTodo id userId.uuid title)
  return rowToTodo row

def get (userId : UserId) (id : TodoId) : Call Todo := do
  let row ← query (.selectTodo id.uuid userId.uuid)
  rowOrNotFound row

def update (userId : UserId) (id : TodoId) (update : TodoUpdate) : Call Todo := do
  let title := update.title.map trim
  let completed := update.completed
  let row ← query (.updateTodo id.uuid userId.uuid title completed)
  rowOrNotFound row

def toggle (userId : UserId) (id : TodoId) : Call Todo := do
  let row ← query (.toggleTodo id.uuid userId.uuid)
  rowOrNotFound row

def delete (userId : UserId) (id : TodoId) : Call Unit := do
  let rowsAffected ← query (.deleteTodo id.uuid userId.uuid)
  if rowsAffected = 0 then throw .notFound

end TodoRepository

namespace UserRepository

/-- `TIMING_DUMMY_HASH` -/
def timingDummyHash : String :=
  "$argon2id$v=19$m=19456,t=2,p=1$c29tZXNhbHRzb21lc2FsdA$" ++
    "UJg9rqFq8mqo5Hckj4cVi1NJV4O8e1V5z9eC7tEjxlw"

/-- The errors of the insert: a unique violation is a conflict. -/
def createError (e : SqlxError) : StorageError :=
  if e.isUniqueViolation then .conflict "email already in use" else .database e

def create (new : NewUser) : Call User := do
  let id ← newUuid
  let email := trim new.email
  let hash ← generateHash new.password
  let row ← execute createError (.insertUser id email hash)
  return rowToUser row

def findById (id : UserId) : Call (Option User) := do
  let row ← query (.selectUser id.uuid)
  return row.map rowToUser

def findByEmail (email : String) : Call (Option User) := do
  let row ← query (.selectUserByEmail (trim email))
  return row.map rowToUser

def verify (email password : String) : Call (Option User) := do
  let row ← query (.selectUserByEmail (trim email))
  let (storedHash, foundUser) := match row with
    | some row => (row.passwordHash, some (rowToUser row))
    | none => (timingDummyHash, none)
  let ok ← verifyPassword password storedHash
  return if ok then foundUser else none

/-- A preference as the statement binds it: whether to set it, and to what. -/
def preference (value : Option String) : Bool × Option String :=
  (value.isSome, value.bind fun s => if s = "" then none else some s)

def updatePreferences (id : UserId) (locale timezone : Option String) : Call Unit := do
  let (setLocale, localeVal) := preference locale
  let (setTimezone, timezoneVal) := preference timezone
  let _ ← query (.updatePreferences id.uuid setLocale localeVal setTimezone timezoneVal)

end UserRepository

/-! ### The programs of the calls

Each call as the effects it performs, with the reply of its last statement read
at the end. -/

/-- One statement and a reading of its rows, as a reading of its reply. -/
theorem execute_program {α : Type} {wrap : SqlxError → StorageError} {stmt : Statement}
    {f : stmt.Rows → Call α} {read : Except SqlxError stmt.Rows → Except StorageError α}
    (herr : ∀ e, read (.error e) = .error (wrap e))
    (hok : ∀ rows, (f rows).run = .ret (read (.ok rows))) :
    (execute wrap stmt >>= f).run = .op (.sql stmt) fun r => .ret (read r) := by
  refine congrArg (Prog.op _) (funext fun r => ?_)
  cases r with
  | error e =>
      rw [herr]
      rfl
  | ok rows => exact hok rows

/-- The reply of a statement that returns the row it found or changed. -/
def readFound : Except SqlxError (Option TodoRow) → Except StorageError Todo
  | .ok (some row) => .ok (rowToTodo row)
  | .ok none => .error .notFound
  | .error e => .error (.database e)

theorem rowOrNotFound_run (row : Option TodoRow) :
    (rowOrNotFound row).run = .ret (readFound (.ok row)) := by
  cases row with
  | none => rfl
  | some row => rfl

/-- The reply of the delete, whose count is the answer. -/
def readDeleted : Except SqlxError Nat → Except StorageError Unit
  | .ok rowsAffected => if rowsAffected = 0 then .error .notFound else .ok ()
  | .error e => .error (.database e)

/-- A call that reports a missing row has changed none. -/
theorem readFound_ok_error {row : Option TodoRow} {e : StorageError}
    (h : readFound (.ok row) = .error e) : row.isSome = false := by
  cases row with
  | none => rfl
  | some row => cases h

theorem readDeleted_ok_error {rowsAffected : Nat} {e : StorageError}
    (h : readDeleted (.ok rowsAffected) = .error e) : (rowsAffected != 0) = false := by
  cases rowsAffected with
  | zero => rfl
  | succ n => cases h

namespace TodoRepository

theorem listForUser_program (userId : UserId) :
    (listForUser userId).run = .op (.sql (.selectTodos userId.uuid)) fun r =>
      .ret ((r.map (List.map rowToTodo)).mapError .database) := by
  apply execute_program
  · exact fun _ => rfl
  · exact fun _ => rfl

theorem create_program (userId : UserId) (new : NewTodo) :
    (create userId new).run = .op .newUuid fun id =>
      .op (.sql (.insertTodo id userId.uuid (trim new.title))) fun r =>
        .ret ((r.map rowToTodo).mapError .database) := by
  refine congrArg (Prog.op _) (funext fun id => ?_)
  apply execute_program
  · exact fun _ => rfl
  · exact fun _ => rfl

theorem get_program (userId : UserId) (id : TodoId) :
    (get userId id).run = .op (.sql (.selectTodo id.uuid userId.uuid)) fun r =>
      .ret (readFound r) := by
  apply execute_program
  · exact fun _ => rfl
  · exact rowOrNotFound_run

theorem update_program (userId : UserId) (id : TodoId) (update : TodoUpdate) :
    (TodoRepository.update userId id update).run =
      .op (.sql (.updateTodo id.uuid userId.uuid (update.title.map trim) update.completed)) fun r =>
        .ret (readFound r) := by
  apply execute_program
  · exact fun _ => rfl
  · exact rowOrNotFound_run

theorem toggle_program (userId : UserId) (id : TodoId) :
    (toggle userId id).run = .op (.sql (.toggleTodo id.uuid userId.uuid)) fun r =>
      .ret (readFound r) := by
  apply execute_program
  · exact fun _ => rfl
  · exact rowOrNotFound_run

theorem delete_program (userId : UserId) (id : TodoId) :
    (delete userId id).run = .op (.sql (.deleteTodo id.uuid userId.uuid)) fun r =>
      .ret (readDeleted r) := by
  apply execute_program
  · exact fun _ => rfl
  · intro rowsAffected
    cases rowsAffected with
    | zero => rfl
    | succ n => rfl

end TodoRepository

namespace UserRepository

theorem create_program (new : NewUser) :
    (create new).run = .op .newUuid fun id => .op (.generateHash new.password) fun hashed =>
      match hashed with
      | .error message => .ret (.error (.join message))
      | .ok hash => .op (.sql (.insertUser id (trim new.email) hash)) fun r =>
          .ret ((r.map rowToUser).mapError createError) := by
  refine congrArg (Prog.op _) (funext fun id => congrArg (Prog.op _) (funext fun hashed => ?_))
  cases hashed with
  | error message => rfl
  | ok hash =>
      apply execute_program
      · exact fun _ => rfl
      · exact fun _ => rfl

theorem findById_program (id : UserId) :
    (findById id).run = .op (.sql (.selectUser id.uuid)) fun r =>
      .ret ((r.map (Option.map rowToUser)).mapError .database) := by
  apply execute_program
  · exact fun _ => rfl
  · exact fun _ => rfl

theorem findByEmail_program (email : String) :
    (findByEmail email).run = .op (.sql (.selectUserByEmail (trim email))) fun r =>
      .ret ((r.map (Option.map rowToUser)).mapError .database) := by
  apply execute_program
  · exact fun _ => rfl
  · exact fun _ => rfl

/-- The hash a lookup leaves to be verified. -/
def storedHash (row : Option UserRow) : String :=
  match row with
  | some row => row.passwordHash
  | none => timingDummyHash

theorem verify_program (email password : String) :
    (verify email password).run = .op (.sql (.selectUserByEmail (trim email))) fun r =>
      match r with
      | .error e => .ret (.error (.database e))
      | .ok row => .op (.verifyPassword password (storedHash row)) fun checked =>
          .ret ((checked.map fun ok => if ok then row.map rowToUser else none).mapError .join) := by
  have hchecked : ∀ (hash : String) (found : Option User),
      (verifyPassword password hash >>= fun ok => pure (if ok then found else none)).run =
        .op (.verifyPassword password hash) fun checked =>
          .ret ((checked.map fun ok => if ok then found else none).mapError .join) := by
    intro hash found
    refine congrArg (Prog.op _) (funext fun checked => ?_)
    cases checked with
    | error message => rfl
    | ok ok => rfl
  refine congrArg (Prog.op _) (funext fun r => ?_)
  match r with
  | .error e => rfl
  | .ok none => exact hchecked timingDummyHash none
  | .ok (some row) => exact hchecked row.passwordHash (some (rowToUser row))

theorem updatePreferences_program (id : UserId) (locale timezone : Option String) :
    (updatePreferences id locale timezone).run =
      .op (.sql (.updatePreferences id.uuid (preference locale).1 (preference locale).2
        (preference timezone).1 (preference timezone).2)) fun r =>
        .ret ((r.map fun _ => ()).mapError .database) := by
  apply execute_program
  · exact fun _ => rfl
  · exact fun _ => rfl

end UserRepository

/-! ### Calls that run alone -/

/-- A repository call, run alone. -/
def runCall {α : Type} (services : Services) (call : Call α) (cs : Nat → Choice) (w : World) :
    Except StorageError α × World :=
  call.run.run (act services) cs w

section Alone
variable {services : Services} {cs : Nat → Choice} {w : World} {α : Type}

theorem exec_ok {pg : Postgres} {now : OffsetDateTime} {db : Database} {stmt : Statement}
    {rows : stmt.Rows} (h : (db.exec pg now stmt).1 = .ok rows) :
    db.exec pg now stmt = db.perform pg now stmt := by
  unfold Database.exec at h ⊢
  split at h
  · rename_i htexts
    rw [if_pos htexts]
  · cases h

/-- A call of one statement that succeeds has run the statement. -/
theorem run_sql_ok {p : Action (Except StorageError α)} {stmt : Statement}
    {read : Except SqlxError stmt.Rows → Except StorageError α}
    (hp : p = .op (.sql stmt) fun r => .ret (read r)) (hread : ∀ e a, read (.error e) ≠ .ok a)
    {a : α} (h : (p.run (act services) cs w).1 = .ok a) :
    ∃ rows, (w.db.perform services.pg (cs 0).now stmt).1 = .ok rows ∧ read (.ok rows) = .ok a ∧
      (p.run (act services) cs w).2.db = (w.db.perform services.pg (cs 0).now stmt).2 := by
  rw [hp, Prog.run_op, act_sql] at h ⊢
  cases hfault : (cs 0).fault with
  | some message =>
      rw [hfault] at h
      exact absurd h (hread _ a)
  | none =>
      simp only [hfault, Prog.run_ret] at h ⊢
      cases hexec : (w.db.exec services.pg (cs 0).now stmt).1 with
      | error e =>
          rw [hexec] at h
          exact absurd h (hread e a)
      | ok rows =>
          rw [hexec] at h
          have hperform := exec_ok hexec
          rw [hperform] at hexec ⊢
          exact ⟨rows, hexec, h, rfl⟩

/-- A call of one statement that fails has changed nothing. -/
theorem run_sql_error {p : Action (Except StorageError α)} {stmt : Statement}
    {read : Except SqlxError stmt.Rows → Except StorageError α}
    (hp : p = .op (.sql stmt) fun r => .ret (read r))
    (hread : ∀ rows e, read (.ok rows) = .error e → stmt.commits rows = false) {e : StorageError}
    (h : (p.run (act services) cs w).1 = .error e) :
    (p.run (act services) cs w).2.db = w.db := by
  rw [hp, Prog.run_op, act_sql] at h ⊢
  cases hfault : (cs 0).fault with
  | some message => rfl
  | none =>
      simp only [hfault, Prog.run_ret] at h ⊢
      refine Database.exec_unchanged fun rows hrows => ?_
      rw [hrows] at h
      exact hread rows e h

end Alone

end TodoRust.Storage
