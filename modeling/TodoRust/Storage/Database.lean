import Mathlib.Data.List.Sort
import TodoRust.Domain.Types
import TodoRust.Lib.Table

/-!
# The database

The two tables of the migrations with their constraints and triggers, and the
statements the repositories send. Each statement is one atomic step: it either
fails and leaves the tables alone, or takes effect as a whole.
-/

namespace TodoRust.Storage
open Lib Domain

structure UserRow where
  id : Uuid
  email : String
  passwordHash : String
  createdAt : OffsetDateTime
  updatedAt : OffsetDateTime
  locale : Option String
  timezone : Option String
  deriving DecidableEq

structure TodoRow where
  id : Uuid
  ownerId : Uuid
  title : String
  completed : Bool
  createdAt : OffsetDateTime
  updatedAt : OffsetDateTime
  deriving DecidableEq

/-- The tables, rows in insertion order. -/
structure Database where
  users : List UserRow
  todos : List TodoRow
  deriving DecidableEq

/-- What the server decides by rules of its own: `LOWER`, and which strings the
type `TEXT` can hold. -/
structure Postgres where
  lower : String → String
  storesText : String → Bool

/-- `TEXT` holds every string without a NUL character. -/
def noNul (s : String) : Bool := s.toList.all (· != Char.ofNat 0)

/-- `sqlx::error::ErrorKind` -/
inductive ErrorKind
  | uniqueViolation | foreignKeyViolation | checkViolation | other
  deriving DecidableEq

/-- `sqlx::Error`: an error the server reports, or any other. -/
inductive SqlxError
  | database (kind : ErrorKind) (message : String)
  | other (message : String)
  deriving DecidableEq

namespace SqlxError

/-- `DatabaseError::is_unique_violation` -/
def isUniqueViolation : SqlxError → Bool
  | .database .uniqueViolation _ => true
  | _ => false

/-- `Display` -/
def toString : SqlxError → String
  | .database _ message => "error returned from database: " ++ message
  | .other message => message

def invalidText : SqlxError :=
  .database .other "invalid byte sequence for encoding \"UTF8\": 0x00"

def titleCheck : SqlxError :=
  .database .checkViolation
    "new row for relation \"todos\" violates check constraint \"todos_title_check\""

def duplicateKey (index : String) : SqlxError :=
  .database .uniqueViolation
    ("duplicate key value violates unique constraint \"" ++ index ++ "\"")

def missingOwner : SqlxError :=
  .database .foreignKeyViolation
    "insert or update on table \"todos\" violates foreign key constraint \"todos_owner_id_fkey\""

end SqlxError

/-- The statements, by their bound parameters. -/
inductive Statement
  | selectTodos (ownerId : Uuid)
  | insertTodo (id ownerId : Uuid) (title : String)
  | selectTodo (id ownerId : Uuid)
  | updateTodo (id ownerId : Uuid) (title : Option String) (completed : Option Bool)
  | toggleTodo (id ownerId : Uuid)
  | deleteTodo (id ownerId : Uuid)
  | insertUser (id : Uuid) (email passwordHash : String)
  | selectUser (id : Uuid)
  | selectUserByEmail (email : String)
  | updatePreferences (id : Uuid) (setLocale : Bool) (locale : Option String)
      (setTimezone : Bool) (timezone : Option String)
  deriving DecidableEq

namespace Statement

/-- What the statement returns: its rows, or the number of rows affected. -/
@[reducible] def Rows : Statement → Type
  | .selectTodos _ => List TodoRow
  | .insertTodo .. => TodoRow
  | .selectTodo .. | .updateTodo .. | .toggleTodo .. => Option TodoRow
  | .deleteTodo .. | .updatePreferences .. => Nat
  | .insertUser .. => UserRow
  | .selectUser _ | .selectUserByEmail _ => Option UserRow

/-- The text parameters. -/
def texts : Statement → List String
  | .insertTodo _ _ title => [title]
  | .updateTodo _ _ title _ => title.toList
  | .insertUser _ email passwordHash => [email, passwordHash]
  | .selectUserByEmail email => [email]
  | .updatePreferences _ _ locale _ timezone => locale.toList ++ timezone.toList
  | _ => []

/-- Whether a statement that returned these rows changed the tables. -/
def commits : (stmt : Statement) → stmt.Rows → Bool
  | .insertTodo .., _ | .insertUser .., _ => true
  | .updateTodo .., row | .toggleTodo .., row => row.isSome
  | .deleteTodo .., rowsAffected | .updatePreferences .., rowsAffected => rowsAffected != 0
  | .selectTodos _, _ | .selectTodo .., _ | .selectUser _, _ | .selectUserByEmail _, _ => false

/-- The account whose rows a statement is confined to, if there is one. -/
def subject : Statement → Option Uuid
  | .selectTodos ownerId | .insertTodo _ ownerId _ | .selectTodo _ ownerId
  | .updateTodo _ ownerId _ _ | .toggleTodo _ ownerId | .deleteTodo _ ownerId => some ownerId
  | .selectUser id | .updatePreferences id .. => some id
  | .insertUser .. | .selectUserByEmail _ => none

/-- Statements that write the todos. -/
def writesTodos : Statement → Bool
  | .insertTodo .. | .updateTodo .. | .toggleTodo .. | .deleteTodo .. => true
  | _ => false

end Statement

/-- `CHECK (LENGTH(title) BETWEEN 1 AND 280)` -/
def checkTitle (title : String) : Bool :=
  1 ≤ title.toList.length && title.toList.length ≤ 280

/-- `ORDER BY completed ASC, created_at DESC` -/
def listedBefore (a b : TodoRow) : Prop :=
  (!a.completed && b.completed) || (a.completed == b.completed && b.createdAt ≤ a.createdAt)

instance : DecidableRel listedBefore := fun a b => by unfold listedBefore; infer_instance

/-- `WHERE id = $1 AND owner_id = $2` -/
def TodoRow.isAt (id ownerId : Uuid) (row : TodoRow) : Bool :=
  row.id == id && row.ownerId == ownerId

/-- The outcome of a statement: its reply and the tables after it. -/
abbrev Outcome (α : Type) := Except SqlxError α × Database

namespace Database

/-- Rows that compare equal keep their order in the table. -/
def selectTodos (db : Database) (ownerId : Uuid) : List TodoRow :=
  (db.todos.filter fun row => row.ownerId == ownerId).insertionSort listedBefore

def insertTodo (now : OffsetDateTime) (id ownerId : Uuid) (title : String) (db : Database) :
    Outcome TodoRow :=
  let row : TodoRow :=
    { id, ownerId, title, completed := false, createdAt := now, updatedAt := now }
  if !checkTitle title then (.error .titleCheck, db)
  else if db.todos.any (·.id == id) then (.error (.duplicateKey "todos_pkey"), db)
  else if !db.users.any (·.id == ownerId) then (.error .missingOwner, db)
  else (.ok row, { db with todos := db.todos ++ [row] })

def selectTodo (db : Database) (id ownerId : Uuid) : Option TodoRow :=
  db.todos.find? (TodoRow.isAt id ownerId)

/-- The trigger `todos_touch_updated`. -/
def touched (now : OffsetDateTime) (set : TodoRow → TodoRow) (row : TodoRow) : TodoRow :=
  { set row with updatedAt := now }

/-- `UPDATE todos … WHERE id = $1 AND owner_id = $2 RETURNING …` -/
def modifyTodo (now : OffsetDateTime) (id ownerId : Uuid) (set : TodoRow → TodoRow)
    (db : Database) : Outcome (Option TodoRow) :=
  match db.selectTodo id ownerId with
  | none => (.ok none, db)
  | some row =>
      if !checkTitle (touched now set row).title then (.error .titleCheck, db)
      else
        let todos := Table.update (TodoRow.isAt id ownerId) (touched now set) db.todos
        (.ok (some (touched now set row)), { db with todos })

def updateTodo (title : Option String) (completed : Option Bool) (row : TodoRow) : TodoRow :=
  { row with title := title.getD row.title, completed := completed.getD row.completed }

def toggleTodo (row : TodoRow) : TodoRow := { row with completed := !row.completed }

def deleteTodo (id ownerId : Uuid) (db : Database) : Outcome Nat :=
  (.ok (db.todos.countP (TodoRow.isAt id ownerId)),
    { db with todos := Table.delete (TodoRow.isAt id ownerId) db.todos })

def insertUser (pg : Postgres) (now : OffsetDateTime) (id : Uuid) (email passwordHash : String)
    (db : Database) : Outcome UserRow :=
  let row : UserRow :=
    { id, email, passwordHash, createdAt := now, updatedAt := now,
      locale := none, timezone := none }
  if db.users.any (·.id == id) then (.error (.duplicateKey "users_pkey"), db)
  else if db.users.any (fun row => pg.lower row.email == pg.lower email) then
    (.error (.duplicateKey "users_email_lower_idx"), db)
  else (.ok row, { db with users := db.users ++ [row] })

def selectUser (db : Database) (id : Uuid) : Option UserRow :=
  db.users.find? fun row => row.id == id

/-- `WHERE LOWER(email) = LOWER($1) LIMIT 1` -/
def selectUserByEmail (pg : Postgres) (db : Database) (email : String) : Option UserRow :=
  db.users.find? fun row => pg.lower row.email == pg.lower email

/-- The update of one row, with the trigger `users_touch_updated`. -/
def setPreferences (now : OffsetDateTime) (setLocale : Bool) (locale : Option String)
    (setTimezone : Bool) (timezone : Option String) (row : UserRow) : UserRow :=
  { row with
    locale := if setLocale then locale else row.locale
    timezone := if setTimezone then timezone else row.timezone
    updatedAt := now }

def updatePreferences (now : OffsetDateTime) (id : Uuid) (setLocale : Bool)
    (locale : Option String) (setTimezone : Bool) (timezone : Option String) (db : Database) :
    Outcome Nat :=
  let users := Table.update (·.id == id)
    (setPreferences now setLocale locale setTimezone timezone) db.users
  (.ok (db.users.countP (·.id == id)), { db with users })

/-- A statement whose text parameters the server can store. -/
def perform (pg : Postgres) (now : OffsetDateTime) (stmt : Statement) (db : Database) :
    Outcome stmt.Rows :=
  match stmt with
  | .selectTodos ownerId => (.ok (db.selectTodos ownerId), db)
  | .insertTodo id ownerId title => db.insertTodo now id ownerId title
  | .selectTodo id ownerId => (.ok (db.selectTodo id ownerId), db)
  | .updateTodo id ownerId title completed =>
      db.modifyTodo now id ownerId (updateTodo title completed)
  | .toggleTodo id ownerId => db.modifyTodo now id ownerId toggleTodo
  | .deleteTodo id ownerId => db.deleteTodo id ownerId
  | .insertUser id email passwordHash => db.insertUser pg now id email passwordHash
  | .selectUser id => (.ok (db.selectUser id), db)
  | .selectUserByEmail email => (.ok (db.selectUserByEmail pg email), db)
  | .updatePreferences id setLocale locale setTimezone timezone =>
      db.updatePreferences now id setLocale locale setTimezone timezone

/-- One statement. A text parameter the server cannot store is refused before
the statement runs. -/
def exec (pg : Postgres) (now : OffsetDateTime) (stmt : Statement) (db : Database) :
    Outcome stmt.Rows :=
  if stmt.texts.all pg.storesText then db.perform pg now stmt else (.error .invalidText, db)

theorem exec_cases (pg : Postgres) (now : OffsetDateTime) (db : Database) (stmt : Statement) :
    db.exec pg now stmt = db.perform pg now stmt ∨
      db.exec pg now stmt = (.error .invalidText, db) := by
  unfold exec
  exact ite_eq_or_eq _ _ _

/-- The row that is inserted has an id no row of its table has. -/
def FreshInsert (stmt : Statement) (db : Database) : Prop :=
  match stmt with
  | .insertTodo id .. => ∀ row ∈ db.todos, row.id ≠ id
  | .insertUser id .. => ∀ row ∈ db.users, row.id ≠ id
  | _ => True

instance (stmt : Statement) (db : Database) : Decidable (FreshInsert stmt db) := by
  unfold FreshInsert
  split <;> infer_instance

section Unchanged
variable {pg : Postgres} {now : OffsetDateTime} {db : Database}

theorem insertTodo_unchanged {id ownerId : Uuid} {title : String}
    (h : ∀ row, (db.insertTodo now id ownerId title).1 ≠ .ok row) :
    (db.insertTodo now id ownerId title).2 = db := by
  unfold insertTodo at h ⊢
  split
  · rfl
  · split
    · rfl
    · split
      · rfl
      · simp_all

theorem modifyTodo_unchanged {id ownerId : Uuid} {set : TodoRow → TodoRow}
    (h : ∀ row, (db.modifyTodo now id ownerId set).1 ≠ .ok (some row)) :
    (db.modifyTodo now id ownerId set).2 = db := by
  unfold modifyTodo at h ⊢
  split
  · rfl
  · split
    · rfl
    · simp_all

theorem deleteTodo_unchanged {id ownerId : Uuid}
    (h : (db.deleteTodo id ownerId).1 = .ok 0) : (db.deleteTodo id ownerId).2 = db := by
  have hcount : db.todos.countP (TodoRow.isAt id ownerId) = 0 := Except.ok.inj h
  rw [List.countP_eq_zero] at hcount
  rw [deleteTodo, Table.delete_of_none fun row hrow => by simpa using hcount row hrow]

theorem insertUser_unchanged {id : Uuid} {email passwordHash : String}
    (h : ∀ row, (db.insertUser pg now id email passwordHash).1 ≠ .ok row) :
    (db.insertUser pg now id email passwordHash).2 = db := by
  unfold insertUser at h ⊢
  split
  · rfl
  · split
    · rfl
    · simp_all

theorem updatePreferences_unchanged {id : Uuid} {setLocale setTimezone : Bool}
    {locale timezone : Option String}
    (h : (db.updatePreferences now id setLocale locale setTimezone timezone).1 = .ok 0) :
    (db.updatePreferences now id setLocale locale setTimezone timezone).2 = db := by
  have hcount : db.users.countP (·.id == id) = 0 := Except.ok.inj h
  rw [List.countP_eq_zero] at hcount
  rw [updatePreferences, Table.update_of_none fun row hrow => by simpa using hcount row hrow]

/-- A statement that fails, or affects no row, leaves the tables as they are. -/
theorem exec_unchanged {stmt : Statement}
    (h : ∀ rows, (db.exec pg now stmt).1 = .ok rows → stmt.commits rows = false) :
    (db.exec pg now stmt).2 = db := by
  unfold exec at h ⊢
  split at h
  · rename_i htexts
    rw [if_pos htexts]
    cases stmt with
    | selectTodos | selectTodo | selectUser | selectUserByEmail => rfl
    | insertTodo id ownerId title =>
        exact insertTodo_unchanged fun row hrow => absurd (h row hrow) (by simp [Statement.commits])
    | updateTodo id ownerId title completed =>
        exact modifyTodo_unchanged fun row hrow =>
          absurd (h (some row) hrow) (by simp [Statement.commits])
    | toggleTodo id ownerId =>
        exact modifyTodo_unchanged fun row hrow =>
          absurd (h (some row) hrow) (by simp [Statement.commits])
    | deleteTodo id ownerId =>
        exact deleteTodo_unchanged (congrArg Except.ok (by simpa [Statement.commits] using h _ rfl))
    | insertUser id email passwordHash =>
        exact insertUser_unchanged fun row hrow => absurd (h row hrow) (by simp [Statement.commits])
    | updatePreferences id setLocale locale setTimezone timezone =>
        exact updatePreferences_unchanged
          (congrArg Except.ok (by simpa [Statement.commits] using h _ rfl))
  · rename_i htexts
    rw [if_neg htexts]

end Unchanged

theorem selectUser_id {db : Database} {id : Uuid} {row : UserRow}
    (h : db.selectUser id = some row) : row.id = id := by
  have hrow := List.find?_some (p := fun row : UserRow => row.id == id) h
  exact beq_iff_eq.mp hrow

theorem exec_selectUser (pg : Postgres) (now : OffsetDateTime) (id : Uuid) (db : Database) :
    db.exec pg now (.selectUser id) = (.ok (db.selectUser id), db) := rfl

end Database

end TodoRust.Storage
