import TodoRust.Storage.Database

/-!
# One user's part of the database

The rows of one user, and what a statement confined to one user sees of them. A
statement about `u` runs on `u`'s part as it does on the whole database; a
statement about another user leaves `u`'s part alone.
-/

namespace TodoRust.Storage
open Lib Domain

namespace Database

/-- The rows that belong to one user. -/
def part (u : Uuid) (db : Database) : Database where
  users := db.users.filter (·.id == u)
  todos := db.todos.filter (·.ownerId == u)

variable {pg : Postgres} {now : OffsetDateTime} {db : Database} {u : Uuid}

theorem isAt_owner {id : Uuid} {row : TodoRow} (h : row.isAt id u = true) :
    (row.ownerId == u) = true := by
  simp only [TodoRow.isAt, Bool.and_eq_true] at h
  exact h.2

theorem isAt_other {id v : Uuid} (hv : v ≠ u) {row : TodoRow} (h : (row.ownerId == u) = true) :
    row.isAt id v = false := by
  simp only [beq_iff_eq] at h
  simp [TodoRow.isAt, h, hv.symm]

theorem any_part {users : List UserRow} :
    (users.filter (·.id == u)).any (·.id == u) = users.any (·.id == u) := by
  simp [List.any_filter]

theorem selectTodos_part : (db.part u).selectTodos u = db.selectTodos u := by
  simp [selectTodos, part, List.filter_filter]

theorem selectTodo_part {id : Uuid} : (db.part u).selectTodo id u = db.selectTodo id u :=
  Table.find?_part fun _ h => isAt_owner h

theorem selectUser_part : (db.part u).selectUser u = db.selectUser u :=
  Table.find?_part fun _ h => h

theorem insertTodo_part {id : Uuid} {title : String} (hid : ∀ row ∈ db.todos, row.id ≠ id) :
    (db.part u).insertTodo now id u title =
      ((db.insertTodo now id u title).1, (db.insertTodo now id u title).2.part u) := by
  have hany : db.todos.any (·.id == id) = false := by simpa using hid
  have hpart : (db.part u).todos.any (·.id == id) = false := by
    simp only [List.any_eq_false, beq_iff_eq]
    exact fun row hrow => hid row (List.mem_of_mem_filter hrow)
  have husers : (db.part u).users.any (·.id == u) = db.users.any (·.id == u) := any_part
  unfold insertTodo
  simp only [hany, hpart, husers, Bool.false_eq_true, if_false]
  split
  · rfl
  · split
    · rfl
    · simp [part, List.filter_append]

theorem modifyTodo_part {id : Uuid} {set : TodoRow → TodoRow}
    (hset : ∀ row, (set row).ownerId = row.ownerId) :
    (db.part u).modifyTodo now id u set =
      ((db.modifyTodo now id u set).1, (db.modifyTodo now id u set).2.part u) := by
  unfold modifyTodo
  rw [selectTodo_part]
  cases db.selectTodo id u with
  | none => rfl
  | some row =>
      dsimp only
      split
      · rfl
      · have hupdate : Table.update (TodoRow.isAt id u) (touched now set) (db.part u).todos =
            (Table.update (TodoRow.isAt id u) (touched now set) db.todos).filter (·.ownerId == u) :=
          (Table.filter_update fun row _ => by simp [touched, hset]).symm
        rw [hupdate]
        rfl

theorem deleteTodo_part {id : Uuid} :
    (db.part u).deleteTodo id u = ((db.deleteTodo id u).1, (db.deleteTodo id u).2.part u) := by
  have hcount : (db.part u).todos.countP (TodoRow.isAt id u) =
      db.todos.countP (TodoRow.isAt id u) := Table.countP_part fun _ h => isAt_owner h
  have hdelete : Table.delete (TodoRow.isAt id u) (db.part u).todos =
      (Table.delete (TodoRow.isAt id u) db.todos).filter (·.ownerId == u) :=
    Table.filter_delete.symm
  unfold deleteTodo
  rw [hcount, hdelete]
  rfl

theorem updatePreferences_part {setLocale setTimezone : Bool} {locale timezone : Option String} :
    (db.part u).updatePreferences now u setLocale locale setTimezone timezone =
      ((db.updatePreferences now u setLocale locale setTimezone timezone).1,
        (db.updatePreferences now u setLocale locale setTimezone timezone).2.part u) := by
  have hcount : (db.part u).users.countP (·.id == u) = db.users.countP (·.id == u) :=
    Table.countP_part fun _ h => h
  have hupdate : Table.update (·.id == u)
      (setPreferences now setLocale locale setTimezone timezone) (db.part u).users =
      (Table.update (·.id == u) (setPreferences now setLocale locale setTimezone timezone)
        db.users).filter (·.id == u) := by
    symm
    apply Table.filter_update
    exact fun _ _ => rfl
  unfold updatePreferences
  rw [hcount, hupdate]
  rfl

theorem modifyTodo_other {id v : Uuid} (hv : v ≠ u) {set : TodoRow → TodoRow}
    (hset : ∀ row, (set row).ownerId = row.ownerId) :
    (db.modifyTodo now id v set).2.part u = db.part u := by
  unfold modifyTodo
  split
  · rfl
  · split
    · rfl
    · have hother : (Table.update (TodoRow.isAt id v) (touched now set) db.todos).filter
          (·.ownerId == u) = db.todos.filter (·.ownerId == u) :=
        Table.filter_update_other (fun row hrow => isAt_other hv hrow)
          fun row _ => by simp [touched, hset]
      simp only [part, hother]

/-- A statement about `u` needs `u`'s part only. -/
theorem exec_part {stmt : Statement} (hstmt : stmt.subject = some u)
    (hfresh : FreshInsert stmt db) :
    (db.part u).exec pg now stmt =
      ((db.exec pg now stmt).1, (db.exec pg now stmt).2.part u) := by
  unfold exec
  split
  · cases stmt with
    | selectTodos ownerId =>
        obtain rfl := Option.some.inj hstmt
        simp only [perform, selectTodos_part]
    | insertTodo id ownerId title =>
        obtain rfl := Option.some.inj hstmt
        exact insertTodo_part hfresh
    | selectTodo id ownerId =>
        obtain rfl := Option.some.inj hstmt
        simp only [perform, selectTodo_part]
    | updateTodo id ownerId title completed =>
        obtain rfl := Option.some.inj hstmt
        exact modifyTodo_part fun _ => rfl
    | toggleTodo id ownerId =>
        obtain rfl := Option.some.inj hstmt
        exact modifyTodo_part fun _ => rfl
    | deleteTodo id ownerId =>
        obtain rfl := Option.some.inj hstmt
        exact deleteTodo_part
    | selectUser id =>
        obtain rfl := Option.some.inj hstmt
        simp only [perform, selectUser_part]
    | updatePreferences id setLocale locale setTimezone timezone =>
        obtain rfl := Option.some.inj hstmt
        exact updatePreferences_part
    | insertUser | selectUserByEmail => cases hstmt
  · rfl

/-- A statement about another user leaves `u`'s part alone. -/
theorem exec_other {stmt : Statement} {v : Uuid} (hstmt : stmt.subject = some v) (hv : v ≠ u) :
    (db.exec pg now stmt).2.part u = db.part u := by
  unfold exec
  split
  · cases stmt with
    | selectTodos | selectTodo | selectUser => rfl
    | insertTodo id ownerId title =>
        obtain rfl := Option.some.inj hstmt
        simp only [perform, insertTodo]
        split
        · rfl
        · split
          · rfl
          · split
            · rfl
            · simp [part, List.filter_append, hv]
    | updateTodo id ownerId title completed =>
        obtain rfl := Option.some.inj hstmt
        exact modifyTodo_other hv fun _ => rfl
    | toggleTodo id ownerId =>
        obtain rfl := Option.some.inj hstmt
        exact modifyTodo_other hv fun _ => rfl
    | deleteTodo id ownerId =>
        obtain rfl := Option.some.inj hstmt
        simp only [perform, deleteTodo, part,
          Table.filter_delete_other fun row hrow => isAt_other hv hrow]
    | updatePreferences id setLocale locale setTimezone timezone =>
        obtain rfl := Option.some.inj hstmt
        have hother : (Table.update (·.id == id)
            (setPreferences now setLocale locale setTimezone timezone) db.users).filter
            (·.id == u) = db.users.filter (·.id == u) := by
          apply Table.filter_update_other
          · intro row hrow
            simp only [beq_iff_eq] at hrow
            simp [hrow, hv.symm]
          · exact fun _ _ => rfl
        simp only [perform, updatePreferences, part, hother]
    | insertUser | selectUserByEmail => cases hstmt
  · rfl

theorem exec_todos {stmt : Statement} (h : stmt.writesTodos = false) :
    (db.exec pg now stmt).2.todos = db.todos := by
  unfold exec
  split
  · cases stmt with
    | selectTodos | selectTodo | selectUser | selectUserByEmail | updatePreferences => rfl
    | insertUser id email passwordHash =>
        simp only [perform, insertUser]
        split
        · rfl
        · split
          · rfl
          · rfl
    | insertTodo | updateTodo | toggleTodo | deleteTodo => cases h
  · rfl

end Database

end TodoRust.Storage
