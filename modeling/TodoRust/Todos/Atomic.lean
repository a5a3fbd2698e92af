import TodoRust.Lib.Linearizable
import TodoRust.Todos.ListEffects

/-!
# The calls on the todos are atomic

`TodoRepository` has no transactions and takes no locks, and its calls interleave in any
order, with signups and with each other. Each of them still behaves like one operation on a
ledger of todos, somewhere between its start and its end.
-/

namespace TodoRust.Todos
open Lib Domain Rust Storage

inductive TodoCall
  | listForUser (userId : UserId)
  | create (userId : UserId) (new : NewTodo)
  | get (userId : UserId) (id : TodoId)
  | update (userId : UserId) (id : TodoId) (update : TodoUpdate)
  | toggle (userId : UserId) (id : TodoId)
  | delete (userId : UserId) (id : TodoId)

inductive TodoReply
  | todos (reply : Except StorageError (List Todo))
  | todo (reply : Except StorageError Todo)
  | unit (reply : Except StorageError Unit)

namespace TodoCall

def prog : TodoCall → Action TodoReply
  | .listForUser userId => do return .todos (← (TodoRepository.listForUser userId).run)
  | .create userId new => do return .todo (← (TodoRepository.create userId new).run)
  | .get userId id => do return .todo (← (TodoRepository.get userId id).run)
  | .update userId id new => do return .todo (← (TodoRepository.update userId id new).run)
  | .toggle userId id => do return .todo (← (TodoRepository.toggle userId id).run)
  | .delete userId id => do return .unit (← (TodoRepository.delete userId id).run)

/-- The reply that reports an error. -/
def failed : TodoCall → StorageError → TodoReply
  | .listForUser _, e => .todos (.error e)
  | .create .., e | .get .., e | .update .., e | .toggle .., e => .todo (.error e)
  | .delete .., e => .unit (.error e)

/-- The todo a call is about, and for whom. -/
def target : TodoCall → Option (UserId × TodoId)
  | .listForUser _ | .create .. => none
  | .get userId id | .update userId id _ | .toggle userId id | .delete userId id =>
      some (userId, id)

end TodoCall

/-! ### The ledger -/

/-- The todos by their ids. -/
abbrev Ledger := TodoId → Option Todo

/-- The todo of this id, as far as its owner is this user. -/
def Ledger.owned (ledger : Ledger) (userId : UserId) (id : TodoId) : Option Todo :=
  (ledger id).filter (·.ownerId == userId)

/-- What a todo becomes by an update, at its time. -/
def updated (update : TodoUpdate) (now : OffsetDateTime) (todo : Todo) : Todo :=
  { todo with
    title := (update.title.map trim).getD todo.title
    completed := update.completed.getD todo.completed
    updatedAt := now }

def toggled (now : OffsetDateTime) (todo : Todo) : Todo :=
  { todo with completed := !todo.completed, updatedAt := now }

/-- What the calls mean: the ledger before, the call, its reply and the ledger after. -/
inductive Ledger.Does : Object Ledger TodoCall TodoReply
  | listed {ledger : Ledger} {userId : UserId} {todos : List Todo}
      (hall : ∀ todo, todo ∈ todos ↔ ledger todo.id = some todo ∧ todo.ownerId = userId)
      (honce : (todos.map (·.id)).Nodup)
      (hsorted : todos.Pairwise fun a b => (a.completed = false ∧ b.completed = true) ∨
        (a.completed = b.completed ∧ b.createdAt ≤ a.createdAt)) :
      Does ledger (.listForUser userId) (.todos (.ok todos)) ledger
  | created {ledger : Ledger} {userId : UserId} {new : NewTodo} {id : TodoId}
      {now : OffsetDateTime} (hfree : ledger id = none) :
      Does ledger (.create userId new) (.todo (.ok ⟨id, userId, trim new.title, false, now, now⟩))
        (Function.update ledger id (some ⟨id, userId, trim new.title, false, now, now⟩))
  | got {ledger : Ledger} {userId : UserId} {id : TodoId} {todo : Todo}
      (howned : ledger.owned userId id = some todo) :
      Does ledger (.get userId id) (.todo (.ok todo)) ledger
  | updated {ledger : Ledger} {userId : UserId} {id : TodoId} {update : TodoUpdate} {todo : Todo}
      {now : OffsetDateTime} (howned : ledger.owned userId id = some todo) :
      Does ledger (.update userId id update) (.todo (.ok (Todos.updated update now todo)))
        (Function.update ledger id (some (Todos.updated update now todo)))
  | toggled {ledger : Ledger} {userId : UserId} {id : TodoId} {todo : Todo}
      {now : OffsetDateTime} (howned : ledger.owned userId id = some todo) :
      Does ledger (.toggle userId id) (.todo (.ok (Todos.toggled now todo)))
        (Function.update ledger id (some (Todos.toggled now todo)))
  | deleted {ledger : Ledger} {userId : UserId} {id : TodoId} {todo : Todo}
      (howned : ledger.owned userId id = some todo) :
      Does ledger (.delete userId id) (.unit (.ok ())) (Function.update ledger id none)
  /-- No such todo, or that of another user. -/
  | notFound {ledger : Ledger} {call : TodoCall} {userId : UserId} {id : TodoId}
      (htarget : call.target = some (userId, id)) (howned : ledger.owned userId id = none) :
      Does ledger call (call.failed .notFound) ledger
  /-- An error of the database leaves the ledger alone. -/
  | refused {ledger : Ledger} {call : TodoCall} (e : SqlxError) :
      Does ledger call (call.failed (.database e)) ledger

/-! ### The tables as a ledger -/

/-- The ledger of the todos in the tables. -/
def ledger (db : Database) : Ledger := fun id =>
  (db.todos.find? (·.id == id.uuid)).map rowToTodo

/-- No two todos have one id. -/
def UniqueTodos (db : Database) : Prop := (db.todos.map (·.id)).Nodup

section Tables
variable {pg : Postgres} {db : Database} {now : OffsetDateTime} {userId : UserId} {id : TodoId}

theorem find_id {key : Uuid} {row : TodoRow} (h : db.todos.find? (·.id == key) = some row) :
    row.id = key :=
  beq_iff_eq.mp (List.find?_some (p := fun row : TodoRow => row.id == key) h)

/-- A todo is in the ledger under its own id. -/
theorem ledger_eq_some (h : UniqueTodos db) {todo : Todo} :
    ledger db id = some todo ↔ todo.id = id ∧ ∃ row ∈ db.todos, rowToTodo row = todo := by
  unfold ledger
  rw [Option.map_eq_some_iff]
  constructor
  · rintro ⟨row, hrow, rfl⟩
    exact ⟨rowToTodo_id.mpr (find_id hrow), row, List.mem_of_find?_eq_some hrow, rfl⟩
  · rintro ⟨rfl, row, hrow, rfl⟩
    exact ⟨row, Table.find?_key h hrow, rfl⟩

/-- The rows selected by id and owner are the owned todos. -/
theorem owned_ledger (h : UniqueTodos db) :
    (ledger db).owned userId id = (db.selectTodo id.uuid userId.uuid).map rowToTodo := by
  have hselect : db.selectTodo id.uuid userId.uuid =
      (db.todos.find? (·.id == id.uuid)).filter (·.ownerId == userId.uuid) :=
    Table.find?_key_and h id.uuid (·.ownerId == userId.uuid)
  have howner (row : TodoRow) :
      ((rowToTodo row).ownerId == userId) = (row.ownerId == userId.uuid) := by
    cases userId
    simp [rowToTodo, beq_eq_decide]
  rw [hselect, Ledger.owned, ledger, Option.filter_map]
  congr 2
  funext row
  exact howner row

theorem selectTodo_spec {row : TodoRow} (h : db.selectTodo id.uuid userId.uuid = some row) :
    row ∈ db.todos ∧ row.id = id.uuid ∧ row.ownerId = userId.uuid := by
  have hat := List.find?_some h
  simp only [TodoRow.isAt, Bool.and_eq_true, beq_iff_eq] at hat
  exact ⟨List.mem_of_find?_eq_some h, hat⟩

/-- The list of a user holds the user's part of the ledger. -/
theorem listed_does (h : UniqueTodos db) :
    (ledger db).Does (.listForUser userId) (.todos (.ok (listed db userId))) (ledger db) := by
  apply Ledger.Does.listed
  · intro todo
    rw [ledger_eq_some h, (listed_rows db userId).mem_iff, List.mem_map]
    constructor
    · rintro ⟨row, hrow, rfl⟩
      obtain ⟨hmem, howner⟩ := mem_ownRows.mp hrow
      refine ⟨⟨rfl, row, hmem, rfl⟩, ?_⟩
      simp [rowToTodo, howner]
    · rintro ⟨⟨-, row, hmem, rfl⟩, rfl⟩
      exact ⟨row, mem_ownRows.mpr ⟨hmem, rfl⟩, rfl⟩
  · have hown : ((ownRows db userId.uuid).map (·.id)).Nodup :=
      h.sublist (List.filter_sublist.map _)
    have hids := hown.map (f := TodoId.mk) fun a b hab => TodoId.mk.inj hab
    rw [List.map_map] at hids
    rw [((listed_rows db userId).map (·.id)).nodup_iff, List.map_map]
    exact hids
  · have hsorted := List.pairwise_insertionSort listedBefore (ownRows db userId.uuid)
    rw [listed, List.pairwise_map]
    refine hsorted.imp fun {a b} hab => ?_
    simp only [listedBefore, rowToTodo] at hab ⊢
    cases hac : a.completed <;> cases hbc : b.completed <;> simp [hac, hbc] at hab ⊢
    all_goals exact hab

theorem insertTodo_fresh {key u : Uuid} {title : String} {row : TodoRow}
    (hok : (db.insertTodo now key u title).1 = .ok row) : ∀ other ∈ db.todos, other.id ≠ key := by
  unfold Database.insertTodo at hok
  dsimp only at hok
  split at hok
  · cases hok
  · split at hok
    · cases hok
    · rename_i hid
      simpa using hid

/-- An insert that succeeds enters the todo under an id that was free. -/
theorem insertTodo_does {row : TodoRow} {new : NewTodo}
    (hok : (db.insertTodo now id.uuid userId.uuid (trim new.title)).1 = .ok row) :
    (ledger db).Does (.create userId new) (.todo (.ok (rowToTodo row)))
      (ledger (db.insertTodo now id.uuid userId.uuid (trim new.title)).2) := by
  have hfree : db.todos.find? (·.id == id.uuid) = none := by
    rw [List.find?_eq_none]
    intro other hother
    simpa using insertTodo_fresh hok other hother
  obtain ⟨rfl, hdb⟩ := insertTodo_ok hok
  have hledger : ledger (db.insertTodo now id.uuid userId.uuid (trim new.title)).2 =
      Function.update (ledger db) id (some ⟨id, userId, trim new.title, false, now, now⟩) := by
    funext other
    rw [hdb, ledger, List.find?_append]
    by_cases hother : other = id
    · subst hother
      rw [hfree, Function.update_self]
      simp [rowToTodo]
    · have hne : (id.uuid == other.uuid) = false := by
        apply beq_false_of_ne
        intro heq
        exact hother (congrArg TodoId.mk heq.symm)
      rw [Function.update_of_ne hother, ledger]
      simp [hne]
  rw [hledger]
  apply Ledger.Does.created
  rw [ledger, hfree]
  rfl

/-- An update of a row is one of its todo. -/
theorem ledger_modifyTodo {set : TodoRow → TodoRow} {row : TodoRow} (h : UniqueTodos db)
    (hset : ∀ row, (set row).id = row.id)
    (hok : (db.modifyTodo now id.uuid userId.uuid set).1 = .ok (some row)) :
    ∃ old, (ledger db).owned userId id = some (rowToTodo old) ∧
      row = Database.touched now set old ∧
      ledger (db.modifyTodo now id.uuid userId.uuid set).2 =
        Function.update (ledger db) id (some (rowToTodo row)) := by
  unfold Database.modifyTodo at hok ⊢
  cases hfound : db.selectTodo id.uuid userId.uuid with
  | none =>
      rw [hfound] at hok
      cases hok
  | some old =>
      simp only [hfound] at hok ⊢
      split at hok
      · cases hok
      · rename_i htitle
        obtain rfl := Option.some.inj (Except.ok.inj hok)
        obtain ⟨hmem, hid, howner⟩ := selectTodo_spec hfound
        refine ⟨old, ?_, rfl, ?_⟩
        · rw [owned_ledger h, hfound]
          rfl
        · have hkeys (a : TodoRow) : (Database.touched now set a).id = a.id := hset a
          funext other
          rw [if_neg htitle, ledger, Table.find?_update hkeys]
          by_cases hother : other = id
          · subst hother
            have hold : db.todos.find? (·.id == other.uuid) = some old := by
              rw [← hid]
              exact Table.find?_key h hmem
            rw [Function.update_self, hold]
            simp [TodoRow.isAt, hid, howner]
          · rw [Function.update_of_ne hother, ledger, Option.map_map]
            apply Option.map_congr
            intro found hlookup
            have hne : ¬ found.id = id.uuid := by
              intro heq
              exact hother (congrArg TodoId.mk ((find_id hlookup).symm.trans heq))
            simp [TodoRow.isAt, hne]

/-- A delete that affects a row takes its todo out. -/
theorem ledger_deleteTodo (h : UniqueTodos db) {row : TodoRow}
    (hfound : db.selectTodo id.uuid userId.uuid = some row) :
    ledger (db.deleteTodo id.uuid userId.uuid).2 = Function.update (ledger db) id none := by
  obtain ⟨hmem, hid, howner⟩ := selectTodo_spec hfound
  funext other
  rw [ledger, Database.deleteTodo, Table.find?_delete h]
  by_cases hother : other = id
  · subst hother
    have hold : db.todos.find? (·.id == other.uuid) = some row := by
      rw [← hid]
      exact Table.find?_key h hmem
    rw [Function.update_self, hold]
    simp [Option.filter, TodoRow.isAt, hid, howner]
  · rw [Function.update_of_ne hother, ledger]
    cases hlookup : db.todos.find? (·.id == other.uuid) with
    | none => rfl
    | some found =>
        have hne : ¬ found.id = id.uuid := by
          intro heq
          exact hother (congrArg TodoId.mk ((find_id hlookup).symm.trans heq))
        simp [Option.filter, TodoRow.isAt, hne]

/-- No statement enters an id twice. -/
theorem UniqueTodos.exec (h : UniqueTodos db) (stmt : Statement) :
    UniqueTodos (db.exec pg now stmt).2 := by
  have hkeys {db' : Database} (hrows : (db'.todos.map rowKey).Sublist (db.todos.map rowKey)) :
      UniqueTodos db' := by
    have hids := hrows.map Prod.fst
    simp only [List.map_map] at hids
    exact h.sublist hids
  unfold Database.exec
  split
  · cases stmt with
    | insertTodo key u title =>
        cases hok : (db.insertTodo now key u title).1 with
        | error e =>
            have hdb : (db.insertTodo now key u title).2 = db := by
              apply Database.insertTodo_unchanged
              simp [hok]
            change UniqueTodos (db.insertTodo now key u title).2
            rwa [hdb]
        | ok row =>
            obtain ⟨hrow, hdb⟩ := insertTodo_ok hok
            change UniqueTodos (db.insertTodo now key u title).2
            rw [hdb, UniqueTodos, List.map_append, List.map_singleton, ← List.concat_eq_append]
            apply h.concat
            intro hmem
            obtain ⟨other, hother, hid⟩ := List.mem_map.mp hmem
            exact insertTodo_fresh hok other hother (by rw [hid, hrow])
    | updateTodo | toggleTodo =>
        have hsame {db' : Database} (hrows : db'.todos.map rowKey = db.todos.map rowKey) :
            UniqueTodos db' := hkeys (hrows ▸ List.Sublist.refl _)
        exact hsame (modifyTodo_keys fun _ => rfl)
    | deleteTodo => exact hkeys (List.filter_sublist.map rowKey)
    | insertUser key email passwordHash =>
        apply hkeys
        simp only [Database.perform, Database.insertUser]
        split
        · rfl
        · split
          · rfl
          · rfl
    | updatePreferences | selectTodos | selectTodo | selectUser | selectUserByEmail => exact h
  · exact h

/-- An update has found the todo, or there was none to update. -/
theorem modifyTodo_none {set : TodoRow → TodoRow}
    (hok : (db.modifyTodo now id.uuid userId.uuid set).1 = .ok none) :
    db.selectTodo id.uuid userId.uuid = none ∧
      (db.modifyTodo now id.uuid userId.uuid set).2 = db := by
  constructor
  · unfold Database.modifyTodo at hok
    split at hok
    · assumption
    · split at hok
      · cases hok
      · cases hok
  · apply Database.modifyTodo_unchanged
    simp [hok]

theorem notFound_does (h : UniqueTodos db) {call : TodoCall}
    (htarget : call.target = some (userId, id))
    (hnone : db.selectTodo id.uuid userId.uuid = none) :
    (ledger db).Does call (call.failed .notFound) (ledger db) := by
  apply Ledger.Does.notFound htarget
  rw [owned_ledger h, hnone]
  rfl

theorem selectTodo_does (h : UniqueTodos db) :
    (ledger db).Does (.get userId id)
      (.todo (readFound (.ok (db.selectTodo id.uuid userId.uuid)))) (ledger db) := by
  cases hfound : db.selectTodo id.uuid userId.uuid with
  | none => exact notFound_does h rfl hfound
  | some row =>
      apply Ledger.Does.got
      rw [owned_ledger h, hfound]
      rfl

theorem updateTodo_does (h : UniqueTodos db) (new : TodoUpdate) {found : Option TodoRow}
    (hok : (db.modifyTodo now id.uuid userId.uuid
      (Database.updateTodo (new.title.map trim) new.completed)).1 = .ok found) :
    (ledger db).Does (.update userId id new) (.todo (readFound (.ok found)))
      (ledger (db.modifyTodo now id.uuid userId.uuid
        (Database.updateTodo (new.title.map trim) new.completed)).2) := by
  cases found with
  | none =>
      obtain ⟨hnone, hdb⟩ := modifyTodo_none hok
      rw [hdb]
      exact notFound_does h rfl hnone
  | some row =>
      have hset (row : TodoRow) :
          (Database.updateTodo (new.title.map trim) new.completed row).id = row.id := rfl
      obtain ⟨old, howned, rfl, hledger⟩ := ledger_modifyTodo h hset hok
      rw [hledger]
      exact .updated howned

theorem toggleTodo_does (h : UniqueTodos db) {found : Option TodoRow}
    (hok : (db.modifyTodo now id.uuid userId.uuid Database.toggleTodo).1 = .ok found) :
    (ledger db).Does (.toggle userId id) (.todo (readFound (.ok found)))
      (ledger (db.modifyTodo now id.uuid userId.uuid Database.toggleTodo).2) := by
  cases found with
  | none =>
      obtain ⟨hnone, hdb⟩ := modifyTodo_none hok
      rw [hdb]
      exact notFound_does h rfl hnone
  | some row =>
      have hset (row : TodoRow) : (Database.toggleTodo row).id = row.id := rfl
      obtain ⟨old, howned, rfl, hledger⟩ := ledger_modifyTodo h hset hok
      rw [hledger]
      exact .toggled howned

theorem deleteTodo_does (h : UniqueTodos db) {rowsAffected : Nat}
    (hok : (db.deleteTodo id.uuid userId.uuid).1 = .ok rowsAffected) :
    (ledger db).Does (.delete userId id) (.unit (readDeleted (.ok rowsAffected)))
      (ledger (db.deleteTodo id.uuid userId.uuid).2) := by
  obtain rfl : db.todos.countP (TodoRow.isAt id.uuid userId.uuid) = rowsAffected :=
    Except.ok.inj hok
  cases hfound : db.selectTodo id.uuid userId.uuid with
  | none =>
      have hcount : db.todos.countP (TodoRow.isAt id.uuid userId.uuid) = 0 := by
        rw [List.countP_eq_zero]
        exact List.find?_eq_none.mp hfound
      rw [Database.deleteTodo_unchanged (congrArg Except.ok hcount), hcount]
      exact notFound_does h rfl hfound
  | some row =>
      have hcount : db.todos.countP (TodoRow.isAt id.uuid userId.uuid) ≠ 0 := by
        have hpos := List.countP_pos_iff.mpr
          ⟨row, List.mem_of_find?_eq_some hfound, List.find?_some hfound⟩
        omega
      rw [ledger_deleteTodo h hfound, readDeleted, if_neg hcount]
      have howned : (ledger db).owned userId id = some (rowToTodo row) := by
        rw [owned_ledger h, hfound]
        rfl
      exact Ledger.Does.deleted howned

end Tables

/-! ### The calls, effect by effect -/

/-- The effects of a call. -/
def TodoCall.sends : TodoCall → Effect → Prop
  | .listForUser userId, e => e = .sql (.selectTodos userId.uuid)
  | .create userId new, e =>
      e = .newUuid ∨ ∃ id, e = .sql (.insertTodo id userId.uuid (trim new.title))
  | .get userId id, e => e = .sql (.selectTodo id.uuid userId.uuid)
  | .update userId id new, e =>
      e = .sql (.updateTodo id.uuid userId.uuid (new.title.map trim) new.completed)
  | .toggle userId id, e => e = .sql (.toggleTodo id.uuid userId.uuid)
  | .delete userId id, e => e = .sql (.deleteTodo id.uuid userId.uuid)

/-- The reply of the select of a list. -/
def readListed (r : Except SqlxError (List TodoRow)) : Except StorageError (List Todo) :=
  (r.map (List.map rowToTodo)).mapError .database

/-- The reply of a call, once its statement has run. -/
def TodoCall.decides : TodoCall → (e : Effect) → e.Reply → Option TodoReply
  | .listForUser _, .sql (.selectTodos _), r => some (.todos (readListed r))
  | .create .., .sql (.insertTodo ..), r => some (.todo (readCreated r))
  | .get .., .sql (.selectTodo ..), r => some (.todo (readFound r))
  | .update .., .sql (.updateTodo ..), r => some (.todo (readFound r))
  | .toggle .., .sql (.toggleTodo ..), r => some (.todo (readFound r))
  | .delete .., .sql (.deleteTodo ..), r => some (.unit (readDeleted r))
  | _, _, _ => none

theorem todoCall_obeys (call : TodoCall) :
    Prog.Obeys (phases TodoCall.sends TodoCall.decides) (fun a m => ∃ call, m = .after call a)
      (.before call) call.prog := by
  cases call with
  | listForUser userId =>
      simp only [TodoCall.prog, TodoRepository.listForUser_program, Prog.op_bind]
      exact ⟨rfl, fun r _ => ⟨_, rfl⟩⟩
  | create userId new =>
      simp only [TodoCall.prog, TodoRepository.create_program, Prog.op_bind]
      exact ⟨Or.inl rfl, fun id _ => ⟨Or.inr ⟨id, rfl⟩, fun r _ => ⟨_, rfl⟩⟩⟩
  | get userId id =>
      simp only [TodoCall.prog, TodoRepository.get_program, Prog.op_bind]
      exact ⟨rfl, fun r _ => ⟨_, rfl⟩⟩
  | update userId id new =>
      simp only [TodoCall.prog, TodoRepository.update_program, Prog.op_bind]
      exact ⟨rfl, fun r _ => ⟨_, rfl⟩⟩
  | toggle userId id =>
      simp only [TodoCall.prog, TodoRepository.toggle_program, Prog.op_bind]
      exact ⟨rfl, fun r _ => ⟨_, rfl⟩⟩
  | delete userId id =>
      simp only [TodoCall.prog, TodoRepository.delete_program, Prog.op_bind]
      exact ⟨rfl, fun r _ => ⟨_, rfl⟩⟩

section Effects
variable {services : Services} {c : Choice} {w : World}

/-- A statement that fails, or is never sent, leaves the ledger alone. -/
theorem sql_does {call : TodoCall} (stmt : Statement)
    (read : Except SqlxError stmt.Rows → TodoReply)
    (herr : ∀ e, read (.error e) = call.failed (.database e))
    (hok : ∀ rows, (w.db.perform services.pg c.now stmt).1 = .ok rows →
      (ledger w.db).Does call (read (.ok rows))
        (ledger (w.db.perform services.pg c.now stmt).2)) :
    (ledger w.db).Does call (read (act services c (.sql stmt) w).1)
      (ledger (act services c (.sql stmt) w).2.db) := by
  rw [act_sql]
  cases c.fault with
  | some message =>
      rw [herr]
      exact .refused _
  | none =>
      dsimp only
      cases hexec : (w.db.exec services.pg c.now stmt).1 with
      | error e =>
          rw [herr, Database.exec_unchanged (by simp [hexec])]
          exact .refused e
      | ok rows =>
          have hperform := exec_ok hexec
          rw [hperform] at hexec ⊢
          exact hok rows hexec

/-- What the effects of a call do to the ledger. -/
theorem todoCall_does {call : TodoCall} {e : Effect} (h : UniqueTodos w.db)
    (hsends : call.sends e) :
    Object.Acts Ledger.Does (ledger w.db) call (call.decides e (act services c e w).1)
      (ledger (act services c e w).2.db) := by
  cases call with
  | listForUser userId =>
      obtain rfl := hsends
      apply sql_does (.selectTodos userId.uuid) fun r => .todos (readListed r)
      · exact fun _ => rfl
      · intro rows hrows
        obtain rfl := Except.ok.inj hrows
        exact listed_does h
  | create userId new =>
      rcases hsends with rfl | ⟨id, rfl⟩
      · rfl
      · apply sql_does (.insertTodo id userId.uuid (trim new.title)) fun r => .todo (readCreated r)
        · exact fun _ => rfl
        · exact fun row hrow => @insertTodo_does w.db c.now userId ⟨id⟩ row new hrow
  | get userId id =>
      obtain rfl := hsends
      apply sql_does (.selectTodo id.uuid userId.uuid) fun r => .todo (readFound r)
      · exact fun _ => rfl
      · intro found hfound
        obtain rfl := Except.ok.inj hfound
        exact selectTodo_does h
  | update userId id new =>
      obtain rfl := hsends
      apply sql_does (.updateTodo id.uuid userId.uuid (new.title.map trim) new.completed)
        fun r => .todo (readFound r)
      · exact fun _ => rfl
      · exact fun found hfound => updateTodo_does h new hfound
  | toggle userId id =>
      obtain rfl := hsends
      apply sql_does (.toggleTodo id.uuid userId.uuid) fun r => .todo (readFound r)
      · exact fun _ => rfl
      · exact fun found hfound => toggleTodo_does h hfound
  | delete userId id =>
      obtain rfl := hsends
      apply sql_does (.deleteTodo id.uuid userId.uuid) fun r => .unit (readDeleted r)
      · exact fun _ => rfl
      · exact fun rowsAffected hrows => deleteTodo_does h hrows

end Effects

/-! ### Runs -/

section Runs
variable {ι X : Type}

/-- Any number of calls on the todos, beside anything that leaves the todos alone. -/
def todoCalls (services : Services) (env : X → World → World) :
    System ι TodoCall Choice X Effect Effect.Reply TodoReply World where
  prog _ call := call.prog
  act := act services
  env := env

variable [DecidableEq ι]

/-- In every interleaving of the calls, with any faults and cancellations, those that took
effect are operations on one ledger, in an order that keeps to their starts and ends. A
call whose statement fails has not run it. -/
theorem todo_calls_linearizable (services : Services) {env : X → World → World}
    (henv : ∀ x w, (env x w).db.todos = w.db.todos)
    {s₀ s : Pool ι Effect Effect.Reply TodoReply World}
    {h : List (Pool ι Effect Effect.Reply TodoReply World × Event ι TodoCall Choice X)}
    (hidle : ∀ i, s₀.task i = .idle) (hids : UniqueTodos s₀.world.db)
    (run : Run (todoCalls services env).step s₀ h s) :
    ∃ l, Linearizes Ledger.Does (fun w => ledger w.db) s₀ h s l := by
  refine linearizable Ledger.Does (fun w => ledger w.db) (fun w => UniqueTodos w.db)
    (fun _ => todoCall_obeys) ?_ ?_ hidle hids run
  · intro c e w call hunique hsends
    have hdoes := @todoCall_does services c w call e hunique hsends
    refine ⟨?_, hdoes⟩
    by_cases hsql : ∃ stmt, e = .sql stmt
    · obtain ⟨stmt, rfl⟩ := hsql
      change UniqueTodos (act services c (.sql stmt) w).2.db
      rw [act_sql]
      cases c.fault with
      | some message => exact hunique
      | none => exact hunique.exec stmt
    · change UniqueTodos (act services c e w).2.db
      rw [act_db fun stmt he => hsql ⟨stmt, he⟩]
      exact hunique
  · intro x w hunique
    change UniqueTodos (env x w).db ∧ ledger (env x w).db = ledger w.db
    unfold UniqueTodos ledger
    rw [henv x w]
    exact ⟨hunique, rfl⟩

/-- A toggle and a delete of one todo. -/
def racingCalls : List (Event Nat TodoCall Choice Empty) :=
  [.start 0 (.toggle ⟨⟨1⟩⟩ ⟨⟨1⟩⟩), .start 1 (.delete ⟨⟨1⟩⟩ ⟨⟨1⟩⟩), .step 1 (.plain 2 ⟨2⟩),
    .step 0 (.plain 3 ⟨3⟩)]

def oneTodo : Pool Nat Effect Effect.Reply TodoReply World where
  world := { World.plain with
    db := { users := [annRow], todos := [⟨⟨1⟩, ⟨1⟩, "milk", false, 1, 1⟩] } }
  task _ := .idle

/-- The toggle started first, and comes second. -/
theorem todo_calls_linearizable_race : ∃ h s l,
    Run.record (todoCalls .plain fun (x : Empty) _ => x.elim).step oneTodo racingCalls =
      some (h, s) ∧
    s.result 0 = some (.todo (.error .notFound)) ∧ s.result 1 = some (.unit (.ok ())) ∧
    Linearizes Ledger.Does (fun w => ledger w.db) oneTodo h s l := by
  have hrecord : Run.record (todoCalls .plain fun (x : Empty) _ => x.elim).step oneTodo
      racingCalls = some (_, _) := rfl
  have hids : UniqueTodos oneTodo.world.db := List.nodup_singleton _
  obtain ⟨l, hl⟩ := todo_calls_linearizable .plain (fun x _ => x.elim) (fun _ => rfl) hids
    (Run.of_record racingCalls hrecord)
  exact ⟨_, _, l, hrecord, rfl, rfl, hl⟩

end Runs

end TodoRust.Todos
