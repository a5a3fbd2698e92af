import TodoRust.Todos.Listing

/-!
# What an operation does to the rendered list

A client puts a new todo in front of its list and does not load the list again.
Each call is one statement on the rows, and the list after it is the list that a
reader of the table gets.
-/

namespace TodoRust.Todos
open Lib Domain Rust Storage

/-- `list_for_user`, as a reader of the table sees it. -/
def listed (db : Database) (u : UserId) : List Todo := (db.selectTodos u.uuid).map rowToTodo

/-- Open before completed, and newest first in each group. -/
def ListedBefore (a b : Todo) : Prop :=
  (a.completed = false ∧ b.completed = true) ∨
    (a.completed = b.completed ∧ b.createdAt < a.createdAt)

/-- Every statement comes after the last one. -/
def After (last : OffsetDateTime) (cs : Nat → Choice) : Prop := ∀ n, last < (cs n).now

/-- What the operations of one user do to the user's list. -/
structure ListEffects (services : Services) (w : World) (last : OffsetDateTime) (u : UserId) :
    Prop where
  reads : ∀ w cs, (cs 0).fault = none →
    runCall services (TodoRepository.listForUser u) cs w = (.ok (listed w.db u), w)
  rows : (listed w.db u).Perm ((w.db.todos.filter (·.ownerId == u.uuid)).map rowToTodo)
  once : ((listed w.db u).map (·.id)).Nodup
  sorted : (listed w.db u).Pairwise ListedBefore
  create : ∀ new cs todo, After last cs →
    (runCall services (TodoRepository.create u new) cs w).1 = .ok todo →
    listed (runCall services (TodoRepository.create u new) cs w).2.db u = todo :: listed w.db u
  delete : ∀ id cs, After last cs →
    (runCall services (TodoRepository.delete u id) cs w).1 = .ok () →
    listed (runCall services (TodoRepository.delete u id) cs w).2.db u =
      (listed w.db u).filter (·.id ≠ id)
  toggle : ∀ id cs todo, After last cs →
    (runCall services (TodoRepository.toggle u id) cs w).1 = .ok todo →
    (∃ old ∈ listed w.db u, old.id = id ∧
      todo = { old with completed := !old.completed, updatedAt := (cs 0).now }) ∧
    (listed (runCall services (TodoRepository.toggle u id) cs w).2.db u).Perm
      ((listed w.db u).map fun t => if t.id = id then todo else t) ∧
    (listed (runCall services (TodoRepository.toggle u id) cs w).2.db u).filter (·.id ≠ id) =
      (listed w.db u).filter (·.id ≠ id)
  toggleTwice : ∀ id cs cs' w' todo todo', After last cs → After (cs 0).now cs' →
    runCall services (TodoRepository.toggle u id) cs w = (.ok todo, w') →
    (runCall services (TodoRepository.toggle u id) cs' w').1 = .ok todo' →
    listed (runCall services (TodoRepository.toggle u id) cs' w').2.db u =
      (listed w.db u).map fun t => if t.id = id then { t with updatedAt := (cs' 0).now } else t
  createFails : ∀ new cs e, (runCall services (TodoRepository.create u new) cs w).1 = .error e →
    listed (runCall services (TodoRepository.create u new) cs w).2.db u = listed w.db u
  deleteFails : ∀ id cs e, (runCall services (TodoRepository.delete u id) cs w).1 = .error e →
    listed (runCall services (TodoRepository.delete u id) cs w).2.db u = listed w.db u
  toggleFails : ∀ id cs e, (runCall services (TodoRepository.toggle u id) cs w).1 = .error e →
    listed (runCall services (TodoRepository.toggle u id) cs w).2.db u = listed w.db u

section Effects
variable {services : Services} {w : World} {last : OffsetDateTime} {u : UserId}

theorem listForUser_run (w : World) {cs : Nat → Choice} (h : (cs 0).fault = none) :
    runCall services (TodoRepository.listForUser u) cs w = (.ok (listed w.db u), w) := by
  rw [runCall, TodoRepository.listForUser_program, Prog.run_op, act_sql, h]
  rfl

theorem rowToTodo_id {row : TodoRow} {id : TodoId} :
    (rowToTodo row).id = id ↔ row.id = id.uuid := by
  cases id with
  | mk uuid => simp [rowToTodo]

theorem listed_rows (db : Database) (u : UserId) :
    (listed db u).Perm ((db.todos.filter (·.ownerId == u.uuid)).map rowToTodo) :=
  (List.perm_insertionSort listedBefore _).map rowToTodo

theorem listed_once (h : Dated w.db last) : ((listed w.db u).map (·.id)).Nodup := by
  have hperm := (listed_rows w.db u).map (·.id)
  have hown : ((ownRows w.db u.uuid).map (·.id)).Nodup :=
    h.ids.sublist (List.filter_sublist.map _)
  have hids := hown.map (f := TodoId.mk) fun a b hab => TodoId.mk.inj hab
  rw [List.map_map] at hids
  rw [hperm.nodup_iff, List.map_map]
  exact hids

theorem listed_sorted (h : Dated w.db last) : (listed w.db u).Pairwise ListedBefore := by
  have hperm := List.perm_insertionSort listedBefore (ownRows w.db u.uuid)
  have hsorted := List.pairwise_insertionSort listedBefore (ownRows w.db u.uuid)
  have hown : ((ownRows w.db u.uuid).map (·.createdAt)).Nodup :=
    h.created.sublist (List.filter_sublist.map _)
  have hcreated := (hperm.map (·.createdAt)).nodup_iff.mpr hown
  rw [List.Nodup, List.pairwise_map] at hcreated
  rw [listed, List.pairwise_map]
  refine (hsorted.and hcreated).imp fun {a b} hab => ?_
  -- rows of one group are of different times
  obtain ⟨hbefore, hne⟩ := hab
  simp only [listedBefore, ListedBefore, rowToTodo] at hbefore ⊢
  cases hac : a.completed <;> cases hbc : b.completed <;> simp [hac, hbc] at hbefore ⊢
  all_goals exact lt_of_le_of_ne hbefore hne.symm

/-- Leaving out an id, as the rows see it. -/
theorem listed_filter (db : Database) (id : TodoId) :
    (listed db u).filter (·.id ≠ id) =
      ((db.selectTodos u.uuid).filter (·.id != id.uuid)).map rowToTodo := by
  rw [listed, List.filter_map]
  congr 1
  refine List.filter_congr fun row _ => ?_
  simp [rowToTodo_id, bne, beq_eq_decide]

/-- The reply of the insert. -/
def readCreated (r : Except SqlxError TodoRow) : Except StorageError Todo :=
  (r.map rowToTodo).mapError .database

/-- A new todo is the one insert, under the id drawn for it. -/
theorem runCall_create (w : World) (new : NewTodo) (cs : Nat → Choice) :
    runCall services (TodoRepository.create u new) cs w =
      (Prog.op (.sql (.insertTodo (cs 0).uuid u.uuid (trim new.title))) fun r =>
        .ret (readCreated r) : Action _).run (act services) (fun n => cs (n + 1)) w := by
  rw [runCall, TodoRepository.create_program]
  rfl

/-- The insert, as the rows of its owner see it. -/
theorem listed_insertTodo (h : Dated w.db last) {id : Uuid} {title : String} {cs : Nat → Choice}
    {todo : Todo} (hnow : last < (cs 0).now)
    (hok : ((Prog.op (.sql (.insertTodo id u.uuid title)) fun r =>
      .ret (readCreated r) : Action _).run (act services) cs w).1 = .ok todo) :
    listed ((Prog.op (.sql (.insertTodo id u.uuid title)) fun r =>
      .ret (readCreated r) : Action _).run (act services) cs w).2.db u = todo :: listed w.db u := by
  obtain ⟨row, hrow, htodo, hdb⟩ := run_sql_ok rfl (fun e a he => by cases he) hok
  have hinsert : (w.db.insertTodo (cs 0).now id u.uuid title).1 = .ok row := hrow
  have hrows := selectTodos_insertTodo h hnow hinsert
  rw [hdb]
  calc listed (w.db.insertTodo (cs 0).now id u.uuid title).2 u
      = (row :: w.db.selectTodos u.uuid).map rowToTodo := congrArg (List.map rowToTodo) hrows
    _ = rowToTodo row :: listed w.db u := rfl
    _ = todo :: listed w.db u := by rw [Except.ok.inj htodo]

theorem listed_create (h : Dated w.db last) {new : NewTodo} {cs : Nat → Choice} {todo : Todo}
    (hnow : last < (cs 1).now)
    (hok : (runCall services (TodoRepository.create u new) cs w).1 = .ok todo) :
    listed (runCall services (TodoRepository.create u new) cs w).2.db u =
      todo :: listed w.db u := by
  rw [runCall_create] at hok ⊢
  exact listed_insertTodo h hnow hok

theorem listed_delete (h : Dated w.db last) {id : TodoId} {cs : Nat → Choice}
    (hok : (runCall services (TodoRepository.delete u id) cs w).1 = .ok ()) :
    listed (runCall services (TodoRepository.delete u id) cs w).2.db u =
      (listed w.db u).filter (·.id ≠ id) := by
  obtain ⟨rowsAffected, _, _, hdb⟩ := run_sql_ok (TodoRepository.delete_program u id)
    (fun e a he => by cases he) hok
  have hrows := selectTodos_deleteTodo h id.uuid u.uuid
  rw [listed_filter, ← hrows, runCall, hdb]
  rfl

/-- A toggle that succeeds has found the row of its id, and updated it. -/
theorem toggle_rows {id : TodoId} {cs : Nat → Choice} {todo : Todo}
    (hok : (runCall services (TodoRepository.toggle u id) cs w).1 = .ok todo) :
    ∃ row, rowToTodo row = todo ∧
      (w.db.modifyTodo (cs 0).now id.uuid u.uuid Database.toggleTodo).1 = .ok (some row) ∧
      (runCall services (TodoRepository.toggle u id) cs w).2.db =
        (w.db.modifyTodo (cs 0).now id.uuid u.uuid Database.toggleTodo).2 := by
  obtain ⟨found, hfound, htodo, hdb⟩ := run_sql_ok (TodoRepository.toggle_program u id)
    (fun e a he => by cases he) hok
  cases found with
  | none => cases htodo
  | some row => exact ⟨row, Except.ok.inj htodo, hfound, hdb⟩

theorem listed_toggle (h : Dated w.db last) {id : TodoId} {cs : Nat → Choice} {todo : Todo}
    (hnow : last < (cs 0).now)
    (hok : (runCall services (TodoRepository.toggle u id) cs w).1 = .ok todo) :
    (∃ old ∈ listed w.db u, old.id = id ∧
      todo = { old with completed := !old.completed, updatedAt := (cs 0).now }) ∧
    (listed (runCall services (TodoRepository.toggle u id) cs w).2.db u).Perm
      ((listed w.db u).map fun t => if t.id = id then todo else t) ∧
    (listed (runCall services (TodoRepository.toggle u id) cs w).2.db u).filter (·.id ≠ id) =
      (listed w.db u).filter (·.id ≠ id) := by
  obtain ⟨row, rfl, hfound, hdb⟩ := toggle_rows hok
  obtain ⟨old, hold, hid, rfl, hrows⟩ := ownRows_modifyTodo h toggleTodo_keys hfound
  have hafter : Dated (w.db.modifyTodo (cs 0).now id.uuid u.uuid Database.toggleTodo).2
      (cs 0).now := h.of_keys hnow (modifyTodo_keys fun _ => rfl)
  have hnew : (Database.touched (cs 0).now Database.toggleTodo old).id = id.uuid := hid
  have hperm := selectTodos_perm hrows
  have hothers := selectTodos_others h hafter hrows
  rw [hnew] at hothers
  rw [hdb]
  refine ⟨⟨rowToTodo old, ?_, ?_, rfl⟩, ?_, ?_⟩
  · exact List.mem_map_of_mem (mem_selectTodos.mpr hold)
  · exact rowToTodo_id.mpr hid
  · refine (hperm.map rowToTodo).trans (List.Perm.of_eq ?_)
    rw [listed, List.map_map, List.map_map]
    refine List.map_congr_left fun row _ => ?_
    simp only [Function.comp_apply, replaced, rowToTodo_id, hnew]
    split
    · rfl
    · rfl
  · rw [listed_filter, listed_filter, hothers]

theorem listed_toggle_twice (h : Dated w.db last) {id : TodoId} {cs cs' : Nat → Choice}
    {w' : World} {todo todo' : Todo} (hnow : last < (cs 0).now)
    (hok : runCall services (TodoRepository.toggle u id) cs w = (.ok todo, w'))
    (hok' : (runCall services (TodoRepository.toggle u id) cs' w').1 = .ok todo') :
    listed (runCall services (TodoRepository.toggle u id) cs' w').2.db u =
      (listed w.db u).map fun t =>
        if t.id = id then { t with updatedAt := (cs' 0).now } else t := by
  obtain ⟨row, _, hfound, hdb⟩ := toggle_rows (congrArg Prod.fst hok)
  rw [hok] at hdb
  have hafter : Dated w'.db (cs 0).now := by
    rw [hdb]
    exact h.of_keys hnow (modifyTodo_keys fun _ => rfl)
  obtain ⟨row', _, hfound', hdb'⟩ := toggle_rows hok'
  have hrows := ownRows_toggleTodo_twice h hafter hdb.symm hfound rfl hfound'
  rw [hdb', listed, selectTodos_retouched hrows, listed, List.map_map, List.map_map]
  refine List.map_congr_left fun row _ => ?_
  simp only [Function.comp_apply, retouched, rowToTodo_id]
  split
  · rfl
  · rfl

theorem listed_create_error {new : NewTodo} {cs : Nat → Choice} {e : StorageError}
    (herr : (runCall services (TodoRepository.create u new) cs w).1 = .error e) :
    listed (runCall services (TodoRepository.create u new) cs w).2.db u = listed w.db u := by
  rw [runCall_create] at herr ⊢
  rw [run_sql_error rfl (fun row e he => by cases he) herr]

theorem listed_delete_error {id : TodoId} {cs : Nat → Choice} {e : StorageError}
    (herr : (runCall services (TodoRepository.delete u id) cs w).1 = .error e) :
    listed (runCall services (TodoRepository.delete u id) cs w).2.db u = listed w.db u := by
  have hdb := run_sql_error (TodoRepository.delete_program u id)
    (fun _ _ => readDeleted_ok_error) herr
  rw [runCall, hdb]

theorem listed_toggle_error {id : TodoId} {cs : Nat → Choice} {e : StorageError}
    (herr : (runCall services (TodoRepository.toggle u id) cs w).1 = .error e) :
    listed (runCall services (TodoRepository.toggle u id) cs w).2.db u = listed w.db u := by
  have hdb := run_sql_error (TodoRepository.toggle_program u id)
    (fun _ _ => readFound_ok_error) herr
  rw [runCall, hdb]

/-- In every reachable table, the operations of every user have these effects on the
user's list. -/
theorem list_after_operation {users : List UserRow} {start last : OffsetDateTime}
    {h : List ((Database × OffsetDateTime) × (Statement × OffsetDateTime))}
    (run : Run (statementStep services.pg) (⟨users, []⟩, start) h (w.db, last)) (u : UserId) :
    ListEffects services w last u where
  reads := fun w _ => listForUser_run w
  rows := listed_rows w.db u
  once := listed_once (.of_run run)
  sorted := listed_sorted (.of_run run)
  create := fun _ _ _ hcs => listed_create (.of_run run) (hcs 1)
  delete := fun _ _ _ => listed_delete (.of_run run)
  toggle := fun _ _ _ hcs => listed_toggle (.of_run run) (hcs 0)
  toggleTwice := fun _ _ _ _ _ _ hcs _ => listed_toggle_twice (.of_run run) (hcs 0)
  createFails := fun _ _ _ => listed_create_error
  deleteFails := fun _ _ _ => listed_delete_error
  toggleFails := fun _ _ _ => listed_toggle_error

/-- Two todos, of which the older has been completed. -/
theorem list_after_operation_two : ListEffects .plain
    { World.plain with db := { users := [annRow], todos :=
        [⟨⟨1⟩, ⟨1⟩, "milk", true, 10, 30⟩, ⟨⟨2⟩, ⟨1⟩, "bread", false, 20, 20⟩] } } 30 ⟨⟨1⟩⟩ :=
  list_after_operation (@Run.of_record _ _ (statementStep Services.plain.pg)
    (⟨[annRow], []⟩, 0) [(.insertTodo ⟨1⟩ ⟨1⟩ "milk", 10), (.insertTodo ⟨2⟩ ⟨1⟩ "bread", 20),
      (.toggleTodo ⟨1⟩ ⟨1⟩, 30)] _ _ rfl) ⟨⟨1⟩⟩

end Effects

end TodoRust.Todos
