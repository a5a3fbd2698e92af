import TodoRust.Lib.Run
import TodoRust.Lib.Sorted
import TodoRust.Storage.Repo

/-!
# The rendered list

The list is sorted by two keys, of which a toggle changes the first. Rows are
created at different times, so the sorted list has no ties, and what a statement
does to the rows can be read off the list itself.
-/

namespace TodoRust.Todos
open Lib Domain Storage

/-! ### Reachable tables -/

/-- A statement at its time; the clock only goes forward. -/
def statementStep (pg : Postgres) (s : Database × OffsetDateTime)
    (e : Statement × OffsetDateTime) : Option (Database × OffsetDateTime) :=
  if s.2 < e.2 then some ((s.1.exec pg e.2 e.1).2, e.2) else none

/-- The columns no statement changes. -/
def rowKey (row : TodoRow) : Uuid × OffsetDateTime := (row.id, row.createdAt)

/-- No two todos have one id or one creation time, and none is of the future. -/
structure Dated (db : Database) (last : OffsetDateTime) : Prop where
  ids : (db.todos.map (·.id)).Nodup
  created : (db.todos.map (·.createdAt)).Nodup
  past : ∀ row ∈ db.todos, row.createdAt ≤ last

section Step
variable {pg : Postgres} {db db' : Database} {last now : OffsetDateTime}

theorem Dated.mono (h : Dated db last) (hlast : last ≤ now) : Dated db now :=
  ⟨h.ids, h.created, fun row hrow => (h.past row hrow).trans hlast⟩

/-- Tables with no new keys stay dated. -/
theorem Dated.of_sublist (h : Dated db last) (hnow : last < now)
    (hkeys : (db'.todos.map rowKey).Sublist (db.todos.map rowKey)) : Dated db' now := by
  have hid := hkeys.map Prod.fst
  have hcreated := hkeys.map Prod.snd
  simp only [List.map_map] at hid hcreated
  refine ⟨h.ids.sublist hid, h.created.sublist hcreated, fun row hrow => ?_⟩
  obtain ⟨row', hrow', hkey⟩ := List.mem_map.mp (hkeys.subset (List.mem_map_of_mem hrow))
  calc row.createdAt = row'.createdAt := (congrArg Prod.snd hkey).symm
    _ ≤ last := h.past row' hrow'
    _ ≤ now := hnow.le

theorem Dated.of_keys (h : Dated db last) (hnow : last < now)
    (hkeys : db'.todos.map rowKey = db.todos.map rowKey) : Dated db' now :=
  h.of_sublist hnow (hkeys ▸ List.Sublist.refl _)

theorem modifyTodo_keys {id ownerId : Uuid} {set : TodoRow → TodoRow}
    (hset : ∀ row, rowKey (set row) = rowKey row) :
    (db.modifyTodo now id ownerId set).2.todos.map rowKey = db.todos.map rowKey := by
  unfold Database.modifyTodo
  split
  · rfl
  · split
    · rfl
    · exact Table.map_update fun row => hset row

theorem Dated.insertTodo (h : Dated db last) (hnow : last < now) (id ownerId : Uuid)
    (title : String) : Dated (db.insertTodo now id ownerId title).2 now := by
  have hkept : Dated db now := h.of_sublist hnow (List.Sublist.refl _)
  unfold Database.insertTodo
  dsimp only
  split
  · exact hkept
  · split
    · exact hkept
    · rename_i hid
      split
      · exact hkept
      · have hnew : ∀ row ∈ db.todos, row.id ≠ id := by simpa using hid
        have hlate : ∀ row ∈ db.todos, row.createdAt ≠ now := fun row hrow =>
          ((h.past row hrow).trans_lt hnow).ne
        refine ⟨?_, ?_, ?_⟩
        · rw [List.map_append, List.map_singleton, ← List.concat_eq_append]
          exact h.ids.concat (by simpa using hnew)
        · rw [List.map_append, List.map_singleton, ← List.concat_eq_append]
          exact h.created.concat (by simpa using hlate)
        · intro row hrow
          rcases List.mem_append.mp hrow with hrow | hrow
          · exact hkept.past row hrow
          · rw [List.mem_singleton.mp hrow]

theorem Dated.exec (h : Dated db last) (hnow : last < now) (stmt : Statement) :
    Dated (db.exec pg now stmt).2 now := by
  have hkept : Dated db now := h.of_sublist hnow (List.Sublist.refl _)
  unfold Database.exec
  split
  · cases stmt with
    | insertTodo id ownerId title => exact h.insertTodo hnow id ownerId title
    | updateTodo id ownerId title completed =>
        exact h.of_keys hnow (modifyTodo_keys fun _ => rfl)
    | toggleTodo id ownerId =>
        exact h.of_keys hnow (modifyTodo_keys fun _ => rfl)
    | deleteTodo id ownerId => exact h.of_sublist hnow (List.filter_sublist.map rowKey)
    | insertUser id email passwordHash =>
        refine h.of_keys hnow ?_
        simp only [Database.perform, Database.insertUser]
        split
        · rfl
        · split
          · rfl
          · rfl
    | updatePreferences => exact h.of_keys hnow rfl
    | selectTodos | selectTodo | selectUser | selectUserByEmail => exact hkept
  · exact hkept

/-- The tables reached from a table without todos are dated. -/
theorem Dated.of_run {users : List UserRow} {start : OffsetDateTime}
    {h : List ((Database × OffsetDateTime) × (Statement × OffsetDateTime))}
    (run : Run (statementStep pg) (⟨users, []⟩, start) h (db, last)) : Dated db last := by
  refine @Run.invariant_under _ _ (statementStep pg) (⟨users, []⟩, start)
    (fun s => Dated s.1 s.2) (fun _ => True) ?_ ?_ h (db, last) run fun _ _ => trivial
  · exact ⟨List.nodup_nil, List.nodup_nil, fun row hrow => by cases hrow⟩
  · intro s e s' hs _ hstep
    unfold statementStep at hstep
    split at hstep
    · rename_i hnow
      obtain rfl := Option.some.inj hstep
      exact hs.exec hnow e.1
    · cases hstep

end Step

/-! ### The sorted rows -/

instance : Std.Total listedBefore where
  total a b := by
    simp only [listedBefore]
    cases a.completed <;> cases b.completed <;> simp [le_total]

instance : IsTrans TodoRow listedBefore where
  trans a b c := by
    simp only [listedBefore]
    cases a.completed <;> cases b.completed <;> cases c.completed <;> simp
    all_goals exact fun hab hbc => hbc.trans hab

section Rows
variable {db : Database} {last now : OffsetDateTime} {id u : Uuid}

/-- The rows of a user. -/
def ownRows (db : Database) (u : Uuid) : List TodoRow := db.todos.filter (·.ownerId == u)

theorem mem_ownRows {row : TodoRow} :
    row ∈ ownRows db u ↔ row ∈ db.todos ∧ row.ownerId = u := by
  simp [ownRows]

theorem mem_selectTodos {row : TodoRow} : row ∈ db.selectTodos u ↔ row ∈ ownRows db u :=
  List.mem_insertionSort _

theorem Dated.noTies (h : Dated db last) (u : Uuid) : NoTies listedBefore (ownRows db u) := by
  intro a ha b hb hab hba
  have hcreated : a.createdAt = b.createdAt := by
    simp only [listedBefore] at hab hba
    cases hac : a.completed <;> cases hbc : b.completed <;> simp [hac, hbc] at hab hba
    all_goals exact le_antisymm hba hab
  exact List.inj_on_of_nodup_map h.created (mem_ownRows.mp ha).1 (mem_ownRows.mp hb).1 hcreated

/-- An insert that succeeds adds one open row of the time it is. -/
theorem insertTodo_ok {title : String} {row : TodoRow}
    (hok : (db.insertTodo now id u title).1 = .ok row) :
    row = ⟨id, u, title, false, now, now⟩ ∧
      (db.insertTodo now id u title).2 = { db with todos := db.todos ++ [row] } := by
  unfold Database.insertTodo at hok ⊢
  dsimp only at hok ⊢
  split at hok
  · cases hok
  · split at hok
    · cases hok
    · split at hok
      · cases hok
      · rename_i htitle hid howner
        obtain rfl := Except.ok.inj hok
        rw [if_neg htitle, if_neg hid, if_neg howner]
        exact ⟨rfl, rfl⟩

/-- A new row is open and newer than all others. -/
theorem selectTodos_insertTodo (h : Dated db last) (hnow : last < now) {title : String}
    {row : TodoRow} (hok : (db.insertTodo now id u title).1 = .ok row) :
    (db.insertTodo now id u title).2.selectTodos u = row :: db.selectTodos u := by
  have hafter := (h.insertTodo hnow id u title).noTies u
  obtain ⟨rfl, hdb⟩ := insertTodo_ok hok
  have hrows : ownRows (db.insertTodo now id u title).2 u =
      ownRows db u ++ [⟨id, u, title, false, now, now⟩] := by
    rw [hdb]
    simp [ownRows, List.filter_append]
  rw [hrows] at hafter
  unfold Database.selectTodos
  refine (congrArg _ hrows).trans (hafter.insertionSort_append ?_)
  intro b hb
  have hpast := (h.past b (mem_ownRows.mp hb).1).trans hnow.le
  simp only [listedBefore]
  cases b.completed <;> simp [hpast]

theorem selectTodos_deleteTodo (h : Dated db last) (id u : Uuid) :
    (db.deleteTodo id u).2.selectTodos u = (db.selectTodos u).filter (·.id != id) := by
  have hrows : ownRows (db.deleteTodo id u).2 u = (ownRows db u).filter (·.id != id) := by
    unfold ownRows Database.deleteTodo
    rw [Table.filter_delete, Table.delete]
    refine List.filter_congr fun row hrow => ?_
    simp [TodoRow.isAt, (mem_ownRows.mp hrow).2, bne]
  unfold Database.selectTodos
  exact (congrArg _ hrows).trans ((h.noTies u).insertionSort_filter _)

/-- The row of an id, put in the place of the row it was. -/
def replaced (new row : TodoRow) : TodoRow := if row.id = new.id then new else row

/-- What an update of one row does to the rows of its owner. -/
theorem ownRows_modifyTodo (h : Dated db last) {set : TodoRow → TodoRow} {row : TodoRow}
    (hset : ∀ row, (set row).id = row.id ∧ (set row).ownerId = row.ownerId)
    (hok : (db.modifyTodo now id u set).1 = .ok (some row)) :
    ∃ old ∈ ownRows db u, old.id = id ∧ row = Database.touched now set old ∧
      ownRows (db.modifyTodo now id u set).2 u = (ownRows db u).map (replaced row) := by
  unfold Database.modifyTodo at hok ⊢
  cases hfound : db.selectTodo id u with
  | none =>
      rw [hfound] at hok
      cases hok
  | some old =>
      simp only [hfound] at hok ⊢
      split at hok
      · cases hok
      · rename_i htitle
        obtain rfl := Option.some.inj (Except.ok.inj hok)
        have hat := List.find?_some hfound
        simp only [TodoRow.isAt, Bool.and_eq_true, beq_iff_eq] at hat
        have hold : old ∈ db.todos := List.mem_of_find?_eq_some hfound
        refine ⟨old, mem_ownRows.mpr ⟨hold, hat.2⟩, hat.1, rfl, ?_⟩
        rw [if_neg htitle]
        unfold ownRows
        rw [Table.filter_update fun row _ => by simp [Database.touched, hset], Table.update]
        refine List.map_congr_left fun row hrow => ?_
        obtain ⟨hmem, howner⟩ := mem_ownRows.mp hrow
        have hnew : (Database.touched now set old).id = id := (hset old).1.trans hat.1
        rw [replaced, hnew]
        by_cases hid : row.id = id
        · obtain rfl : row = old :=
            List.inj_on_of_nodup_map h.ids hmem hold (hid.trans hat.1.symm)
          rw [if_pos hid, if_pos (by simp [TodoRow.isAt, hid, howner])]
        · rw [if_neg hid, if_neg (by simp [TodoRow.isAt, hid])]

/-- The rows of an updated list are those of the list, with the new row for the old. -/
theorem selectTodos_perm {after : Database} {new : TodoRow}
    (hrows : ownRows after u = (ownRows db u).map (replaced new)) :
    (after.selectTodos u).Perm ((db.selectTodos u).map (replaced new)) := by
  have hbefore := (List.perm_insertionSort listedBefore (ownRows db u)).map (replaced new)
  have hafter := List.perm_insertionSort listedBefore (ownRows after u)
  rw [hrows] at hafter
  refine List.Perm.trans ?_ hbefore.symm
  unfold Database.selectTodos
  rw [show after.todos.filter (·.ownerId == u) = _ from hrows]
  exact hafter

/-- The other rows keep their order. -/
theorem selectTodos_others {after : Database} {new : TodoRow} (h : Dated db last)
    (hafter : Dated after now) (hrows : ownRows after u = (ownRows db u).map (replaced new)) :
    (after.selectTodos u).filter (·.id != new.id) =
      (db.selectTodos u).filter (·.id != new.id) := by
  have hothers : (ownRows after u).filter (·.id != new.id) =
      (ownRows db u).filter (·.id != new.id) := by
    rw [hrows, List.filter_map]
    have hkept : ∀ row ∈ (ownRows db u).filter ((·.id != new.id) ∘ replaced new),
        replaced new row = row := by
      intro row hrow
      have hne := (List.mem_filter.mp hrow).2
      unfold replaced at hne ⊢
      simp only [Function.comp_apply] at hne
      split at hne
      · simp at hne
      · rename_i hid
        rw [if_neg hid]
    rw [List.map_congr_left hkept, List.map_id']
    refine List.filter_congr fun row _ => ?_
    simp only [Function.comp_apply, replaced]
    split
    · rename_i hid
      rw [hid]
    · rfl
  have hsort := (hafter.noTies u).insertionSort_filter (·.id != new.id)
  have hsort' := (h.noTies u).insertionSort_filter (·.id != new.id)
  rw [hothers, hsort'] at hsort
  exact hsort.symm

/-- A row that is back as it was, but for the time of its last update. -/
def retouched (now : OffsetDateTime) (id : Uuid) (row : TodoRow) : TodoRow :=
  if row.id = id then { row with updatedAt := now } else row

theorem toggleTodo_keys (row : TodoRow) : (Database.toggleTodo row).id = row.id ∧
    (Database.toggleTodo row).ownerId = row.ownerId := ⟨rfl, rfl⟩

/-- Two toggles of one row leave the rows as they were, up to the update time. -/
theorem ownRows_toggleTodo_twice {db₁ db₂ : Database} {now₁ now₂ : OffsetDateTime}
    {row₁ row₂ : TodoRow} (h : Dated db last) (h₁ : Dated db₁ now)
    (hdb₁ : (db.modifyTodo now₁ id u Database.toggleTodo).2 = db₁)
    (hok₁ : (db.modifyTodo now₁ id u Database.toggleTodo).1 = .ok (some row₁))
    (hdb₂ : (db₁.modifyTodo now₂ id u Database.toggleTodo).2 = db₂)
    (hok₂ : (db₁.modifyTodo now₂ id u Database.toggleTodo).1 = .ok (some row₂)) :
    ownRows db₂ u = (ownRows db u).map (retouched now₂ id) := by
  obtain ⟨old₁, hmem₁, hid₁, rfl, hrows₁⟩ := ownRows_modifyTodo h toggleTodo_keys hok₁
  obtain ⟨old₂, hmem₂, hid₂, rfl, hrows₂⟩ := ownRows_modifyTodo h₁ toggleTodo_keys hok₂
  rw [hdb₁] at hrows₁
  -- what the second toggle finds is what the first has left
  have hold : old₂ = Database.touched now₁ Database.toggleTodo old₁ := by
    have hleft : Database.touched now₁ Database.toggleTodo old₁ ∈ ownRows db₁ u := by
      rw [hrows₁]
      exact List.mem_map.mpr ⟨old₁, hmem₁, if_pos rfl⟩
    exact List.inj_on_of_nodup_map h₁.ids (mem_ownRows.mp hmem₂).1 (mem_ownRows.mp hleft).1
      (hid₂.trans hid₁.symm)
  rw [← hdb₂, hrows₂, hrows₁, List.map_map]
  refine List.map_congr_left fun row hrow => ?_
  simp only [Function.comp_apply, replaced, retouched, hold]
  by_cases hid : row.id = id
  · obtain rfl : row = old₁ := List.inj_on_of_nodup_map h.ids (mem_ownRows.mp hrow).1
      (mem_ownRows.mp hmem₁).1 (hid.trans hid₁.symm)
    simp [Database.touched, Database.toggleTodo, hid]
  · simp [Database.touched, Database.toggleTodo, hid, hid₁]

/-- The update time is no key of the order. -/
theorem selectTodos_retouched {after : Database}
    (hrows : ownRows after u = (ownRows db u).map (retouched now id)) :
    after.selectTodos u = (db.selectTodos u).map (retouched now id) := by
  have hkeys (row : TodoRow) : (retouched now id row).completed = row.completed ∧
      (retouched now id row).createdAt = row.createdAt := by
    unfold retouched
    split
    · exact ⟨rfl, rfl⟩
    · exact ⟨rfl, rfl⟩
  have hsame (a b : TodoRow) :
      listedBefore a b ↔ listedBefore (retouched now id a) (retouched now id b) := by
    simp only [listedBefore, hkeys]
  have hsort := List.map_insertionSort listedBefore listedBefore (retouched now id) (ownRows db u)
    fun a _ b _ => hsame a b
  rw [← hrows] at hsort
  exact hsort.symm

end Rows

end TodoRust.Todos
