import TodoRust.App.Routes

/-!
# Which titles can be stored

A title is validated as submitted, trimmed by the repository, and checked by
the database once more. The bounds of the validator are those of the `CHECK`
constraint, but the string they are applied to is not the same.
-/

namespace TodoRust.Todos
open Lib Domain Storage App Rust

/-- What the database asks of a title. -/
def Storable (title : String) : Prop := noNul title = true ∧ checkTitle title = true

/-- A title with something in it: a character that is not whitespace, and no
NUL. -/
def HasText (title : String) : Prop :=
  (∃ c ∈ title.toList, isWhitespace c = false) ∧ ∀ c ∈ title.toList, c ≠ Char.ofNat 0

theorem noNul_iff (s : String) : noNul s = true ↔ ∀ c ∈ s.toList, c ≠ Char.ofNat 0 := by
  simp [noNul]

/-- NUL is no whitespace, so trimming keeps it. -/
theorem noNul_trim (s : String) : noNul (trim s) = noNul s := by
  rw [Bool.eq_iff_iff, noNul_iff, noNul_iff, toList_trim]
  constructor
  · intro h c hc heq
    subst heq
    exact h _ (mem_trimChars (by decide) hc) rfl
  · intro h c hc
    exact h c (mem_of_mem_trimChars hc)

/-- The `CHECK` accepts the trimmed form of a validated title unless nothing is
left of it. -/
theorem checkTitle_trim_iff {title : String} (hvalid : validateLength 1 280 title = true) :
    checkTitle (trim title) = true ↔ ∃ c ∈ title.toList, isWhitespace c = false := by
  rw [validateLength_iff] at hvalid
  have hle : (trimChars title.toList).length ≤ 280 :=
    (trimChars_isInfix title.toList).length_le.trans hvalid.2
  calc
    checkTitle (trim title) = true ↔ trimChars title.toList ≠ [] := by
      rw [← List.length_pos_iff]
      simp only [checkTitle, toList_trim, Bool.and_eq_true, decide_eq_true_eq]
      exact ⟨fun h => h.1, fun h => ⟨h, hle⟩⟩
    _ ↔ ∃ c ∈ title.toList, isWhitespace c = false := by
      rw [Ne, trimChars_eq_nil_iff]
      simp

theorem storable_trim_iff {title : String} (hvalid : validateLength 1 280 title = true) :
    Storable (trim title) ↔ HasText title := by
  rw [Storable, HasText, noNul_trim, checkTitle_trim_iff hvalid, noNul_iff]
  exact and_comm

section Statements
variable {pg : Postgres} {id ownerId : Uuid} {title : String} {db : Database}

/-- For an existing owner and a fresh id, only the title decides the insert. -/
theorem exec_insertTodo (hpg : pg.storesText = noNul) (hid : ∀ row ∈ db.todos, row.id ≠ id)
    (howner : ∃ row ∈ db.users, row.id = ownerId) (now : OffsetDateTime) :
    (∃ row, (db.exec pg now (.insertTodo id ownerId title)).1 = .ok row) ↔ Storable title := by
  have hfresh : db.todos.any (·.id == id) = false := by simpa using hid
  have hex : db.users.any (·.id == ownerId) = true := by simpa using howner
  simp only [Database.exec, Database.perform, Statement.texts, List.all_cons, List.all_nil,
    Bool.and_true, hpg, Storable]
  cases hn : noNul title with
  | false => simp
  | true =>
      cases hc : checkTitle title with
      | false => simp [Database.insertTodo, hc]
      | true => simp [Database.insertTodo, hc, hfresh, hex]

/-- For an existing row, only the new title decides the update. -/
theorem exec_updateTodo (hpg : pg.storesText = noNul) {row : TodoRow}
    (hrow : db.selectTodo id ownerId = some row) (now : OffsetDateTime)
    (completed : Option Bool) :
    (∃ row, (db.exec pg now (.updateTodo id ownerId (some title) completed)).1 = .ok (some row)) ↔
      Storable title := by
  simp only [Database.exec, Database.perform, Statement.texts, Option.toList_some, List.all_cons,
    List.all_nil, Bool.and_true, hpg, Storable]
  cases hn : noNul title with
  | false => simp
  | true =>
      cases hc : checkTitle title with
      | false => simp [Database.modifyTodo, Database.touched, Database.updateTodo, hrow, hc]
      | true => simp [Database.modifyTodo, Database.touched, Database.updateTodo, hrow, hc]

end Statements

section Calls
variable {services : Services} {state : AppState} {cs : Nat → Choice} {w : World}

theorem create_run (userId : UserId) (new : NewTodo) (hfault : ∀ n, (cs n).fault = none) :
    (TodoRepository.create userId new).run.run (act services) cs w =
      let done := w.db.exec services.pg (cs 1).now
        (.insertTodo (cs 0).uuid userId.uuid (trim new.title))
      ((done.1.map rowToTodo).mapError .database, { w with db := done.2 }) := by
  rw [TodoRepository.create_program, Prog.run_op, Prog.run_op, act_sql, hfault]
  rfl

theorem create_result (userId : UserId) (new : NewTodo) (hfault : ∀ n, (cs n).fault = none) :
    (∃ e, ((TodoRepository.create userId new).run.run (act services) cs w).1 =
      .error (.database e)) ∨
    ∃ todo, ((TodoRepository.create userId new).run.run (act services) cs w).1 = .ok todo := by
  rw [create_run userId new hfault]
  generalize w.db.exec services.pg (cs 1).now
    (.insertTodo (cs 0).uuid userId.uuid (trim new.title)) = done
  obtain ⟨reply, db⟩ := done
  cases reply with
  | error e => exact Or.inl ⟨e, rfl⟩
  | ok row => exact Or.inr ⟨rowToTodo row, rfl⟩

theorem create_response {user : User} {context : RequestContext} {new : NewTodo}
    (hvalid : new.validate = []) (hfault : ∀ n, (cs n).fault = none) :
    ∃ response, Handler.finish ((App.create state ⟨some user⟩ context new).run.run (act services)
        cs w).1 = .ok response ∧ (response.status ≠ StatusCode.internalServerError ↔
      ∃ todo, ((TodoRepository.create user.id new).run.run (act services) cs w).1 = .ok todo) := by
  obtain ⟨n, hn⟩ := Prog.run_bind (act services) (TodoRepository.create user.id new).run _ cs w
  simp only [App.create, requireUser, Handler.expect, hvalid, pure_bind, ne_eq,
    not_true_eq_false, if_false, Handler.run_call_bind]
  rw [hn]
  obtain ⟨e, he⟩ | ⟨todo, hok⟩ := create_result user.id new hfault
  · rw [he]
    refine ⟨_, rfl, ?_⟩
    simp [AppError.fromStorage, AppError.intoResponse, AppError.status]
  · rw [hok]
    simp only [ExceptT.run_bind_lift]
    obtain ⟨k, hk⟩ := Prog.run_bind (act services) (state.invalidateTodosCache user.id)
      (fun _ => (renderPage StatusCode.created [] "partials/todo.html"
        (("todo", .todo todo) :: baseContext (state.overrideFromProfile user context))).run)
      (fun k => cs (n + k))
      (Prog.run (act services) (TodoRepository.create user.id new).run cs w).2
    rw [hk, renderPage_run]
    · refine ⟨_, rfl, ?_⟩
      simp only [htmlResponse, Except.ok.injEq, exists_eq', iff_true]
      decide
    · exact hfault _

theorem create_ok_iff (hpg : services.pg.storesText = noNul) {userId : UserId} (new : NewTodo)
    (hfault : ∀ n, (cs n).fault = none) (hfresh : ∀ n, ∀ row ∈ w.db.todos, row.id ≠ (cs n).uuid)
    (howner : ∃ row ∈ w.db.users, row.id = userId.uuid) :
    (∃ todo, ((TodoRepository.create userId new).run.run (act services) cs w).1 = .ok todo) ↔
      Storable (trim new.title) := by
  rw [create_run userId new hfault, ← exec_insertTodo hpg (hfresh 0) howner (cs 1).now]
  generalize w.db.exec services.pg (cs 1).now
    (.insertTodo (cs 0).uuid userId.uuid (trim new.title)) = done
  obtain ⟨reply, db⟩ := done
  cases reply with
  | error e => simp [Except.map, Except.mapError]
  | ok row => simp [Except.map, Except.mapError]

theorem update_ok_iff (hpg : services.pg.storesText = noNul) {userId : UserId} {id : TodoId}
    {update : TodoUpdate} {title : String} (htitle : update.title = some title)
    (hfault : ∀ n, (cs n).fault = none) {row : TodoRow}
    (hrow : w.db.selectTodo id.uuid userId.uuid = some row) :
    (∃ todo, ((TodoRepository.update userId id update).run.run (act services) cs w).1 = .ok todo) ↔
      Storable (trim title) := by
  obtain ⟨newTitle, completed⟩ := update
  obtain rfl : newTitle = some title := htitle
  rw [← exec_updateTodo hpg hrow (cs 0).now completed]
  simp only [TodoRepository.update_program, Prog.run_op, Prog.run_ret, act_sql, hfault,
    Option.map_some]
  generalize w.db.exec services.pg (cs 0).now
    (.updateTodo id.uuid userId.uuid (some (trim title)) completed) = done
  obtain ⟨reply, db⟩ := done
  cases reply with
  | error e => simp [readFound]
  | ok found =>
      cases found with
      | none => simp [readFound]
      | some row => simp [readFound]

/-- A validated title is stored exactly when it has text: otherwise the statement
of an existing owner fails and `POST /todos` answers with a 500. -/
theorem title_stored_iff (hpg : services.pg.storesText = noNul)
    (hfault : ∀ n, (cs n).fault = none) (hfresh : ∀ n, ∀ row ∈ w.db.todos, row.id ≠ (cs n).uuid)
    (owner : UserRow) (howner : w.db.selectUser owner.id = some owner) (state : AppState)
    (headers : HeaderMap) (context : RequestContext) :
    (∀ new : NewTodo, new.validate = [] →
      (Storable (trim new.title) ↔ HasText new.title) ∧
      ((∃ todo, ((TodoRepository.create ⟨owner.id⟩ new).run.run (act services) cs w).1 =
        .ok todo) ↔ HasText new.title) ∧
      ∃ response, ((serve state (some ⟨owner.id, owner.passwordHash⟩)
        ⟨headers, context, .create new⟩).run (act services) cs w).1 = .ok response ∧
        (response.status ≠ StatusCode.internalServerError ↔ HasText new.title)) ∧
    ∀ (update : TodoUpdate) (title : String), update.title = some title → update.validate = [] →
      (Storable (trim title) ↔ HasText title) ∧
      ∀ (id : TodoId) (row : TodoRow), w.db.selectTodo id.uuid owner.id = some row →
        ((∃ todo, ((TodoRepository.update ⟨owner.id⟩ id update).run.run (act services) cs w).1 =
          .ok todo) ↔ HasText title) := by
  have hmem : ∃ row ∈ w.db.users, row.id = owner.id :=
    ⟨owner, List.mem_of_find?_eq_some howner, rfl⟩
  constructor
  · intro new hvalid
    have hlen : validateLength 1 280 new.title = true := fieldError_eq_nil.mp hvalid
    have hstore := storable_trim_iff hlen
    refine ⟨hstore, ?_, ?_⟩
    · rw [create_ok_iff hpg new hfault hfresh hmem, hstore]
    · rw [serve_run state howner rfl (hfault 0)]
      obtain ⟨response, hend, hstatus⟩ :=
        create_response hvalid (fun n => hfault (n + 1))
      refine ⟨response, hend, ?_⟩
      rw [hstatus, create_ok_iff hpg new (fun n => hfault (n + 1)) (fun n => hfresh (n + 1)) hmem,
        hstore]
  · intro update title htitle hvalid
    have hlen : validateLength 1 280 title = true := by
      simpa [TodoUpdate.validate, htitle] using hvalid
    have hstore := storable_trim_iff hlen
    refine ⟨hstore, fun id row hrow => ?_⟩
    rw [update_ok_iff hpg htitle hfault hrow, hstore]

end Calls

/-- Storing a title for the one account of the plain world. -/
theorem title_stored_milk :
    ∃ response, ((serve .plain (some ⟨annRow.id, annRow.passwordHash⟩)
      ⟨[], .plain, .create ⟨"milk"⟩⟩).run (act .plain) (fun _ => .plain 0 ⟨7⟩) .plain).1 =
        .ok response ∧ response.status ≠ StatusCode.internalServerError := by
  have htext : HasText "milk" := ⟨⟨'m', by decide, by decide⟩, (noNul_iff "milk").mp (by decide)⟩
  have hfresh : ∀ n : Nat, ∀ row ∈ World.plain.db.todos,
      row.id ≠ ((fun _ => Choice.plain 0 ⟨7⟩) n).uuid := by
    intro n row hrow
    cases hrow
  have hpg : Services.plain.pg.storesText = noNul := rfl
  obtain ⟨response, hend, hstatus⟩ := ((title_stored_iff hpg (fun _ => rfl) hfresh annRow rfl
    .plain [] .plain).1 ⟨"milk"⟩ (by decide)).2.2
  exact ⟨response, hend, hstatus.mpr htext⟩

/-- Three spaces pass the validator, and nothing is left of them after the trim. -/
theorem validated_title_refused :
    ¬ ∀ new : NewTodo, new.validate = [] → Storable (trim new.title) := by
  intro hall
  exact absurd (hall ⟨"   "⟩ (by decide)) (by unfold Storable; decide)

end TodoRust.Todos
