import TodoRust.Storage.Repo

/-!
# The preferences of an account

A call of `update_preferences` says of each field whether to leave it, to clear
it or to set it. The statement carries this as a flag and a value that may be
`NULL`; over a sequence of calls, the last one that did not leave a field decides.
-/

namespace TodoRust.Accounts
open Lib Domain Storage

/-- A call of `update_preferences`, with what the environment makes of it. -/
structure PreferencesCall where
  id : UserId
  locale : Option String
  timezone : Option String
  choice : Choice

namespace PreferencesCall

def run (services : Services) (call : PreferencesCall) (w : World) :
    Except StorageError Unit × World :=
  runCall services (UserRepository.updatePreferences call.id call.locale call.timezone)
    (fun _ => call.choice) w

def statement (call : PreferencesCall) : Statement :=
  .updatePreferences call.id.uuid (UserRepository.preference call.locale).1
    (UserRepository.preference call.locale).2 (UserRepository.preference call.timezone).1
    (UserRepository.preference call.timezone).2

/-- The server is reached, and can store the texts that are bound. -/
def succeeds (services : Services) (call : PreferencesCall) : Bool :=
  call.choice.fault.isNone && call.statement.texts.all services.pg.storesText

/-- What the statement does to the row of its id. -/
def set (call : PreferencesCall) : UserRow → UserRow :=
  Database.setPreferences call.choice.now (UserRepository.preference call.locale).1
    (UserRepository.preference call.locale).2 (UserRepository.preference call.timezone).1
    (UserRepository.preference call.timezone).2

end PreferencesCall

/-- The calls one after the other. -/
def runCalls (services : Services) (calls : List PreferencesCall) (w : World) : World :=
  calls.foldl (fun w call => (call.run services w).2) w

/-- What a field is after a sequence of calls: the last string that was passed decides,
and the empty string clears. -/
def finalValue (initial : Option String) (passed : List (Option String)) : Option String :=
  match passed.reduceOption.getLast? with
  | none => initial
  | some s => if s = "" then none else some s

/-- The row of a user after a sequence of calls that succeed. -/
def afterCalls (calls : List PreferencesCall) (row : UserRow) : UserRow :=
  let own := calls.filter (·.id.uuid == row.id)
  { row with
    locale := finalValue row.locale (own.map (·.locale))
    timezone := finalValue row.timezone (own.map (·.timezone))
    updatedAt := (own.map (·.choice.now)).getLast?.getD row.updatedAt }

section Calls
variable {services : Services} {call : PreferencesCall} {w : World}

theorem run_eq : call.run services w =
    (((act services call.choice (.sql call.statement) w).1.map fun _ => ()).mapError .database,
      (act services call.choice (.sql call.statement) w).2) := by
  rw [PreferencesCall.run, runCall, UserRepository.updatePreferences_program]
  rfl

theorem run_of_succeeds (h : call.succeeds services = true) :
    call.run services w = (.ok (), { w with db := { w.db with
      users := Table.update (·.id == call.id.uuid) call.set w.db.users } }) := by
  obtain ⟨hfault, htexts⟩ := Bool.and_eq_true_iff.mp h
  have hexec : w.db.exec services.pg call.choice.now call.statement =
      (.ok (w.db.users.countP (·.id == call.id.uuid)), { w.db with
        users := Table.update (·.id == call.id.uuid) call.set w.db.users }) := if_pos htexts
  rw [run_eq, act_sql, Option.isNone_iff_eq_none.mp hfault]
  dsimp only
  rw [hexec]
  rfl

/-- A call that fails has changed nothing. -/
theorem run_of_fails (h : call.succeeds services = false) :
    ∃ e, call.run services w = (.error e, w) := by
  rw [run_eq, act_sql]
  cases hfault : call.choice.fault with
  | some message => exact ⟨_, rfl⟩
  | none =>
      have htexts : ¬ call.statement.texts.all services.pg.storesText = true := by
        simpa [PreferencesCall.succeeds, hfault] using h
      have hexec : w.db.exec services.pg call.choice.now call.statement =
        (.error .invalidText, w.db) := if_neg htexts
      dsimp only
      rw [hexec]
      exact ⟨_, rfl⟩

/-- A call succeeds or fails by what it passes and what it meets, and not by the tables. -/
theorem run_ok_iff : (call.run services w).1 = .ok () ↔ call.succeeds services = true := by
  cases h : call.succeeds services with
  | true => simp [run_of_succeeds h]
  | false =>
      obtain ⟨e, he⟩ := run_of_fails h (w := w)
      simp [he]

/-- A call for an unknown id changes nothing. -/
theorem run_unknown (hid : ∀ row ∈ w.db.users, row.id ≠ call.id.uuid) :
    (call.run services w).2 = w := by
  cases h : call.succeeds services with
  | true =>
      rw [run_of_succeeds h, Table.update_of_none fun row hrow => beq_false_of_ne (hid row hrow)]
  | false =>
      obtain ⟨e, he⟩ := run_of_fails h (w := w)
      rw [he]

end Calls

/-! ### A sequence of calls -/

/-- What a call writes into a field it does not leave. -/
def written (passed : Option String) : Option (Option String) :=
  passed.map fun s => if s = "" then none else some s

/-- The flag and the value say of a field what was passed. -/
theorem preference_written (passed initial : Option String) :
    (if (UserRepository.preference passed).1 then (UserRepository.preference passed).2
      else initial) = (written passed).getD initial := by
  cases passed with
  | none => rfl
  | some s => rfl

theorem finalValue_eq (initial : Option String) (passed : List (Option String)) :
    finalValue initial passed =
      (passed.map written).foldl (fun value write => write.getD value) initial := by
  have hwritten : (passed.map written).reduceOption =
      passed.reduceOption.map fun s => if s = "" then none else some s :=
    List.reduceOption_map
  rw [Table.foldl_getD, hwritten, List.getLast?_map, finalValue]
  cases passed.reduceOption.getLast? with
  | none => rfl
  | some s => rfl

/-- The calls for one row, one after the other. -/
theorem foldl_set (own : List PreferencesCall) (row : UserRow) :
    own.foldl (fun row call => call.set row) row =
      { row with
        locale := finalValue row.locale (own.map (·.locale))
        timezone := finalValue row.timezone (own.map (·.timezone))
        updatedAt := (own.map (·.choice.now)).getLast?.getD row.updatedAt } := by
  induction own generalizing row with
  | nil => rfl
  | cons call own ih =>
      rw [List.foldl_cons, ih]
      simp only [finalValue_eq, List.map_cons, List.foldl_cons, ← preference_written,
        List.getLast?_cons]
      rfl

/-- The worlds a sequence of calls passes differ in the users table. -/
theorem runCalls_eq (services : Services) (calls : List PreferencesCall) (w : World) :
    runCalls services calls w = { w with db := { w.db with
      users := (calls.filter (·.succeeds services)).foldl
        (fun users call => Table.update (·.id == call.id.uuid) call.set users) w.db.users } } := by
  induction calls generalizing w with
  | nil => rfl
  | cons call calls ih =>
      have hstep : runCalls services (call :: calls) w =
          runCalls services calls (call.run services w).2 := rfl
      cases h : call.succeeds services with
      | true =>
          rw [hstep, ih, run_of_succeeds h, List.filter_cons_of_pos h]
          rfl
      | false =>
          obtain ⟨e, he⟩ := run_of_fails h (w := w)
          rw [hstep, ih, he, List.filter_cons_of_neg (by simp [h])]

theorem users_runCalls (services : Services) (calls : List PreferencesCall) (w : World) :
    runCalls services calls w = { w with db := { w.db with
      users := w.db.users.map (afterCalls (calls.filter (·.succeeds services))) } } := by
  have hset (call : PreferencesCall) (row : UserRow) : (call.set row).id = row.id := rfl
  have hrows := Table.foldl_update (fun call : PreferencesCall => call.id.uuid) hset
    (calls.filter (·.succeeds services)) w.db.users
  rw [runCalls_eq, hrows]
  simp only [foldl_set]
  rfl

/-- What the calls of `update_preferences` do: a call succeeds or fails by its own, one
that fails or has an unknown id changes nothing, and after any sequence of calls the
last string that was passed decides each field of each row. -/
theorem preferences_after_calls (services : Services) :
    (∀ (call : PreferencesCall) w, (call.run services w).1 = .ok () ↔
      call.succeeds services = true) ∧
    (∀ (call : PreferencesCall) w, call.succeeds services = false →
      (call.run services w).2 = w) ∧
    (∀ (call : PreferencesCall) w, (∀ row ∈ w.db.users, row.id ≠ call.id.uuid) →
      (call.run services w).2 = w) ∧
    ∀ calls w, runCalls services calls w = { w with db := { w.db with
      users := w.db.users.map (afterCalls (calls.filter (·.succeeds services))) } } := by
  refine ⟨fun call w => run_ok_iff, fun call w h => ?_, fun call w => run_unknown,
    users_runCalls services⟩
  obtain ⟨e, he⟩ := run_of_fails h (w := w)
  rw [he]

/-- A text with a NUL character is passed, and the locale is not this text after it. -/
theorem preferences_keep_nul : ¬ ∀ (calls : List PreferencesCall) (w : World),
    (∀ call ∈ calls, call.choice.fault = none) →
      (runCalls .plain calls w).db.users = w.db.users.map (afterCalls calls) := by
  intro h
  have hcall := h [⟨⟨⟨1⟩⟩, some "\x00", none, .plain 5 ⟨0⟩⟩] .plain (by simp [Choice.plain])
  revert hcall
  decide

end TodoRust.Accounts
