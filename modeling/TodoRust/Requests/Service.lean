import TodoRust.App.Rules

/-!
# The service and its request protocol

Requests of logged-in users, interleaved effect by effect. Each of them follows
one protocol: it touches the rows and the cache entry of its own user only,
stores no list but the one it has just selected, and deletes the entry after it
has changed a todo.
-/

namespace TodoRust.Requests
open Lib Domain Storage App

/-- The routes for logged-in users. -/
def isUserRoute : Route → Bool
  | .index | .list | .create _ | .toggle _ | .delete _ | .updateLocale _ => true
  | .login _ | .signup _ => false

/-- A request of a logged-in user, with the hash its session keeps. -/
structure UserRequest where
  authHash : String
  request : Request
  userRoute : isUserRoute request.route = true

/-- The service: requests are numbered for each user, and the environment may
drop any cache entry. -/
def service (services : Services) (state : AppState) :
    System (UserId × Nat) UserRequest Choice String Effect Effect.Reply (Except String Response)
      World where
  prog i job := serve state (some ⟨i.1.uuid, job.authHash⟩) job.request
  act := act services
  env key w := w.setRedis key none

/-- A pool of the service. -/
abbrev ServicePool := Pool (UserId × Nat) Effect Effect.Reply (Except String Response) World

/-- What happens to the service. -/
abbrev ServiceEvent := Event (UserId × Nat) UserRequest Choice String

/-- The histories of the service. -/
abbrev History := List (ServicePool × ServiceEvent)

/-- The effects on behalf of one user: its rows, its cache entry, or nothing that
is stored. -/
def Own (userId : UserId) : Effect → Prop
  | .sql stmt => stmt.subject = some userId.uuid
  | .redisGet key | .redisSet key .. | .redisDel key => key = todosCacheKey userId
  | _ => True

/-- How far a request has come with the todo list: nothing to account for, the
list found in the cache, the list selected, or a todo changed and the entry not
deleted yet. -/
inductive Phase
  | quiet
  | hit (todos : List Todo)
  | read (todos : List Todo)
  | dirty

section Protocol
variable (state : AppState) (userId : UserId)

/-- What a request may do next. -/
structure Permits (m : Phase) (e : Effect) : Prop where
  own : Own userId e
  fresh : ∀ key raw seconds, e = .redisSet key raw seconds →
    ∃ todos, m = .read todos ∧ state.todosJson.toString todos = some raw
  settled : state.cache.pool = true → m = .dirty → e = .redisDel (todosCacheKey userId)
  enabled : ∀ key, e = .redisGet key → state.cache.pool = true

/-- The phase after a reply. -/
def advance (m : Phase) (e : Effect) (reply : e.Reply) : Phase :=
  match e, reply with
  | .redisGet _, reply =>
      match Cache.decode state.todosJson reply with
      | some todos => .hit todos
      | none => m
  | .sql (.selectTodos _), .ok rows => .read (rows.map rowToTodo)
  | .sql stmt, .ok rows => if stmt.writesTodos && stmt.commits rows then .dirty else m
  | .redisDel _, _ => .quiet
  | _, _ => m

/-- The protocol of one user's requests. The account that is looked up is the
session's. -/
def protocol : Monitor Effect Effect.Reply Phase where
  allows := Permits state userId
  answers _ e reply :=
    match e, reply with
    | .sql (.selectUser id), .ok (some row) => row.id = id
    | _, _ => True
  next := advance state

/-- No change is left unaccounted for. -/
def Clean (m : Phase) : Prop := state.cache.pool = true → m ≠ .dirty

end Protocol

/-- The list among the values of a context. -/
def listedIn (context : Context) : Option (List Todo) :=
  context.findSome? fun entry =>
    match entry.2 with
    | .todos ts => some ts
    | _ => none

/-- The todos a response shows as a list. -/
def listed (response : Response) : Option (List Todo) :=
  match response.body with
  | .html _ context => listedIn context
  | _ => none

/-- What the end of a request says about its phase: nothing is left to delete,
and a list that is shown was found in the cache or selected. -/
def Settled {ε : Type} (state : AppState) (done : Except ε Response) (m : Phase) : Prop :=
  Clean state m ∧ ∀ response ts, done = .ok response → listed response = some ts →
    m = .hit ts ∨ m = .read ts

section Proofs
variable {state : AppState} {userId : UserId} {m : Phase}

-- its rule says what it does
attribute [local irreducible] updateLocale localeCookie

theorem permits_of_clean {e : Effect} (hclean : Clean state m) (hown : Own userId e)
    (hset : ∀ key raw seconds, e ≠ .redisSet key raw seconds)
    (hget : ∀ key, e = .redisGet key → state.cache.pool = true) :
    Permits state userId m e where
  own := hown
  fresh key raw seconds he := absurd he (hset key raw seconds)
  settled hpool hm := absurd hm (hclean hpool)
  enabled := hget

theorem clean_quiet : Clean state .quiet := by
  intro _ h
  cases h

theorem clean_hit {todos : List Todo} : Clean state (.hit todos) := by
  intro _ h
  cases h

theorem clean_read {todos : List Todo} : Clean state (.read todos) := by
  intro _ h
  cases h

theorem settled_of_not_listed {ε : Type} {response : Response} (hclean : Clean state m)
    (h : listed response = none) : Settled state (.ok response : Except ε Response) m := by
  refine ⟨hclean, ?_⟩
  intro response' ts hr hts
  rw [← Except.ok.inj hr, h] at hts
  cases hts

theorem settled_error {ε : Type} {e : ε} (hclean : Clean state m) : Settled state (.error e) m :=
  ⟨hclean, fun _ _ hr _ => by cases hr⟩

/-! ### The calls -/

/-- A call that reports an error has left nothing unaccounted for. -/
def CleanOnError {α : Type} (state : AppState) (done : Except StorageError α) (m : Phase) : Prop :=
  ∀ e, done = .error e → Clean state m

theorem findById_protocol :
    Prog.Obeys (protocol state userId)
      (fun done m => m = .quiet ∧ ∀ user, done = .ok (some user) → user.id = userId) .quiet
      (UserRepository.findById userId).run := by
  rw [UserRepository.findById_program]
  refine ⟨permits_of_clean clean_quiet rfl (by simp) (by simp), fun r hr => ?_⟩
  match r with
  | .error e => exact ⟨rfl, fun _ h => by cases h⟩
  | .ok none => exact ⟨rfl, fun _ h => by cases h⟩
  | .ok (some row) =>
      refine ⟨rfl, fun user huser => ?_⟩
      obtain rfl : rowToUser row = user := Option.some.inj (Except.ok.inj huser)
      exact congrArg UserId.mk hr

/-- The user a session stands for. -/
theorem fromSession_protocol (authHash : String) :
    Prog.Obeys (protocol state userId)
      (fun done m => m = .quiet ∧ ∀ auth, done = .ok auth → ∀ user, auth.user = some user →
        user.id = userId)
      .quiet (AuthSession.fromSession (some ⟨userId.uuid, authHash⟩)).run := by
  apply findById_protocol.bindExcept
  · rintro found m ⟨rfl, hid⟩
    refine ⟨rfl, ?_⟩
    intro auth hauth user huser
    obtain rfl := Except.ok.inj hauth
    obtain ⟨rfl, _⟩ := Option.filter_eq_some_iff.mp huser
    exact hid user rfl
  · rintro e m ⟨rfl, _⟩
    exact ⟨rfl, fun _ h => by cases h⟩

/-- A list that was found in the cache or selected. -/
def Accounted (state : AppState) (done : Except StorageError (List Todo)) (m : Phase) : Prop :=
  CleanOnError state done m ∧ ∀ todos, done = .ok todos → m = .hit todos ∨ m = .read todos

theorem accounted_error {e : StorageError} (hclean : Clean state m) :
    Accounted state (.error e) m :=
  ⟨fun _ _ => hclean, fun _ h => by cases h⟩

theorem accounted_ok {todos : List Todo} (h : m = .hit todos ∨ m = .read todos) :
    Accounted state (.ok todos) m := by
  constructor
  · intro e he
    cases he
  · intro todos' htodos
    rwa [← Except.ok.inj htodos]

theorem listForUser_protocol (hclean : Clean state m) :
    Prog.Obeys (protocol state userId) (Accounted state) m
      (TodoRepository.listForUser userId).run := by
  rw [TodoRepository.listForUser_program]
  refine ⟨permits_of_clean hclean rfl (by simp) (by simp), fun r _ => ?_⟩
  cases r with
  | error e => exact accounted_error hclean
  | ok rows => exact accounted_ok (Or.inr rfl)

theorem listTodosCached_protocol (hclean : Clean state m) :
    Prog.Obeys (protocol state userId) (Accounted state) m (state.listTodosCached userId).run := by
  rw [AppState.listTodosCached_program]
  cases hpool : state.cache.pool with
  | false => exact listForUser_protocol hclean
  | true =>
      refine ⟨permits_of_clean hclean rfl (by simp) fun _ _ => hpool, fun reply _ => ?_⟩
      simp only [protocol, advance]
      cases Cache.decode state.todosJson reply with
      | some todos => exact accounted_ok (Or.inl rfl)
      | none =>
          refine ⟨permits_of_clean hclean rfl (by simp) (by simp), fun r _ => ?_⟩
          cases r with
          | error e => exact accounted_error hclean
          | ok rows =>
              dsimp only
              unfold AppState.backfill
              cases hraw : state.todosJson.toString (rows.map rowToTodo) with
              | none => exact accounted_ok (Or.inr rfl)
              | some raw =>
                  refine ⟨⟨rfl, ?_, ?_, by simp⟩, fun _ _ => accounted_ok (Or.inr rfl)⟩
                  · intro key raw' seconds he
                    cases he
                    exact ⟨_, rfl, hraw⟩
                  · intro _ h
                    cases h

/-- From any phase, deleting the entry settles the account. -/
theorem invalidate_protocol :
    Prog.Obeys (protocol state userId) (fun _ m' => Clean state m') m
      (state.invalidateTodosCache userId) := by
  rw [AppState.invalidateTodosCache_program]
  cases hpool : state.cache.pool with
  | false =>
      intro hon
      rw [hpool] at hon
      cases hon
  | true =>
      refine ⟨⟨rfl, ?_, fun _ _ => rfl, by simp⟩, fun _ _ => clean_quiet⟩
      intro key raw seconds he
      cases he

/-- One statement of the user's own whose reply is read as an error only if nothing
was changed. -/
theorem statement_protocol {α : Type} {stmt : Statement}
    {read : Except SqlxError stmt.Rows → Except StorageError α}
    (hown : stmt.subject = some userId.uuid) (hlist : ∀ owner, stmt ≠ .selectTodos owner)
    (hread : ∀ rows e, read (.ok rows) = .error e → stmt.commits rows = false) :
    Prog.Obeys (protocol state userId) (CleanOnError state) .quiet
      (.op (.sql stmt) fun r => .ret (read r)) := by
  refine ⟨permits_of_clean clean_quiet hown (by simp) (by simp), fun r _ e he => ?_⟩
  cases r with
  | error err =>
      cases stmt with
      | _ => exact clean_quiet
  | ok rows =>
      have hquiet : advance state .quiet (.sql stmt) (.ok rows) = .quiet := by
        cases stmt with
        | selectTodos owner => exact absurd rfl (hlist owner)
        | _ => simp [advance, hread rows e he]
      show Clean state (advance state .quiet (.sql stmt) (.ok rows))
      rw [hquiet]
      exact clean_quiet

theorem create_protocol (new : Domain.NewTodo) :
    Prog.Obeys (protocol state userId) (CleanOnError state) .quiet
      (TodoRepository.create userId new).run := by
  rw [TodoRepository.create_program]
  refine ⟨permits_of_clean clean_quiet trivial (by simp) (by simp), fun id _ => ?_⟩
  apply statement_protocol rfl (by simp)
  intro rows e he
  cases he

theorem toggle_protocol (id : TodoId) :
    Prog.Obeys (protocol state userId) (CleanOnError state) .quiet
      (TodoRepository.toggle userId id).run := by
  rw [TodoRepository.toggle_program]
  apply statement_protocol rfl (by simp)
  exact fun _ _ => readFound_ok_error

theorem delete_protocol (id : TodoId) :
    Prog.Obeys (protocol state userId) (CleanOnError state) .quiet
      (TodoRepository.delete userId id).run := by
  rw [TodoRepository.delete_program]
  apply statement_protocol rfl (by simp)
  exact fun _ _ => readDeleted_ok_error

theorem updatePreferences_protocol (locale timezone : Option String) :
    Prog.Obeys (protocol state userId) (fun _ m => m = .quiet) .quiet
      (UserRepository.updatePreferences userId locale timezone).run := by
  rw [UserRepository.updatePreferences_program]
  refine ⟨permits_of_clean clean_quiet rfl (by simp) (by simp), fun r _ => ?_⟩
  cases r with
  | error e => rfl
  | ok n => rfl

/-! ### The handlers -/

theorem renderPage_protocol {status : Rust.StatusCode} {headers : Rust.HeaderMap}
    {template : String} {context : Context} (hclean : Clean state m)
    (hlisted : ∀ ts, listedIn context = some ts → m = .hit ts ∨ m = .read ts) :
    Prog.Obeys (protocol state userId) (Settled state) m
      (renderPage status headers template context).run := by
  have hpermits : Permits state userId m (.render template context) :=
    permits_of_clean hclean trivial (by simp) (by simp)
  apply obeys_renderPage hpermits
  · intro _ _
    refine ⟨hclean, ?_⟩
    intro response ts hr
    rw [← Except.ok.inj hr]
    exact hlisted ts
  · exact fun _ _ => settled_error hclean

/-- A page with the list shows the one that is accounted for. -/
theorem listPage_protocol {template : String} {todos : List Domain.Todo} (before after : Context)
    (hbefore : listedIn before = none) (haccount : Accounted state (.ok todos) m) :
    Prog.Obeys (protocol state userId) (Settled state) m
      (renderPage Rust.StatusCode.ok [] template
        (before ++ ("todos", .todos todos) :: after)).run := by
  have hm := haccount.2 todos rfl
  apply renderPage_protocol
  · rcases hm with rfl | rfl
    · exact clean_hit
    · exact clean_read
  · intro ts hts
    have hfound : listedIn (before ++ ("todos", .todos todos) :: after) = some todos := by
      rw [listedIn, List.findSome?_append, show before.findSome? _ = none from hbefore]
      rfl
    obtain rfl := Option.some.inj (hfound.symm.trans hts)
    exact hm

theorem index_protocol {auth : AuthSession} (hauth : ∀ user, auth.user = some user →
    user.id = userId) (context : RequestContext) :
    Prog.Obeys (protocol state userId) (Settled state) .quiet (index state auth context).run := by
  apply obeys_index
  · exact fun _ => settled_of_not_listed clean_quiet rfl
  · intro user huser
    rw [hauth user huser]
    exact listTodosCached_protocol clean_quiet
  · exact fun user todos m _ haccount => listPage_protocol [("user", .user user)] _ rfl haccount
  · exact fun e m haccount => settled_error (haccount.1 e rfl)

theorem list_protocol {auth : AuthSession} (hauth : ∀ user, auth.user = some user →
    user.id = userId) (context : RequestContext) :
    Prog.Obeys (protocol state userId) (Settled state) .quiet (list state auth context).run := by
  apply obeys_list
  · exact fun _ => settled_error clean_quiet
  · intro user huser
    rw [hauth user huser]
    exact listTodosCached_protocol clean_quiet
  · exact fun user todos m _ haccount => listPage_protocol [] _ rfl haccount
  · exact fun e m haccount => settled_error (haccount.1 e rfl)

theorem createHandler_protocol {auth : AuthSession} (hauth : ∀ user, auth.user = some user →
    user.id = userId) (context : RequestContext) (new : Domain.NewTodo) :
    Prog.Obeys (protocol state userId) (Settled state) .quiet
      (create state auth context new).run := by
  apply obeys_create
  · exact fun _ => settled_error clean_quiet
  · exact fun _ => settled_error clean_quiet
  · intro user huser
    rw [hauth user huser]
    exact create_protocol new
  · intro user todo m huser _
    rw [hauth user huser]
    exact invalidate_protocol
  · exact fun user todo m _ hclean => renderPage_protocol hclean fun _ h => by cases h
  · exact fun e m hclean => settled_error (hclean e rfl)

theorem toggleHandler_protocol {auth : AuthSession} (hauth : ∀ user, auth.user = some user →
    user.id = userId) (context : RequestContext) (id : Uuid) :
    Prog.Obeys (protocol state userId) (Settled state) .quiet
      (toggle state auth context id).run := by
  apply obeys_toggle
  · exact fun _ => settled_error clean_quiet
  · intro user huser
    rw [hauth user huser]
    exact toggle_protocol ⟨id⟩
  · intro user todo m huser _
    rw [hauth user huser]
    exact invalidate_protocol
  · exact fun user todo m _ hclean => renderPage_protocol hclean fun _ h => by cases h
  · exact fun e m hclean => settled_error (hclean e rfl)

theorem deleteHandler_protocol {auth : AuthSession} (hauth : ∀ user, auth.user = some user →
    user.id = userId) (id : Uuid) :
    Prog.Obeys (protocol state userId) (Settled state) .quiet (delete state auth id).run := by
  apply obeys_delete
  · exact fun _ => settled_error clean_quiet
  · intro user huser
    rw [hauth user huser]
    exact delete_protocol ⟨id⟩
  · intro user m huser _
    rw [hauth user huser]
    exact invalidate_protocol
  · exact fun m hclean => settled_of_not_listed hclean rfl
  · exact fun e m hclean => settled_error (hclean e rfl)

theorem localeResponse_protocol (headers : Rust.HeaderMap) (cookie : Option Rust.HeaderValue) :
    Prog.Obeys (protocol state userId) (Settled state) .quiet (do
      let cookie ← Handler.expect "valid cookie" cookie
      return localeResponse headers cookie : Handler Response).run := by
  cases cookie with
  | none => exact settled_error clean_quiet
  | some cookie =>
      apply settled_of_not_listed clean_quiet
      unfold localeResponse
      dsimp only
      split
      · rfl
      · rfl

theorem updateLocale_protocol {auth : AuthSession} (hauth : ∀ user, auth.user = some user →
    user.id = userId) (headers : Rust.HeaderMap) (locale : String) :
    Prog.Obeys (protocol state userId) (Settled state) .quiet
      (updateLocale state auth headers locale).run := by
  apply obeys_updateLocale
  · exact fun _ => settled_error clean_quiet
  · exact fun _ => rfl
  · intro user candidate huser
    rw [hauth user huser]
    exact updatePreferences_protocol (some candidate) none
  · exact fun _ hquiet => hquiet.symm
  · rintro candidate _ _ rfl
    exact localeResponse_protocol headers (localeCookie state candidate)
  · rintro _ _ rfl
    exact settled_error clean_quiet

/-- Every request follows the protocol of its user. -/
theorem service_protocol (services : Services) (state : AppState) (i : UserId × Nat)
    (job : UserRequest) :
    Prog.Obeys (protocol state i.1) (Settled state) .quiet
      ((service services state).prog i job) := by
  obtain ⟨authHash, ⟨headers, context, route⟩, hroute⟩ := job
  apply (fromSession_protocol authHash).bind
  rintro auth m ⟨rfl, hauth⟩
  cases auth with
  | error e => exact settled_of_not_listed clean_quiet rfl
  | ok auth =>
      have hhandle : Prog.Obeys (protocol state i.1) (Settled state) .quiet
          (handle state auth ⟨headers, context, route⟩).run := by
        cases route with
        | index => exact index_protocol (hauth auth rfl) context
        | list => exact list_protocol (hauth auth rfl) context
        | create new => exact createHandler_protocol (hauth auth rfl) context new
        | toggle id => exact toggleHandler_protocol (hauth auth rfl) context id
        | delete id => exact deleteHandler_protocol (hauth auth rfl) id
        | updateLocale locale => exact updateLocale_protocol (hauth auth rfl) headers locale
        | login | signup => cases hroute
      apply hhandle.bind
      intro done m hsettled
      match done with
      | .ok r =>
          refine ⟨hsettled.1, fun response ts hr => ?_⟩
          exact hsettled.2 response ts (by rw [← Except.ok.inj hr])
      | .error (.error e) => exact settled_of_not_listed hsettled.1 rfl
      | .error (.panic message) => exact settled_error hsettled.1

/-- The account that is looked up has the id that was asked for. -/
theorem protocol_answers (services : Services) (c : Choice) (w : World) (m : Phase) (e : Effect) :
    (protocol state userId).answers m e (act services c e w).1 := by
  cases e with
  | sql stmt =>
      cases stmt with
      | selectUser id =>
          rw [act_sql]
          cases c.fault with
          | some message => trivial
          | none =>
              rw [Database.exec_selectUser]
              cases hrow : w.db.selectUser id with
              | none => trivial
              | some row => exact Database.selectUser_id hrow
      | selectTodos | insertTodo | selectTodo | updateTodo | toggleTodo | deleteTodo
      | insertUser | selectUserByEmail | updatePreferences => trivial
  | newUuid | generateHash | verifyPassword | redisGet | redisSet | redisDel | sessionLogin
  | render => trivial

end Proofs

/-- In every state reached, what is left of a request follows the protocol. -/
theorem run_protocol {services : Services} {state : AppState} {s₀ s : ServicePool} {h : History}
    (run : Run (service services state).step s₀ h s) (hidle : ∀ i, s₀.task i = .idle) :
    ∃ m : UserId × Nat → Phase, ∀ i p, s.task i = .running p →
      Prog.Obeys (protocol state i.1) (Settled state) (m i) p := by
  obtain ⟨m, _, hm⟩ := System.monitored (fun _ _ => True) (fun _ _ _ => True) (fun _ => .quiet)
    (service_protocol services state) hidle trivial
    (fun _ _ _ _ _ _ _ _ => trivial)
    (fun _ s m i c e _ _ _ _ _ => ⟨protocol_answers services c s.world (m i) e, trivial⟩)
    (fun _ _ _ _ _ => trivial) (fun _ _ _ _ _ _ => trivial) run fun _ _ => trivial
  exact ⟨m, hm⟩

end TodoRust.Requests
