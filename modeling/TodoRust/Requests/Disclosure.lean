import TodoRust.Requests.Faulty

/-!
# What a request is shown

Requests of any clients, interleaved effect by effect, while any step may fail, cache
entries vanish or turn into something else, and others write to the tables. Whatever a
page shows of users and todos belongs to the account of the session it is shown in, and
whatever the cache holds under a key belongs to the account of the key.
-/

namespace TodoRust.Requests
open Lib Domain Storage App

/-- A request of any client, with what its session holds. -/
structure ClientRequest where
  session : Option Session
  request : Request

/-- Any number of them, over the services that fail as in `faultyService`. -/
def clients (services : Services) (state : AppState) :
    System Nat ClientRequest Choice (Mishap state) Effect Effect.Reply (Except String Response)
      World where
  prog _ job := serve state job.session job.request
  act := act services
  env := (faultyService services state).env

abbrev ClientPool := Pool Nat Effect Effect.Reply (Except String Response) World

abbrev ClientHistory (state : AppState) :=
  List (ClientPool × Event Nat ClientRequest Choice (Mishap state))

/-! ### What belongs to whom -/

/-- The users and todos in a value are the owner's. -/
def OwnValue (owner : Option Uuid) : Value → Prop
  | .todo todo => owner = some todo.ownerId.uuid
  | .todos todos => ∀ todo ∈ todos, owner = some todo.ownerId.uuid
  | .user user => owner = some user.id.uuid
  | .str _ | .bool _ | .none => True

/-- So are those of a page. -/
def OwnPage (owner : Option Uuid) (page : Context) : Prop :=
  ∀ entry ∈ page, OwnValue owner entry.2

/-- A list under a key of the cache is that of the user the key is for. -/
def OwnEntry (state : AppState) (key raw : String) : Prop :=
  ∀ userId todos, key = todosCacheKey userId → state.todosJson.fromStr raw = some todos →
    ∀ todo ∈ todos, todo.ownerId = userId

/-- All entries of the cache are such. -/
def OwnCache (state : AppState) (w : World) : Prop :=
  ∀ key entry, w.redis key = some entry → OwnEntry state key entry.raw

/-- A request of a session's owner: its pages and the lists it stores are the owner's, as
are the rows and the lists it reads. -/
def confined (state : AppState) : Monitor Effect Effect.Reply (Option Uuid) where
  allows owner e :=
    match e with
    | .render _ page => OwnPage owner page
    | .redisSet key raw _ => OwnEntry state key raw
    | _ => True
  answers _ e reply :=
    match e, reply with
    | .sql (.selectUser id), .ok (some row) => row.id = id
    | .sql (.selectTodos ownerId), .ok rows => ∀ row ∈ rows, row.ownerId = ownerId
    | .sql (.insertTodo _ ownerId _), .ok row => row.ownerId = ownerId
    | .sql (.toggleTodo _ ownerId), .ok (some row) => row.ownerId = ownerId
    | .redisGet key, .ok (some raw) => OwnEntry state key raw
    | _, _ => True
  next owner _ _ := owner

/-- The page of a response is the owner's. -/
def OwnAnswer {ε : Type} (done : Except ε Response) (owner : Option Uuid) : Prop :=
  ∀ response template page, done = .ok response → response.body = .html template page →
    OwnPage owner page

/-! ### The handlers -/

section Handlers
variable {state : AppState} {owner : Option Uuid} {auth : AuthSession} {context : RequestContext}

-- its rule says what it does
attribute [local irreducible] updateLocale localeCookie

theorem ownAnswer_error {ε : Type} {e : ε} : OwnAnswer (.error e) owner := by
  intro response template page h
  cases h

theorem ownAnswer_plain {ε : Type} {response : Response}
    (h : ∀ template page, response.body ≠ .html template page) :
    OwnAnswer (.ok response : Except ε Response) owner := by
  intro response' template page hdone hbody
  cases hdone
  exact absurd hbody (h template page)

theorem ownPage_base (request : RequestContext) : OwnPage owner (baseContext request) := by
  simp [OwnPage, baseContext, OwnValue]

theorem ownPage_cons {name : String} {value : Value} {page : Context} (h : OwnValue owner value)
    (hpage : OwnPage owner page) : OwnPage owner ((name, value) :: page) :=
  List.forall_mem_cons.mpr ⟨h, hpage⟩

theorem renderPage_confined {status : Rust.StatusCode} {headers : Rust.HeaderMap}
    {template : String} {page : Context} (h : OwnPage owner page) :
    Prog.Obeys (confined state) OwnAnswer owner
      (renderPage status headers template page).run := by
  apply obeys_renderPage h
  · rintro _ _ response template page hdone hbody
    cases hdone
    cases hbody
    exact h
  · exact fun _ _ => ownAnswer_error

theorem redirectTo_confined (uri : String) :
    Prog.Obeys (confined state) OwnAnswer owner (redirectTo uri).run := by
  unfold redirectTo
  cases Rust.HeaderValue.fromStr uri with
  | none => exact ownAnswer_error
  | some location => exact ownAnswer_plain (by simp)

theorem redirectAfterForm_confined (headers : Rust.HeaderMap) (target : String) :
    Prog.Obeys (confined state) OwnAnswer owner (redirectAfterForm headers target).run := by
  unfold redirectAfterForm
  split
  · dsimp only
    split
    · exact ownAnswer_plain (by simp [StatusCode.intoResponse])
    · exact ownAnswer_plain (by simp [StatusCode.intoResponse])
  · exact redirectTo_confined target

/-- A list of the owner's todos. -/
def OwnList (owner : Option Uuid) (done : Except StorageError (List Todo)) : Prop :=
  ∀ todos, done = .ok todos → OwnValue owner (.todos todos)

theorem ownList_rows {userId : UserId} {rows : List TodoRow}
    (h : ∀ row ∈ rows, row.ownerId = userId.uuid) :
    OwnList (some userId.uuid) (.ok (rows.map rowToTodo)) := by
  intro todos hdone todo htodo
  cases hdone
  obtain ⟨row, hrow, rfl⟩ := List.mem_map.mp htodo
  exact congrArg some (h row hrow).symm

theorem ownList_error {e : StorageError} : OwnList owner (.error e) := by
  intro todos h
  cases h

/-- The list of a user, from the cache or from the table, and stored for that user. -/
theorem listTodosCached_confined {userId : UserId} (howner : owner = some userId.uuid) :
    Prog.Obeys (confined state) (fun done m => OwnList owner done ∧ m = owner) owner
      (state.listTodosCached userId).run := by
  subst howner
  rw [AppState.listTodosCached_program]
  cases state.cache.pool with
  | false =>
      rw [if_neg Bool.false_ne_true, TodoRepository.listForUser_program]
      refine ⟨trivial, fun r hr => ?_⟩
      cases r with
      | error e => exact ⟨ownList_error, rfl⟩
      | ok rows => exact ⟨ownList_rows hr, rfl⟩
  | true =>
      refine ⟨trivial, fun reply hreply => ?_⟩
      dsimp only
      cases hdecode : Cache.decode state.todosJson reply with
      | some todos =>
          -- the entry of the key is the user's
          match reply with
          | .ok (some raw) =>
              refine ⟨fun todos' hdone todo htodo => ?_, rfl⟩
              cases hdone
              rw [hreply userId todos rfl hdecode todo htodo]
          | .ok none => cases hdecode
          | .error e => cases hdecode
      | none =>
          refine ⟨trivial, fun r hr => ?_⟩
          cases r with
          | error e => exact ⟨ownList_error, rfl⟩
          | ok rows =>
              dsimp only
              unfold AppState.backfill
              cases hraw : state.todosJson.toString (rows.map rowToTodo) with
              | none => exact ⟨ownList_rows hr, rfl⟩
              | some raw =>
                  refine ⟨?_, fun _ _ => ⟨ownList_rows hr, rfl⟩⟩
                  intro userId' todos hkey htodos todo htodo
                  obtain rfl := todosCacheKey_injective hkey
                  rw [state.todosJson.fromStr_toString hraw] at htodos
                  have hown := ownList_rows hr todos (congrArg Except.ok (Option.some.inj htodos))
                  exact congrArg UserId.mk (Option.some.inj (hown todo htodo)).symm

/-- One of the owner's todos. -/
def OwnTodo (owner : Option Uuid) (done : Except StorageError Todo) : Prop :=
  ∀ todo, done = .ok todo → OwnValue owner (.todo todo)

theorem create_confined {userId : UserId} (howner : owner = some userId.uuid) (new : NewTodo) :
    Prog.Obeys (confined state) (fun done m => OwnTodo owner done ∧ m = owner) owner
      (TodoRepository.create userId new).run := by
  rw [TodoRepository.create_program]
  refine ⟨trivial, fun id _ => ⟨trivial, fun r hr => ⟨?_, rfl⟩⟩⟩
  intro todo htodo
  cases r with
  | error e => cases htodo
  | ok row =>
      cases htodo
      exact howner.trans (congrArg some hr.symm)

theorem toggle_confined {userId : UserId} (howner : owner = some userId.uuid) (id : TodoId) :
    Prog.Obeys (confined state) (fun done m => OwnTodo owner done ∧ m = owner) owner
      (TodoRepository.toggle userId id).run := by
  rw [TodoRepository.toggle_program]
  refine ⟨trivial, fun r hr => ⟨?_, rfl⟩⟩
  intro todo htodo
  match r with
  | .error e => cases htodo
  | .ok none => cases htodo
  | .ok (some row) =>
      cases htodo
      exact howner.trans (congrArg some hr.symm)

theorem delete_confined (userId : UserId) (id : TodoId) :
    Prog.Obeys (confined state) (fun _ m => m = owner) owner
      (TodoRepository.delete userId id).run := by
  rw [TodoRepository.delete_program]
  exact ⟨trivial, fun _ _ => rfl⟩

theorem updatePreferences_confined (id : UserId) (locale timezone : Option String) :
    Prog.Obeys (confined state) (fun _ m => m = owner) owner
      (UserRepository.updatePreferences id locale timezone).run := by
  rw [UserRepository.updatePreferences_program]
  exact ⟨trivial, fun _ _ => rfl⟩

theorem invalidate_confined (userId : UserId) :
    Prog.Obeys (confined state) (fun _ m => m = owner) owner
      (state.invalidateTodosCache userId) := by
  rw [AppState.invalidateTodosCache_program]
  split
  · exact ⟨trivial, fun _ _ => rfl⟩
  · rfl

/-- A page after a write shows the todo that the write has returned. -/
theorem write_confined {userId : UserId} {c : Call Todo} {status : Rust.StatusCode}
    {template : String} {request : RequestContext}
    (hcall : Prog.Obeys (confined state) (fun done m => OwnTodo owner done ∧ m = owner) owner
      c.run) :
    Prog.Obeys (confined state) OwnAnswer owner (do
      let todo ← Handler.call c
      ExceptT.lift (state.invalidateTodosCache userId)
      renderPage status [] template (("todo", .todo todo) :: baseContext request) :
        Handler Response).run := by
  apply obeys_call hcall
  · rintro todo m ⟨hown, rfl⟩
    apply obeys_lift (invalidate_confined userId)
    rintro _ m rfl
    apply renderPage_confined
    exact ownPage_cons (hown todo rfl) (ownPage_base request)
  · exact fun _ _ _ => ownAnswer_error

theorem indexHandler_confined (hauth : ∀ user, auth.user = some user → owner = some user.id.uuid) :
    Prog.Obeys (confined state) OwnAnswer owner (index state auth context).run := by
  apply obeys_index
  · exact fun _ => redirectTo_confined "/login"
  · exact fun user huser => listTodosCached_confined (hauth user huser)
  · rintro user todos m huser ⟨hlist, rfl⟩
    apply renderPage_confined
    apply ownPage_cons
    · exact hauth user huser
    · exact ownPage_cons (hlist todos rfl) (ownPage_base _)
  · exact fun _ _ _ => ownAnswer_error

theorem listHandler_confined (hauth : ∀ user, auth.user = some user → owner = some user.id.uuid) :
    Prog.Obeys (confined state) OwnAnswer owner (list state auth context).run := by
  apply obeys_list
  · exact fun _ => ownAnswer_error
  · exact fun user huser => listTodosCached_confined (hauth user huser)
  · rintro user todos m huser ⟨hlist, rfl⟩
    apply renderPage_confined
    exact ownPage_cons (hlist todos rfl) (ownPage_base _)
  · exact fun _ _ _ => ownAnswer_error

theorem createHandler_confined
    (hauth : ∀ user, auth.user = some user → owner = some user.id.uuid) (new : NewTodo) :
    Prog.Obeys (confined state) OwnAnswer owner (create state auth context new).run := by
  obtain ⟨user⟩ := auth
  cases user with
  | none => exact ownAnswer_error
  | some user =>
      simp only [create, requireUser_some, expect_some]
      split
      · exact ownAnswer_error
      · exact write_confined (create_confined (hauth user rfl) new)

theorem toggleHandler_confined
    (hauth : ∀ user, auth.user = some user → owner = some user.id.uuid) (id : Uuid) :
    Prog.Obeys (confined state) OwnAnswer owner (toggle state auth context id).run := by
  obtain ⟨user⟩ := auth
  cases user with
  | none => exact ownAnswer_error
  | some user =>
      simp only [toggle, requireUser_some, expect_some]
      exact write_confined (toggle_confined (hauth user rfl) ⟨id⟩)

theorem deleteHandler_confined (id : Uuid) :
    Prog.Obeys (confined state) OwnAnswer owner (delete state auth id).run := by
  obtain ⟨user⟩ := auth
  cases user with
  | none => exact ownAnswer_error
  | some user =>
      simp only [delete, requireUser_some]
      apply obeys_call (delete_confined user.id ⟨id⟩)
      · rintro _ m rfl
        apply obeys_lift (invalidate_confined user.id)
        rintro _ m rfl
        exact ownAnswer_plain (by simp [StatusCode.intoResponse])
      · exact fun _ _ _ => ownAnswer_error

theorem updateLocale_confined (headers : Rust.HeaderMap) (locale : String) :
    Prog.Obeys (confined state) OwnAnswer owner (updateLocale state auth headers locale).run := by
  apply obeys_updateLocale
  · exact fun _ => ownAnswer_error
  · exact fun _ => Eq.refl owner
  · exact fun user candidate _ => updatePreferences_confined user.id (some candidate) none
  · exact fun _ hm => hm.symm
  · rintro candidate m _ rfl
    cases localeCookie state candidate with
    | none => exact ownAnswer_error
    | some cookie =>
        apply ownAnswer_plain
        intro template page
        simp only [localeResponse]
        split
        · simp
        · simp
  · exact fun _ _ _ => ownAnswer_error

theorem renderLoginForm_confined (request : RequestContext) (next : Option String) (msg : String)
    (status : Rust.StatusCode) :
    Prog.Obeys (confined state) OwnAnswer owner
      (renderLoginForm state request next msg status).run := by
  unfold renderLoginForm
  apply renderPage_confined
  intro entry hentry
  simp only [List.cons_append, List.nil_append, List.mem_cons] at hentry
  rcases hentry with rfl | rfl | rfl | hbase
  · dsimp only
    split
    · trivial
    · trivial
  · trivial
  · trivial
  · exact ownPage_base request entry hbase

theorem renderSignupForm_confined (request : RequestContext) (msg : String)
    (status : Rust.StatusCode) :
    Prog.Obeys (confined state) OwnAnswer owner
      (renderSignupForm request msg status).run := by
  apply renderPage_confined
  exact ownPage_cons trivial (ownPage_base request)

theorem verify_confined (email password : String) :
    Prog.Obeys (confined state) (fun _ m => m = owner) owner
      (UserRepository.verify email password).run := by
  rw [UserRepository.verify_program]
  refine ⟨trivial, fun r _ => ?_⟩
  cases r with
  | error e => rfl
  | ok row => exact ⟨trivial, fun _ _ => rfl⟩

theorem register_confined (new : NewUser) :
    Prog.Obeys (confined state) (fun _ m => m = owner) owner (UserRepository.create new).run := by
  rw [UserRepository.create_program]
  refine ⟨trivial, fun id _ => ⟨trivial, fun hashed _ => ?_⟩⟩
  cases hashed with
  | error e => rfl
  | ok hash => exact ⟨trivial, fun _ _ => rfl⟩

theorem login_confined (headers : Rust.HeaderMap) (creds : Credentials) :
    Prog.Obeys (confined state) OwnAnswer owner (login state headers context creds).run := by
  unfold login
  dsimp only
  split
  · exact renderLoginForm_confined ..
  · apply obeys_lift (verify_confined creds.email creds.password)
    rintro found m rfl
    match found with
    | .error _ => exact ownAnswer_error
    | .ok none => exact renderLoginForm_confined ..
    | .ok (some user) =>
        refine ⟨trivial, fun reply _ => ?_⟩
        cases reply with
        | error e => exact ownAnswer_error
        | ok _ => exact redirectAfterForm_confined headers _

theorem signup_confined (headers : Rust.HeaderMap) (new : NewUser) :
    Prog.Obeys (confined state) OwnAnswer owner (signup state headers context new).run := by
  unfold signup
  dsimp only
  split
  · exact renderSignupForm_confined ..
  · apply obeys_lift (register_confined new)
    rintro created m rfl
    match created with
    | .error (.conflict _) => exact renderSignupForm_confined ..
    | .error .notFound | .error .invalidCredentials | .error .hashing
    | .error (.database _) | .error (.join _) => exact ownAnswer_error
    | .ok user =>
        refine ⟨trivial, fun reply _ => ?_⟩
        cases reply with
        | error e => exact ownAnswer_error
        | ok _ => exact redirectAfterForm_confined headers _

theorem handle_confined (hauth : ∀ user, auth.user = some user → owner = some user.id.uuid)
    (request : Request) :
    Prog.Obeys (confined state) OwnAnswer owner (handle state auth request).run := by
  obtain ⟨headers, context, route⟩ := request
  cases route with
  | index => exact indexHandler_confined hauth
  | list => exact listHandler_confined hauth
  | create new => exact createHandler_confined hauth new
  | toggle id => exact toggleHandler_confined hauth id
  | delete id => exact deleteHandler_confined id
  | updateLocale locale => exact updateLocale_confined headers locale
  | login creds => exact login_confined headers creds
  | signup new => exact signup_confined headers new

/-- The user that is loaded is the one of the session. -/
theorem fromSession_confined (session : Option Session) :
    Prog.Obeys (confined state)
      (fun loaded m => m = session.map (·.userId) ∧ ∀ auth, loaded = .ok auth →
        ∀ user, auth.user = some user → session.map (·.userId) = some user.id.uuid)
      (session.map (·.userId)) (AuthSession.fromSession session).run := by
  cases session with
  | none =>
      refine ⟨rfl, ?_⟩
      rintro _ hauth user huser
      cases hauth
      cases huser
  | some data =>
      simp only [AuthSession.fromSession, ExceptT.run_bind, UserRepository.findById_program,
        Prog.op_bind, Prog.ret_bind]
      refine ⟨trivial, fun r hr => ?_⟩
      cases r with
      | error e =>
          refine ⟨rfl, ?_⟩
          rintro _ hauth
          cases hauth
      | ok found =>
          cases found with
          | none =>
              refine ⟨rfl, ?_⟩
              rintro _ hauth user huser
              cases hauth
              cases huser
          | some row =>
              refine ⟨rfl, ?_⟩
              rintro _ hauth user huser
              cases hauth
              dsimp only at huser
              obtain ⟨hrow, _⟩ := Option.filter_eq_some_iff.mp huser
              obtain rfl := Option.some.inj hrow
              exact congrArg some hr.symm

/-- Every request is confined to the account of its session. -/
theorem serve_confined (session : Option Session) (request : Request) :
    Prog.Obeys (confined state) OwnAnswer (session.map (·.userId))
      (serve state session request) := by
  apply (fromSession_confined session).bind
  rintro loaded m ⟨rfl, hauth⟩
  cases loaded with
  | error e => exact ownAnswer_plain (by simp [StatusCode.intoResponse])
  | ok auth =>
      apply (handle_confined (hauth auth rfl) request).bind
      intro done m hdone
      match done with
      | .ok response =>
          intro response' template page h
          cases h
          exact hdone response template page rfl
      | .error (.error e) => exact ownAnswer_plain (by simp [AppError.intoResponse])
      | .error (.panic message) => exact ownAnswer_error

end Handlers

/-! ### The replies -/

section Replies
variable {services : Services} {state : AppState} {owner : Option Uuid} {c : Choice} {w : World}
variable {db : Database} {now : OffsetDateTime} {id ownerId : Uuid}

theorem ownerId_insertTodo {title : String} {row : TodoRow}
    (h : (db.insertTodo now id ownerId title).1 = .ok row) : row.ownerId = ownerId := by
  unfold Database.insertTodo at h
  dsimp only at h
  split at h
  · cases h
  · split at h
    · cases h
    · split at h
      · cases h
      · cases h
        rfl

theorem ownerId_toggleTodo {row : TodoRow}
    (h : (db.modifyTodo now id ownerId Database.toggleTodo).1 = .ok (some row)) :
    row.ownerId = ownerId := by
  unfold Database.modifyTodo at h
  cases hfound : db.selectTodo id ownerId with
  | none =>
      rw [hfound] at h
      cases h
  | some old =>
      rw [hfound] at h
      dsimp only at h
      have hold : old.isAt id ownerId = true := List.find?_some hfound
      split at h
      · cases h
      · cases h
        simp only [TodoRow.isAt, Bool.and_eq_true, beq_iff_eq] at hold
        exact hold.2

/-- Statements reply with rows of the account they are about. -/
theorem exec_confined (stmt : Statement) :
    (confined state).answers owner (.sql stmt) (db.exec services.pg now stmt).1 := by
  rcases Database.exec_cases services.pg now db stmt with hexec | hexec
  · rw [hexec]
    cases stmt with
    | selectUser id =>
        cases hrow : db.selectUser id with
        | none => simp [confined, Database.perform, hrow]
        | some row => simpa [confined, Database.perform, hrow] using Database.selectUser_id hrow
    | selectTodos ownerId => simp [confined, Database.perform, Database.selectTodos]
    | insertTodo id ownerId title =>
        cases hrow : (db.insertTodo now id ownerId title).1 with
        | error e => simp [confined, Database.perform, hrow]
        | ok row => simpa [confined, Database.perform, hrow] using ownerId_insertTodo hrow
    | toggleTodo id ownerId =>
        cases hrow : (db.modifyTodo now id ownerId Database.toggleTodo).1 with
        | error e => simp [confined, Database.perform, hrow]
        | ok found =>
            cases found with
            | none => simp [confined, Database.perform, hrow]
            | some row => simpa [confined, Database.perform, hrow] using ownerId_toggleTodo hrow
    | selectTodo | updateTodo | deleteTodo | insertUser | selectUserByEmail
    | updatePreferences => trivial
  · rw [hexec]
    cases stmt <;> trivial

/-- The step lemma: replies are confined, and so is what the cache holds afterwards. -/
theorem act_confined {e : Effect} (hcache : OwnCache state w)
    (hallows : (confined state).allows owner e) :
    (confined state).answers owner e (act services c e w).1 ∧
      OwnCache state (act services c e w).2 := by
  constructor
  · cases e with
    | sql stmt =>
        rw [act_sql]
        cases c.fault with
        | some message => cases stmt <;> trivial
        | none => exact exec_confined stmt
    | redisGet key =>
        cases hfault : c.fault with
        | some message => simp [confined, act, hfault]
        | none =>
            cases hvalue : w.redisValue c.now key with
            | none => simp [confined, act, hfault, hvalue]
            | some raw =>
                obtain ⟨entry, hentry, rfl, _⟩ := World.redisValue_eq_some hvalue
                simpa [confined, act, hfault, hvalue] using hcache key entry hentry
    | newUuid | generateHash | verifyPassword | redisSet | redisDel | sessionLogin | render =>
        trivial
  · intro key entry hentry
    by_cases hbefore : w.redis key = some entry
    · exact hcache key entry hbefore
    · obtain ⟨seconds, rfl, _⟩ := act_redis_appears hbefore hentry
      exact hallows

end Replies

/-! ### Whole runs -/

/-- What a run says of each request: whose session it has, and whose pages it renders. -/
structure Confined {state : AppState} (h : ClientHistory state) (m : Nat → Option Uuid) :
    Prop where
  started : ∀ k i request, StartedAt h k i request → m i = request.session.map (·.userId)
  rendered : ∀ k i t c template page,
    System.PerformedAt h k i (.render template page) t c → OwnPage (m i) page

section Runs
variable {services : Services} {state : AppState} {s₀ s : ClientPool} {h : ClientHistory state}
variable {m : Nat → Option Uuid}

/-- An event that neither starts a request nor renders a page. -/
theorem Confined.snoc (hm : Confined h m)
    {x : ClientPool × Event Nat ClientRequest Choice (Mishap state)}
    (hstart : ∀ t i request, x ≠ (t, .start i request))
    (hrender : ∀ t i c template page, x = (t, .step i c) →
      t.nextEffect i = some (.render template page) → OwnPage (m i) page) :
    Confined (h ++ [x]) m where
  started k i request hk := by
    rcases hk.of_snoc with hold | ⟨t, hx⟩
    · exact hm.started k i request hold
    · exact absurd hx (hstart t i request)
  rendered k i t c template page hk := by
    rcases hk.of_snoc with hold | ⟨_, hx, hnext⟩
    · exact hm.rendered k i t c template page hold
    · exact hrender t i c template page hx hnext

/-- A request that starts has done nothing before. -/
theorem Confined.start (hm : Confined h m) (run : Run (clients services state).step s₀ h s)
    {i : Nat} {request : ClientRequest} (hidle : s.task i = .idle) :
    Confined (h ++ [(s, .start i request)])
      (Function.update m i (request.session.map (·.userId))) where
  started k j request' hk := by
    rcases hk.of_snoc with hold | ⟨t, hx⟩
    · have hne : j ≠ i := by
        rintro rfl
        obtain ⟨t, hstart⟩ := hold
        exact System.not_start_of_idle run hidle hstart
      rw [Function.update_of_ne hne]
      exact hm.started k j request' hold
    · cases hx
      exact Function.update_self ..
  rendered k j t c template page hk := by
    rcases hk.of_snoc with hold | ⟨_, hx, _⟩
    · have hne : j ≠ i := by
        rintro rfl
        exact System.not_step_of_idle run hidle hold.1
      rw [Function.update_of_ne hne]
      exact hm.rendered k j t c template page hold
    · cases hx

/-- What happens besides the program puts no list into the cache. -/
theorem env_ownCache {w : World} (hcache : OwnCache state w) (x : Mishap state) :
    OwnCache state ((clients services state).env x w) := by
  cases x with
  | tables db => exact hcache
  | drop key =>
      intro key' entry hentry
      rw [clients, faultyService, World.setRedis_redis] at hentry
      split at hentry
      · cases hentry
      · exact hcache key' entry hentry
  | garble key garbled hundecodable =>
      intro key' entry hentry
      rw [clients, faultyService, World.setRedis_redis] at hentry
      split at hentry
      · obtain rfl := Option.some.inj hentry
        intro userId todos _ htodos
        rw [hundecodable] at htodos
        cases htodos
      · exact hcache key' entry hentry

theorem run_confined (run : Run (clients services state).step s₀ h s)
    (hidle : ∀ i, s₀.task i = .idle) (hcache : OwnCache state s₀.world) :
    ∃ m, (OwnCache state s.world ∧ Confined h m) ∧ ∀ i p, s.task i = .running p →
      Prog.Obeys (confined state) OwnAnswer (m i) p := by
  apply System.monitored (fun _ _ => True) (fun h w m => OwnCache state w ∧ Confined h m)
    (fun _ => none) (fun i request => serve_confined request.session request.request) hidle
    _ _ _ _ _ run fun _ _ => trivial
  · refine ⟨hcache, fun k i request hk => ?_, fun k i t c template page hk => ?_⟩
    · obtain ⟨t, hk⟩ := hk
      cases hk
    · cases hk.1
  · exact fun h s m i request run hI hi => ⟨hI.1, hI.2.start run hi⟩
  · intro h s m i c e k hI hrun _ hallows
    have hdone : (confined state).answers (m i) e (act services c e s.world).1 ∧
        OwnCache state (act services c e s.world).2 := act_confined hI.1 hallows
    refine ⟨hdone.1, hdone.2, ?_⟩
    rw [confined, Function.update_eq_self]
    apply hI.2.snoc
    · simp
    · intro t j c' template page hx hnext
      cases hx
      obtain rfl : e = .render template page :=
        Option.some.inj ((Pool.nextEffect_eq_some.mpr ⟨k, hrun⟩).symm.trans hnext)
      exact hallows
  · exact fun h s m i hI => ⟨hI.1, hI.2.snoc (by simp) (by simp)⟩
  · exact fun h s m x hI _ => ⟨env_ownCache hI.1 x, hI.2.snoc (by simp) (by simp)⟩

/-- Whatever fails and however they are interleaved, a request renders and answers with
pages of users and todos of its own session's account only, and in every state reached the
cache holds under a user's key no todo of anybody else. -/
theorem shown_to_owner (services : Services) (state : AppState) {s₀ s : ClientPool}
    {h : ClientHistory state} (run : Run (clients services state).step s₀ h s)
    (hidle : ∀ i, s₀.task i = .idle) (hcache : OwnCache state s₀.world) :
    OwnCache state s.world ∧
    ∀ k i request, StartedAt h k i request →
      (∀ q t c template page, System.PerformedAt h q i (.render template page) t c →
        OwnPage (request.session.map (·.userId)) page) ∧
      ∀ done, s.result i = some done → OwnAnswer done (request.session.map (·.userId)) := by
  obtain ⟨m, ⟨hkept, hm⟩, hobeys⟩ := run_confined run hidle hcache
  refine ⟨hkept, fun k i request hk => ?_⟩
  rw [← hm.started k i request hk]
  constructor
  · exact fun q t c template page => hm.rendered q i t c template page
  · exact fun done hdone => hobeys i _ (Pool.result_eq_some.mp hdone)

end Runs

/-- Ann adds a todo while Bob lists his. -/
def annAddsBobLists : List (Event Nat ClientRequest Choice (Mishap .plain)) :=
  [.start 0 ⟨some ⟨⟨1⟩, "correct horse"⟩, ⟨[], .plain, .create ⟨"tea"⟩⟩⟩,
    .start 1 ⟨some ⟨⟨2⟩, "battery staple"⟩, ⟨[], .plain, .list⟩⟩,
    .step 0 (.plain 0 ⟨3⟩), .step 1 (.plain 0 ⟨4⟩), .step 0 (.plain 0 ⟨5⟩),
    .step 0 (.plain 0 ⟨6⟩), .step 1 (.plain 0 ⟨7⟩), .step 1 (.plain 0 ⟨8⟩),
    .step 1 (.plain 0 ⟨9⟩), .step 0 (.plain 0 ⟨10⟩), .step 1 (.plain 0 ⟨11⟩),
    .step 0 (.plain 0 ⟨12⟩)]

/-- The page Ann is shown is hers. -/
theorem shown_to_owner_ann : ∃ h s response template page,
    Run.record (clients .plain .plain).step ⟨⟨⟨[annRow, bobRow], []⟩, fun _ => none⟩,
      fun _ => .idle⟩ annAddsBobLists = some (h, s) ∧
    s.result 0 = some (.ok response) ∧ response.body = .html template page ∧
    OwnPage (some ⟨1⟩) page := by
  have run : Run (clients .plain .plain).step ⟨⟨⟨[annRow, bobRow], []⟩, fun _ => none⟩,
      fun _ => .idle⟩ _ _ := Run.of_record annAddsBobLists rfl
  obtain ⟨_, hshown⟩ := shown_to_owner .plain .plain run (fun _ => rfl)
    (fun _ _ hentry => by cases hentry)
  have hanswer := (hshown 0 0 _ ⟨_, rfl⟩).2 _ rfl
  exact ⟨_, _, _, _, _, rfl, rfl, rfl, hanswer _ _ _ rfl rfl⟩

end TodoRust.Requests
