import TodoRust.App.Routes

/-!
# Rules for handlers

The sequencing rules of the judgement `Obeys`, at the shapes handlers are built
from: a repository call followed by `?`, a step that cannot fail, and a rendered
page at the end.
-/

namespace TodoRust.App
open Lib Domain Storage

variable {M α β : Type} {mon : Monitor Effect Effect.Reply M} {m : M}

/-- A repository call: its error ends the handler. -/
theorem obeys_call {mid : Except StorageError α → M → Prop} {post : Except Halt β → M → Prop}
    {c : Call α} {f : α → Handler β} (hc : Prog.Obeys mon mid m c.run)
    (hok : ∀ a m, mid (.ok a) m → Prog.Obeys mon post m (f a).run)
    (herr : ∀ e m, mid (.error e) m → post (.error (.error (AppError.fromStorage e))) m) :
    Prog.Obeys mon post m (Handler.call c >>= f).run := by
  rw [Handler.run_call_bind]
  apply hc.bind
  intro done m hm
  cases done with
  | ok a => exact hok a m hm
  | error e => exact herr e m hm

/-- A step whose result the handler inspects itself. -/
theorem obeys_lift {mid : α → M → Prop} {post : Except Halt β → M → Prop}
    {a : Action α} {f : α → Handler β} (ha : Prog.Obeys mon mid m a)
    (hf : ∀ a m, mid a m → Prog.Obeys mon post m (f a).run) :
    Prog.Obeys mon post m (ExceptT.lift a >>= f).run :=
  ha.bindLift hf

theorem renderPage_program (status : Rust.StatusCode) (headers : Rust.HeaderMap)
    (template : String) (context : Context) :
    (renderPage status headers template context).run =
      .op (.render template context) fun r =>
        match r with
        | .ok () => .ret (.ok (htmlResponse status headers template context))
        | .error _ => .ret (.error (.error .template)) := by
  refine congrArg (Prog.op _) (funext fun r => ?_)
  cases r with
  | ok u => rfl
  | error message => rfl

/-- A page: rendered and answered with, or `AppError::Template`. -/
theorem obeys_renderPage {post : Except Halt Response → M → Prop} {status : Rust.StatusCode}
    {headers : Rust.HeaderMap} {template : String} {context : Context}
    (hallows : mon.allows m (.render template context))
    (hok : ∀ r, mon.answers m (.render template context) r →
      post (.ok (htmlResponse status headers template context))
        (mon.next m (.render template context) r))
    (herr : ∀ r, mon.answers m (.render template context) r →
      post (.error (.error .template)) (mon.next m (.render template context) r)) :
    Prog.Obeys mon post m (renderPage status headers template context).run := by
  rw [renderPage_program]
  refine ⟨hallows, fun r hr => ?_⟩
  cases r with
  | ok u => exact hok _ hr
  | error message => exact herr _ hr

@[simp] theorem requireUser_some (user : User) (f : UserId → Handler β) :
    (requireUser ⟨some user⟩ >>= f) = f user.id := rfl

@[simp] theorem expect_some (message : String) (a : α) (f : α → Handler β) :
    (Handler.expect message (some a) >>= f) = f a := rfl

/-! ### The handlers

Each handler by its parts: what it owes without a user, its calls, and its answer. -/

section Handlers
variable {state : AppState} {auth : AuthSession} {context : RequestContext}
variable {post : Except Halt Response → M → Prop} {settled : M → Prop}

-- no rule looks into the text of the cookie
attribute [local irreducible] localeCookie

theorem obeys_index {mid : Except StorageError (List Todo) → M → Prop}
    (hnone : auth.user = none → Prog.Obeys mon post m (redirectTo "/login").run)
    (hlist : ∀ user, auth.user = some user →
      Prog.Obeys mon mid m (state.listTodosCached user.id).run)
    (hpage : ∀ user todos m, auth.user = some user → mid (.ok todos) m →
      Prog.Obeys mon post m (renderPage Rust.StatusCode.ok [] "index.html"
        ([("user", .user user), ("todos", .todos todos)] ++
          baseContext (state.overrideFromProfile user context))).run)
    (herror : ∀ e m, mid (.error e) m → post (.error (.error (AppError.fromStorage e))) m) :
    Prog.Obeys mon post m (index state auth context).run := by
  obtain ⟨user⟩ := auth
  cases user with
  | none => exact hnone rfl
  | some user =>
      apply obeys_call (hlist user rfl)
      · exact fun todos m hm => hpage user todos m rfl hm
      · exact herror

theorem obeys_list {mid : Except StorageError (List Todo) → M → Prop}
    (hnone : auth.user = none → post (.error (.error .unauthorized)) m)
    (hlist : ∀ user, auth.user = some user →
      Prog.Obeys mon mid m (state.listTodosCached user.id).run)
    (hpage : ∀ user todos m, auth.user = some user → mid (.ok todos) m →
      Prog.Obeys mon post m (renderPage Rust.StatusCode.ok [] "partials/todo_list.html"
        (("todos", .todos todos) :: baseContext (state.overrideFromProfile user context))).run)
    (herror : ∀ e m, mid (.error e) m → post (.error (.error (AppError.fromStorage e))) m) :
    Prog.Obeys mon post m (list state auth context).run := by
  obtain ⟨user⟩ := auth
  cases user with
  | none => exact hnone rfl
  | some user =>
      simp only [list, requireUser_some, expect_some]
      apply obeys_call (hlist user rfl)
      · exact fun todos m hm => hpage user todos m rfl hm
      · exact herror

/-- A write, its invalidation, and the answer. -/
theorem obeys_write {mid : Except StorageError α → M → Prop} {c : Call α} {userId : UserId}
    {answer : α → Handler Response} (hcall : Prog.Obeys mon mid m c.run)
    (hinvalidate : ∀ a m, mid (.ok a) m →
      Prog.Obeys mon (fun _ => settled) m (state.invalidateTodosCache userId))
    (hanswer : ∀ a m, settled m → Prog.Obeys mon post m (answer a).run)
    (herror : ∀ e m, mid (.error e) m → post (.error (.error (AppError.fromStorage e))) m) :
    Prog.Obeys mon post m (do
      let a ← Handler.call c
      ExceptT.lift (state.invalidateTodosCache userId)
      answer a : Handler Response).run := by
  apply obeys_call hcall
  · intro a m hm
    apply obeys_lift (hinvalidate a m hm)
    exact fun _ m hm => hanswer a m hm
  · exact herror

theorem obeys_create {mid : Except StorageError Todo → M → Prop} {new : NewTodo}
    (hnone : auth.user = none → post (.error (.error .unauthorized)) m)
    (hinvalid : ∀ message, post (.error (.error (.validation message))) m)
    (hcreate : ∀ user, auth.user = some user →
      Prog.Obeys mon mid m (TodoRepository.create user.id new).run)
    (hinvalidate : ∀ user todo m, auth.user = some user → mid (.ok todo) m →
      Prog.Obeys mon (fun _ => settled) m (state.invalidateTodosCache user.id))
    (hpage : ∀ user todo m, auth.user = some user → settled m →
      Prog.Obeys mon post m (renderPage Rust.StatusCode.created [] "partials/todo.html"
        (("todo", .todo todo) :: baseContext (state.overrideFromProfile user context))).run)
    (herror : ∀ e m, mid (.error e) m → post (.error (.error (AppError.fromStorage e))) m) :
    Prog.Obeys mon post m (create state auth context new).run := by
  obtain ⟨user⟩ := auth
  cases user with
  | none => exact hnone rfl
  | some user =>
      simp only [create, requireUser_some, expect_some]
      split
      · exact hinvalid _
      · apply obeys_write (hcreate user rfl)
        · exact fun todo m hm => hinvalidate user todo m rfl hm
        · exact fun todo m hm => hpage user todo m rfl hm
        · exact herror

theorem obeys_toggle {mid : Except StorageError Todo → M → Prop} {id : Uuid}
    (hnone : auth.user = none → post (.error (.error .unauthorized)) m)
    (htoggle : ∀ user, auth.user = some user →
      Prog.Obeys mon mid m (TodoRepository.toggle user.id ⟨id⟩).run)
    (hinvalidate : ∀ user todo m, auth.user = some user → mid (.ok todo) m →
      Prog.Obeys mon (fun _ => settled) m (state.invalidateTodosCache user.id))
    (hpage : ∀ user todo m, auth.user = some user → settled m →
      Prog.Obeys mon post m (renderPage Rust.StatusCode.ok [] "partials/todo.html"
        (("todo", .todo todo) :: baseContext (state.overrideFromProfile user context))).run)
    (herror : ∀ e m, mid (.error e) m → post (.error (.error (AppError.fromStorage e))) m) :
    Prog.Obeys mon post m (toggle state auth context id).run := by
  obtain ⟨user⟩ := auth
  cases user with
  | none => exact hnone rfl
  | some user =>
      simp only [toggle, requireUser_some, expect_some]
      apply obeys_write (htoggle user rfl)
      · exact fun todo m hm => hinvalidate user todo m rfl hm
      · exact fun todo m hm => hpage user todo m rfl hm
      · exact herror

theorem obeys_delete {mid : Except StorageError Unit → M → Prop} {id : Uuid}
    (hnone : auth.user = none → post (.error (.error .unauthorized)) m)
    (hdelete : ∀ user, auth.user = some user →
      Prog.Obeys mon mid m (TodoRepository.delete user.id ⟨id⟩).run)
    (hinvalidate : ∀ user m, auth.user = some user → mid (.ok ()) m →
      Prog.Obeys mon (fun _ => settled) m (state.invalidateTodosCache user.id))
    (hok : ∀ m, settled m → post (.ok (StatusCode.intoResponse Rust.StatusCode.ok)) m)
    (herror : ∀ e m, mid (.error e) m → post (.error (.error (AppError.fromStorage e))) m) :
    Prog.Obeys mon post m (delete state auth id).run := by
  obtain ⟨user⟩ := auth
  cases user with
  | none => exact hnone rfl
  | some user =>
      simp only [delete, requireUser_some]
      apply obeys_write (hdelete user rfl)
      · exact fun _ m hm => hinvalidate user m rfl hm
      · exact fun _ m hm => hok m hm
      · exact herror

/-- The switch, with its answer as one part: the cookie and the response. -/
theorem obeys_updateLocale {mid : Except StorageError Unit → M → Prop}
    {headers : Rust.HeaderMap} {locale : String}
    (hunknown : ∀ message, post (.error (.error (.validation message))) m)
    (hnone : auth.user = none → settled m)
    (hupdate : ∀ user candidate, auth.user = some user →
      Prog.Obeys mon mid m (UserRepository.updatePreferences user.id (some candidate) none).run)
    (hsettled : ∀ m, mid (.ok ()) m → settled m)
    (hanswer : ∀ candidate m, I18n.supported.contains candidate = true → settled m →
      Prog.Obeys mon post m (do
        let cookie ← Handler.expect "valid cookie" (localeCookie state candidate)
        return localeResponse headers cookie : Handler Response).run)
    (herror : ∀ e m, mid (.error e) m → post (.error (.error (AppError.fromStorage e))) m) :
    Prog.Obeys mon post m (updateLocale state auth headers locale).run := by
  obtain ⟨user⟩ := auth
  unfold updateLocale
  dsimp only
  generalize Rust.trim locale = candidate
  cases hknown : I18n.supported.contains candidate with
  | false => exact hunknown _
  | true =>
      cases user with
      | none => exact hanswer candidate m hknown (hnone rfl)
      | some user =>
          apply obeys_call (hupdate user candidate rfl)
          · exact fun _ m hm => hanswer candidate m hknown (hsettled m hm)
          · exact herror

end Handlers

/-- The cookie of a supported locale is read back as it was written. -/
theorem localeCookie_toStr (state : AppState) {candidate : String}
    (h : candidate ∈ I18n.supported) :
    (localeCookie state candidate).bind Rust.HeaderValue.toStr =
      some ("locale=" ++ candidate ++ "; Path=/; Max-Age=31536000; SameSite=Lax" ++
        if state.cookieSecure then "; Secure" else "") := by
  have hsupported : (I18n.supported.all fun s => s.toList.all Rust.isVisibleChar) = true := by
    decide
  have hcandidate : candidate.toList.all Rust.isVisibleChar = true :=
    List.all_eq_true.mp hsupported candidate h
  have hsecure : (if state.cookieSecure then "; Secure" else "").toList.all Rust.isVisibleChar =
      true := by
    cases state.cookieSecure with
    | false => decide
    | true => decide
  apply Rust.HeaderValue.toStr_fromStr
  simp only [String.toList_append, List.all_append, hcandidate, hsecure, Bool.and_true]
  decide

/-- The cookie of a supported locale is a header value. -/
theorem localeCookie_isSome {state : AppState} {candidate : String}
    (h : I18n.supported.contains candidate = true) :
    (localeCookie state candidate).isSome = true := by
  have hread := localeCookie_toStr state (List.contains_iff_mem.mp h)
  cases hcookie : localeCookie state candidate with
  | none =>
      rw [hcookie] at hread
      cases hread
  | some cookie => rfl

end TodoRust.App
