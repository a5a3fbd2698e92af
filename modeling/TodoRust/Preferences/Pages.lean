import TodoRust.App.Rules

/-!
# What the handlers show

Every handler but the switch leaves the preferences alone, and the pages of the
authenticated routes all show the ambient context with the profile's locale.
-/

namespace TodoRust.Preferences
open Lib Domain Storage App

/-- Pages show such contexts, and no preference is written. -/
def pages (shows : Context → Prop) : Monitor Effect Effect.Reply Unit where
  allows _ e :=
    match e with
    | .render _ context => shows context
    | .sql (.updatePreferences ..) => False
    | _ => True
  answers _ _ _ := True
  next _ _ _ := ()

/-- The routes whose pages are in the locale of the profile. -/
def showsProfile : Route → Bool
  | .index | .list | .create _ | .toggle _ => true
  | .delete _ | .updateLocale _ | .login _ | .signup _ => false

section Pages
variable {shows : Context → Prop} {state : AppState} {auth : AuthSession}
variable {context : RequestContext}

/-- Nothing is asked of the result. -/
def Ends {α : Type} (_ : α) (_ : Unit) : Prop := True

theorem listTodosCached_pages (userId : UserId) :
    Prog.Obeys (pages shows) Ends () (state.listTodosCached userId).run := by
  rw [AppState.listTodosCached_program]
  cases state.cache.pool with
  | false =>
      rw [if_neg Bool.false_ne_true, TodoRepository.listForUser_program]
      exact ⟨trivial, fun _ _ => trivial⟩
  | true =>
      refine ⟨trivial, fun reply _ => ?_⟩
      dsimp only
      cases Cache.decode state.todosJson reply with
      | some todos => trivial
      | none =>
          refine ⟨trivial, fun r _ => ?_⟩
          cases r with
          | error e => trivial
          | ok rows =>
              dsimp only
              unfold AppState.backfill
              split
              · exact ⟨trivial, fun _ _ => trivial⟩
              · trivial

theorem create_pages (userId : UserId) (new : NewTodo) :
    Prog.Obeys (pages shows) Ends () (TodoRepository.create userId new).run := by
  rw [TodoRepository.create_program]
  exact ⟨trivial, fun _ _ => ⟨trivial, fun _ _ => trivial⟩⟩

theorem toggle_pages (userId : UserId) (id : TodoId) :
    Prog.Obeys (pages shows) Ends () (TodoRepository.toggle userId id).run := by
  rw [TodoRepository.toggle_program]
  exact ⟨trivial, fun _ _ => trivial⟩

theorem delete_pages (userId : UserId) (id : TodoId) :
    Prog.Obeys (pages shows) Ends () (TodoRepository.delete userId id).run := by
  rw [TodoRepository.delete_program]
  exact ⟨trivial, fun _ _ => trivial⟩

theorem invalidate_pages (userId : UserId) :
    Prog.Obeys (pages shows) Ends () (state.invalidateTodosCache userId) := by
  rw [AppState.invalidateTodosCache_program]
  split
  · exact ⟨trivial, fun _ _ => trivial⟩
  · trivial

theorem renderPage_pages {status : Rust.StatusCode} {headers : Rust.HeaderMap}
    {template : String} {page : Context} (h : shows page) :
    Prog.Obeys (pages shows) Ends () (renderPage status headers template page).run := by
  apply obeys_renderPage
  · exact h
  · exact fun _ _ => trivial
  · exact fun _ _ => trivial

theorem redirectTo_pages (uri : String) :
    Prog.Obeys (pages shows) Ends () (redirectTo uri).run := by
  unfold redirectTo
  cases Rust.HeaderValue.fromStr uri with
  | none => trivial
  | some location => trivial

/-- The pages of an authenticated route show the context with the profile's locale. -/
theorem handle_pages {headers : Rust.HeaderMap} {route : Route}
    (hroute : showsProfile route = true)
    (hshows : ∀ user, auth.user = some user → ∀ extra : Context,
      extra.lookup "_locale" = none →
        shows (extra ++ baseContext (state.overrideFromProfile user context))) :
    Prog.Obeys (pages shows) Ends () (handle state auth ⟨headers, context, route⟩).run := by
  cases route with
  | index =>
      apply obeys_index
      · exact fun _ => redirectTo_pages "/login"
      · exact fun user _ => listTodosCached_pages user.id
      · exact fun user todos _ huser _ => renderPage_pages (hshows user huser [_, _] rfl)
      · exact fun _ _ _ => trivial
  | list =>
      apply obeys_list
      · exact fun _ => trivial
      · exact fun user _ => listTodosCached_pages user.id
      · exact fun user todos _ huser _ => renderPage_pages (hshows user huser [_] rfl)
      · exact fun _ _ _ => trivial
  | create new =>
      apply obeys_create
      · exact fun _ => trivial
      · exact fun _ => trivial
      · exact fun user _ => create_pages user.id new
      · exact fun user _ _ _ _ => invalidate_pages user.id
      · exact fun user todo _ huser _ => renderPage_pages (hshows user huser [_] rfl)
      · exact fun _ _ _ => trivial
  | toggle id =>
      apply obeys_toggle
      · exact fun _ => trivial
      · exact fun user _ => toggle_pages user.id ⟨id⟩
      · exact fun user _ _ _ _ => invalidate_pages user.id
      · exact fun user todo _ huser _ => renderPage_pages (hshows user huser [_] rfl)
      · exact fun _ _ _ => trivial
  | delete | updateLocale | login | signup => cases hroute

theorem redirectAfterForm_pages (headers : Rust.HeaderMap) (target : String) :
    Prog.Obeys (pages shows) Ends () (redirectAfterForm headers target).run := by
  unfold redirectAfterForm
  split
  · dsimp only
    split
    · trivial
    · trivial
  · exact redirectTo_pages target

theorem login_pages (hshows : ∀ page, shows page) (headers : Rust.HeaderMap)
    (creds : Credentials) :
    Prog.Obeys (pages shows) Ends () (login state headers context creds).run := by
  have hverify : Prog.Obeys (pages shows) Ends ()
      (UserRepository.verify creds.email creds.password).run := by
    rw [UserRepository.verify_program]
    refine ⟨trivial, fun r _ => ?_⟩
    cases r with
    | error e => trivial
    | ok row => exact ⟨trivial, fun _ _ => trivial⟩
  unfold login
  dsimp only
  split
  · exact renderPage_pages (hshows _)
  · apply obeys_lift hverify
    rintro done _ _
    match done with
    | .error _ => trivial
    | .ok none => exact renderPage_pages (hshows _)
    | .ok (some user) =>
        refine ⟨trivial, fun reply _ => ?_⟩
        cases reply with
        | error e => trivial
        | ok u => exact redirectAfterForm_pages headers _

theorem signup_pages (hshows : ∀ page, shows page) (headers : Rust.HeaderMap) (new : NewUser) :
    Prog.Obeys (pages shows) Ends () (signup state headers context new).run := by
  have hcreate : Prog.Obeys (pages shows) Ends () (UserRepository.create new).run := by
    rw [UserRepository.create_program]
    refine ⟨trivial, fun id _ => ⟨trivial, fun hashed _ => ?_⟩⟩
    cases hashed with
    | error e => trivial
    | ok hash => exact ⟨trivial, fun _ _ => trivial⟩
  unfold signup
  dsimp only
  split
  · exact renderPage_pages (hshows _)
  · apply obeys_lift hcreate
    rintro done _ _
    match done with
    | .error (.conflict _) => exact renderPage_pages (hshows _)
    | .error .notFound | .error .invalidCredentials | .error .hashing
    | .error (.database _) | .error (.join _) => trivial
    | .ok user =>
        refine ⟨trivial, fun reply _ => ?_⟩
        cases reply with
        | error e => trivial
        | ok u => exact redirectAfterForm_pages headers _

/-- Only the switch writes a preference. -/
theorem handle_keeps (auth : AuthSession) {request : Request}
    (h : ∀ locale, request.route ≠ .updateLocale locale) :
    Prog.Obeys (pages fun _ => True) Ends () (handle state auth request).run := by
  obtain ⟨headers, context, route⟩ := request
  cases route with
  | updateLocale locale => exact absurd rfl (h locale)
  | login creds => exact login_pages (fun _ => trivial) headers creds
  | signup new => exact signup_pages (fun _ => trivial) headers new
  | delete id =>
      apply obeys_delete
      · exact fun _ => trivial
      · exact fun user _ => delete_pages user.id ⟨id⟩
      · exact fun user _ _ _ => invalidate_pages user.id
      · exact fun _ _ => trivial
      · exact fun _ _ _ => trivial
  | index | list | create | toggle => exact handle_pages rfl fun _ _ _ _ => trivial

end Pages

end TodoRust.Preferences
