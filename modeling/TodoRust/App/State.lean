import TodoRust.App.Cache
import TodoRust.App.Error
import TodoRust.I18n.Locale

/-!
# Application state and rendering

What the handlers share: the configuration they read, the libraries they call,
the cached todo list, and the context every template receives.
-/

namespace TodoRust.App
open Lib Domain Storage I18n Rust

/-- The configuration the handlers read, and the parts of other crates. -/
structure AppState where
  cache : Cache
  cookieSecure : Bool
  devLoginEnabled : Bool
  /-- `Locales::lookup` without arguments. -/
  lookup : LanguageIdentifier → String → String
  /-- `LanguageIdentifier::from_str` -/
  parseLanguage : String → Option LanguageIdentifier
  /-- `time_tz::timezones::find_by_name` -/
  zonesByName : String → List Tz
  /-- The validator crate's email rule. -/
  validateEmail : String → Bool
  todosJson : Serde (List Todo)

/-- What the middleware leaves on a request. -/
structure RequestContext where
  locale : LanguageIdentifier
  tz : Tz
  cspNonce : String

def todosCacheKey (userId : UserId) : String := "todos:user:" ++ userId.uuid.toString

/-- Different users have different keys. -/
theorem todosCacheKey_injective : Function.Injective todosCacheKey := by
  intro u v h
  have htext : u.uuid.toString = v.uuid.toString := by
    have hlist := congrArg String.toList h
    simp only [todosCacheKey, String.toList_append, List.append_cancel_left_eq] at hlist
    exact String.toList_inj.mp hlist
  cases u
  cases v
  exact congrArg UserId.mk (Uuid.toString_injective htext)

namespace AppState
variable (self : AppState)

def listTodosCached (userId : UserId) : Call (List Todo) :=
  if !self.cache.isEnabled then TodoRepository.listForUser userId
  else
    let key := todosCacheKey userId
    self.cache.getOrCompute self.todosJson key (some 60) (TodoRepository.listForUser userId)

def invalidateTodosCache (userId : UserId) : Action Unit :=
  if !self.cache.isEnabled then .ret ()
  else self.cache.invalidate (todosCacheKey userId)

/-- `override_from_profile` -/
def overrideFromProfile (user : User) (request : RequestContext) : RequestContext :=
  { request with
    locale := match user.locale with
      | some s => if s ≠ "" then (self.parseLanguage s).getD request.locale else request.locale
      | none => request.locale
    tz := match user.timezone with
      | some s => if s ≠ "" then (parseTz self.zonesByName s).getD request.tz else request.tz
      | none => request.tz }

/-- `localize_validation_errors` -/
def localizeValidationErrors (locale : LanguageIdentifier) (errs : ValidationErrors) : String :=
  let parts := errs.flatMap fun (_, kind) =>
    kind.map fun e => self.lookup locale (e.message.getD e.code)
  if parts.isEmpty then self.lookup locale "validation-generic" else " ".intercalate parts

end AppState

namespace AppState
variable (self : AppState) (userId : UserId)

/-- The list is stored when it has a JSON form, and returned in any case. -/
def backfill (todos : List Todo) : Action (Except StorageError (List Todo)) :=
  match self.todosJson.toString todos with
  | some raw => .op (.redisSet (todosCacheKey userId) raw 60) fun _ => .ret (.ok todos)
  | none => .ret (.ok todos)

theorem listTodosCached_program :
    (self.listTodosCached userId).run =
      if self.cache.pool then
        .op (.redisGet (todosCacheKey userId)) fun reply =>
          match Cache.decode self.todosJson reply with
          | some todos => .ret (.ok todos)
          | none => .op (.sql (.selectTodos userId.uuid)) fun r =>
              match r with
              | .ok rows => self.backfill userId (rows.map rowToTodo)
              | .error e => .ret (.error (.database e))
      else (TodoRepository.listForUser userId).run := by
  unfold listTodosCached Cache.isEnabled
  cases hpool : self.cache.pool with
  | false => rfl
  | true =>
      simp only [Bool.not_true, Bool.false_eq_true, if_false, if_true, Cache.getOrCompute,
        Cache.get, hpool, ExceptT.run_bind_lift, Prog.op_bind, Prog.ret_bind]
      refine congrArg (Prog.op _) (funext fun reply => ?_)
      cases Cache.decode self.todosJson reply with
      | some todos => rfl
      | none =>
          simp only [ExceptT.run_bind, TodoRepository.listForUser_program, Prog.op_bind,
            Prog.ret_bind]
          refine congrArg (Prog.op _) (funext fun r => ?_)
          cases r with
          | error e => rfl
          | ok rows =>
              simp only [Except.map, Except.mapError, backfill, Cache.put, hpool, if_true]
              cases self.todosJson.toString (rows.map rowToTodo) with
              | none => rfl
              | some raw => rfl

theorem invalidateTodosCache_program :
    self.invalidateTodosCache userId =
      if self.cache.pool then .op (.redisDel (todosCacheKey userId)) fun _ => .ret ()
      else .ret () := by
  unfold invalidateTodosCache Cache.isEnabled Cache.invalidate
  cases self.cache.pool with
  | false => rfl
  | true => rfl

end AppState

/-- JSON for the empty list alone. -/
def emptyListJson : Serde (List Todo) where
  toString
    | [] => some "[]"
    | _ :: _ => none
  fromStr raw := if raw = "[]" then some [] else none
  fromStr_toString := by
    intro value raw h
    cases value with
    | nil =>
        rw [← Option.some.inj h]
        rfl
    | cons => cases h

/-- A deployment for concrete runs: the cache is on, and every message is its
own Fluent id. -/
def AppState.plain : AppState where
  cache := { pool := true, defaultTtl := 60 }
  cookieSecure := false
  devLoginEnabled := false
  lookup _ id := id
  parseLanguage s := if supported.contains s then some ⟨s, none, none, []⟩ else none
  zonesByName s := [utc].filter fun tz => tz.name = s
  validateEmail s := s.toList.contains '@'
  todosJson := emptyListJson

def RequestContext.plain : RequestContext where
  locale := ⟨"en", none, none, []⟩
  tz := utc
  cspNonce := ""

def baseContext (request : RequestContext) : Context :=
  [("_locale", .str request.locale.toString), ("_tz", .str request.tz.name),
    ("csp_nonce", .str request.cspNonce)]

/-- `Templates::render`: the page, or `AppError::Template`. -/
def render (template : String) (context : Context) : Handler Unit :=
  ExceptT.mk (Prog.op (.render template context) fun reply =>
    .ret (reply.mapError fun _ => .error .template))

end TodoRust.App
