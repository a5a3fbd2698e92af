import TodoRust.Rust.Http
import TodoRust.Storage.Repo

/-!
# Responses and errors

How a handler ends: with a response, with an `AppError` that becomes one, or
with a panic.
-/

namespace TodoRust.App
open Lib Domain Storage Rust

/-- A rendered page is kept as its template and context. -/
inductive Body
  | empty
  | text (s : String)
  | html (template : String) (context : Context)
  deriving DecidableEq

structure Response where
  status : StatusCode
  headers : HeaderMap
  body : Body
  deriving DecidableEq

/-- `StatusCode::into_response` -/
def StatusCode.intoResponse (status : StatusCode) : Response where
  status := status
  headers := []
  body := .empty

def contentTypeHtml : HeaderValue := ⟨asBytes "text/html; charset=utf-8", by decide⟩

def contentTypePlain : HeaderValue := ⟨asBytes "text/plain; charset=utf-8", by decide⟩

/-- `Html` with a status and further header lines. -/
def htmlResponse (status : StatusCode) (headers : HeaderMap) (template : String)
    (context : Context) : Response where
  status := status
  headers := ("content-type", contentTypeHtml) :: headers
  body := .html template context

inductive AppError
  | unauthorized
  | forbidden
  | notFound
  | conflict (message : String)
  | validation (message : String)
  | rateLimited
  | template
  | internal (message : String)
  deriving DecidableEq

namespace AppError

def status : AppError → StatusCode
  | .unauthorized => StatusCode.unauthorized
  | .forbidden => StatusCode.forbidden
  | .notFound => StatusCode.notFound
  | .conflict _ => StatusCode.conflict
  | .validation _ => StatusCode.unprocessableEntity
  | .rateLimited => StatusCode.tooManyRequests
  | .template | .internal _ => StatusCode.internalServerError

def body : AppError → String
  | .unauthorized => "unauthorized"
  | .forbidden => "forbidden"
  | .notFound => "not found"
  | .conflict m | .validation m | .internal m => m
  | .rateLimited => "too many requests"
  | .template => "template error"

def intoResponse (self : AppError) : Response where
  status := self.status
  headers := [("content-type", contentTypePlain)]
  body := .text self.body

/-- `From<StorageError>` -/
def fromStorage : StorageError → AppError
  | .notFound => .notFound
  | .conflict message => .conflict message
  | .invalidCredentials => .unauthorized
  | other => .internal other.toString

/-- Every error is answered by a 4xx or 5xx. -/
theorem le_status (e : AppError) : 400 ≤ e.status := by
  cases e <;> simp only [status] <;> decide

end AppError

/-- How a handler stops early. -/
inductive Halt
  | error (e : AppError)
  | panic (message : String)
  deriving DecidableEq

abbrev Handler (α : Type) := ExceptT Halt (Prog Effect Effect.Reply) α

namespace Handler

def fail {α : Type} (e : AppError) : Handler α := throw (.error e)

/-- `Option::expect` -/
def expect {α : Type} (message : String) : Option α → Handler α
  | some a => pure a
  | none => throw (.panic message)

/-- A repository call followed by `?`. -/
def call {α : Type} (c : Call α) : Handler α :=
  c.adapt fun e => .error (AppError.fromStorage e)

theorem run_call_bind {α β : Type} (c : Call α) (f : α → Handler β) :
    (call c >>= f).run = c.run >>= fun done =>
      match done with
      | .ok a => (f a).run
      | .error e => .ret (.error (.error (AppError.fromStorage e))) := by
  rw [call, ExceptT.run_bind, ExceptT.run_adapt, map_eq_pure_bind, bind_assoc]
  refine bind_congr fun done => ?_
  cases done with
  | ok a => rfl
  | error e => rfl

/-- The end of a handler, after `into_response`: a response or a panic. -/
def finish : Except Halt Response → Except String Response
  | .ok response => .ok response
  | .error (.error e) => .ok e.intoResponse
  | .error (.panic message) => .error message

end Handler

end TodoRust.App
