import TodoRust.Domain.Uuid
import TodoRust.Rust.Str

/-!
# Domain types and their validation

The types of the domain crate, and the `Validate` implementations derived for
the ones that come from forms. Whether a string is an email address is decided
by the validator library, so it is a parameter.
-/

namespace TodoRust.Domain
open Rust

/-- `time::OffsetDateTime`, as microseconds since the Unix epoch. -/
abbrev OffsetDateTime := Int

structure UserId where
  uuid : Uuid
  deriving DecidableEq

structure TodoId where
  uuid : Uuid
  deriving DecidableEq

structure User where
  id : UserId
  email : String
  passwordHash : String
  createdAt : OffsetDateTime
  locale : Option String
  timezone : Option String
  deriving DecidableEq

structure Todo where
  id : TodoId
  ownerId : UserId
  title : String
  completed : Bool
  createdAt : OffsetDateTime
  updatedAt : OffsetDateTime
  deriving DecidableEq

structure NewTodo where
  title : String

structure TodoUpdate where
  title : Option String
  completed : Option Bool

structure NewUser where
  email : String
  password : String

structure Credentials where
  email : String
  password : String
  next : Option String

structure ValidationError where
  code : String
  message : Option String
  deriving DecidableEq

/-- The errors of each field, in the order the field map is iterated. -/
abbrev ValidationErrors := List (String × List ValidationError)

/-- `validate_length`, which counts Unicode scalar values. -/
def validateLength (min max : Nat) (s : String) : Bool :=
  min ≤ s.toList.length && s.toList.length ≤ max

/-- The entry of one failed field check. -/
def fieldError (ok : Bool) (field code message : String) : ValidationErrors :=
  if ok then [] else [(field, [{ code := code, message := some message }])]

def NewTodo.validate (self : NewTodo) : ValidationErrors :=
  fieldError (validateLength 1 280 self.title) "title" "length" "validation-todo-title-length"

def TodoUpdate.validate (self : TodoUpdate) : ValidationErrors :=
  match self.title with
  | none => []
  | some title =>
      fieldError (validateLength 1 280 title) "title" "length" "validation-todo-title-length"

section Email
variable (validateEmail : String → Bool)

def NewUser.validate (self : NewUser) : ValidationErrors :=
  fieldError (validateEmail self.email) "email" "email" "validation-email-invalid" ++
  fieldError (validateLength 12 256 self.password) "password" "length"
    "validation-password-too-short"

def Credentials.validate (self : Credentials) : ValidationErrors :=
  fieldError (validateEmail self.email) "email" "email" "validation-email-invalid" ++
  fieldError (validateLength 1 256 self.password) "password" "length"
    "validation-password-empty"

end Email

@[simp] theorem fieldError_eq_nil {ok : Bool} {field code message : String} :
    fieldError ok field code message = [] ↔ ok = true := by
  cases ok <;> simp [fieldError]

theorem validateLength_iff {min max : Nat} {s : String} :
    validateLength min max s = true ↔ min ≤ s.toList.length ∧ s.toList.length ≤ max := by
  simp [validateLength]

/-- A wider length range accepts what a narrower one accepts. -/
theorem validateLength_mono {min max min' max' : Nat} {s : String} (hmin : min' ≤ min)
    (hmax : max ≤ max') (h : validateLength min max s = true) :
    validateLength min' max' s = true := by
  rw [validateLength_iff] at h ⊢
  exact ⟨hmin.trans h.1, h.2.trans hmax⟩

/-- Whatever signs up can be submitted to log in. -/
theorem Credentials.validate_of_newUser {validateEmail : String → Bool} {new : NewUser}
    (h : new.validate validateEmail = []) (next : Option String) :
    Credentials.validate validateEmail ⟨new.email, new.password, next⟩ = [] := by
  simp only [NewUser.validate, Credentials.validate, List.append_eq_nil_iff,
    fieldError_eq_nil] at h ⊢
  exact ⟨h.1, validateLength_mono (by decide) le_rfl h.2⟩

end TodoRust.Domain
