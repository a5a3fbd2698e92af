import TodoRust.Lib.Pool
import TodoRust.Storage.Database

/-!
# The world the program acts on

Everything the handlers do outside pure computation is one of the effects
below: a database statement, a cache command, a session write, a template
render, a password hash or a fresh UUID. Each effect is one atomic step on the
tables and the cache; a choice says what the environment contributes to it.
-/

namespace TodoRust
open Lib Domain Storage

/-- A value in a template context. -/
inductive Value
  | str (s : String)
  | bool (b : Bool)
  | none
  | user (u : User)
  | todo (t : Todo)
  | todos (ts : List Todo)
  deriving DecidableEq

/-- `minijinja::context!` -/
abbrev Context := List (String × Value)

/-- The `password_auth` crate; hashing draws a salt. -/
structure PasswordAuth where
  generateHash : (salt password : String) → String
  verifyPassword : (password hash : String) → Bool

/-- The services behind the program. -/
structure Services where
  pg : Postgres
  passwords : PasswordAuth

/-- Services for concrete runs: ASCII `LOWER`, and a hash that keeps the password. -/
def Services.plain : Services where
  pg := { lower := fun s => String.ofList (s.toList.map Char.toLower), storesText := noNul }
  passwords := { generateHash := fun _ password => password, verifyPassword := (· == ·) }

inductive Effect
  | sql (stmt : Statement)
  | newUuid
  | generateHash (password : String)
  | verifyPassword (password hash : String)
  | redisGet (key : String)
  | redisSet (key raw : String) (seconds : Nat)
  | redisDel (key : String)
  | sessionLogin (user : User)
  | render (template : String) (context : Context)
  deriving DecidableEq

/-- The statement an effect sends. -/
def Effect.statement? : Effect → Option Statement
  | .sql stmt => some stmt
  | _ => none

/-- The reply to an effect; an error carries its message. -/
@[reducible] def Effect.Reply : Effect → Type
  | .sql stmt => Except SqlxError stmt.Rows
  | .newUuid => Uuid
  | .generateHash _ => Except String String
  | .verifyPassword .. => Except String Bool
  | .redisGet _ => Except String (Option String)
  | .redisSet .. | .redisDel _ | .sessionLogin _ | .render .. => Except String Unit

/-- A computation of the program. -/
abbrev Action (α : Type) := Prog Effect Effect.Reply α

/-- What the environment contributes to one effect: the clock, a fresh UUID, a
salt, and possibly a failure. A failing cache command may have taken effect. -/
structure Choice where
  now : OffsetDateTime
  uuid : Uuid
  salt : String
  fault : Option String
  tookEffect : Bool
  deriving DecidableEq

/-- A step without failure at time `now`. -/
def Choice.plain (now : OffsetDateTime) (uuid : Uuid) : Choice where
  now := now
  uuid := uuid
  salt := ""
  fault := none
  tookEffect := false

/-- The event is no failing step. -/
def NoFault {ι J X : Type} : Event ι J Choice X → Prop
  | .step _ c => c.fault = none
  | _ => True

instance {ι J X : Type} : DecidablePred (NoFault : Event ι J Choice X → Prop) := fun e => by
  unfold NoFault
  split <;> infer_instance

structure RedisEntry where
  raw : String
  expiresAt : OffsetDateTime
  deriving DecidableEq

structure World where
  db : Database
  redis : String → Option RedisEntry

/-- The accounts of the concrete runs. -/
def annRow : UserRow :=
  ⟨⟨1⟩, "ann@example.org", "correct horse", 0, 0, none, none⟩

def bobRow : UserRow :=
  ⟨⟨2⟩, "bob@example.org", "battery staple", 0, 0, none, none⟩

/-- A world for concrete runs: one account, no todos, an empty cache. -/
def World.plain : World where
  db := { users := [annRow], todos := [] }
  redis _ := none

namespace World

def setRedis (w : World) (key : String) (entry : Option RedisEntry) : World :=
  { w with redis := Function.update w.redis key entry }

theorem setRedis_redis (w : World) (key : String) (entry : Option RedisEntry) (other : String) :
    (w.setRedis key entry).redis other = if other = key then entry else w.redis other := by
  simp [setRedis, Function.update_apply]

/-- The value stored under a key, unless its time is over. -/
def redisValue (w : World) (now : OffsetDateTime) (key : String) : Option String :=
  match w.redis key with
  | some entry => if now < entry.expiresAt then some entry.raw else none
  | none => none

theorem redisValue_eq_some {w : World} {now : OffsetDateTime} {key raw : String}
    (h : w.redisValue now key = some raw) :
    ∃ entry, w.redis key = some entry ∧ entry.raw = raw ∧ now < entry.expiresAt := by
  unfold redisValue at h
  cases he : w.redis key with
  | none => simp [he] at h
  | some entry =>
      simp only [he, Option.ite_none_right_eq_some, Option.some.injEq] at h
      exact ⟨entry, rfl, h.2, h.1⟩

end World

/-- The reply of a command whose effect is `done`. A fault replaces the reply,
and undoes the effect unless the command had already taken it. -/
def command (c : Choice) (w done : World) : Except String Unit × World :=
  match c.fault with
  | some message => (.error message, if c.tookEffect then done else w)
  | none => (.ok (), done)

/-- One effect as an atomic step. A statement that fails has not run; a cache or session
command that fails may have taken effect. -/
def act (services : Services) (c : Choice) (e : Effect) (w : World) : e.Reply × World :=
  match e with
  | .sql stmt =>
      match c.fault with
      | some message => (.error (.other message), w)
      | none =>
          let (reply, db) := w.db.exec services.pg c.now stmt
          (reply, { w with db })
  | .newUuid => (c.uuid, w)
  | .generateHash password =>
      match c.fault with
      | some message => (.error message, w)
      | none => (.ok (services.passwords.generateHash c.salt password), w)
  | .verifyPassword password hash =>
      match c.fault with
      | some message => (.error message, w)
      | none => (.ok (services.passwords.verifyPassword password hash), w)
  | .redisGet key =>
      match c.fault with
      | some message => (.error message, w)
      | none => (.ok (w.redisValue c.now key), w)
  | .redisSet key raw seconds =>
      command c w (w.setRedis key (some { raw, expiresAt := c.now + 1000000 * seconds }))
  | .redisDel key => command c w (w.setRedis key none)
  | .sessionLogin _ => command c w w
  | .render .. => command c w w

section Act
variable {services : Services} {c : Choice} {w : World}

/-- A failing statement does not run. -/
theorem act_sql (stmt : Statement) :
    act services c (.sql stmt) w =
      match c.fault with
      | some message => (.error (.other message), w)
      | none => ((w.db.exec services.pg c.now stmt).1,
          { w with db := (w.db.exec services.pg c.now stmt).2 }) := by
  unfold act
  cases c.fault with
  | some message => rfl
  | none => rfl

theorem command_db {done : World} (h : done.db = w.db) : (command c w done).2.db = w.db := by
  unfold command
  cases c.fault with
  | none => exact h
  | some message =>
      cases c.tookEffect with
      | false => rfl
      | true => exact h

/-- Only a statement touches the tables. -/
theorem act_db {e : Effect} (h : ∀ stmt, e ≠ .sql stmt) : (act services c e w).2.db = w.db := by
  cases e with
  | sql stmt => exact absurd rfl (h stmt)
  | newUuid => rfl
  | generateHash | verifyPassword | redisGet =>
      unfold act
      cases c.fault with
      | none => rfl
      | some message => rfl
  | redisSet | redisDel | sessionLogin | render => exact command_db rfl

/-- A cache entry comes from a `SET` of its text, and lives as long as that says. -/
theorem act_redis_appears {e : Effect} {key : String} {entry : RedisEntry}
    (hbefore : w.redis key ≠ some entry) (hafter : (act services c e w).2.redis key = some entry) :
    ∃ seconds, e = .redisSet key entry.raw seconds ∧
      entry.expiresAt = c.now + 1000000 * seconds := by
  have hcommand : ∀ {done : World}, (command c w done).2.redis key = some entry →
      done.redis key = some entry := by
    intro done h
    unfold command at h
    cases hc : c.fault with
    | none => simpa [hc] using h
    | some message =>
        cases ht : c.tookEffect with
        | false => exact absurd (by simpa [hc, ht] using h) hbefore
        | true => simpa [hc, ht] using h
  cases e with
  | redisSet key' raw seconds =>
      have hset := hcommand hafter
      rw [World.setRedis_redis] at hset
      split at hset
      · rename_i hkey
        obtain rfl := Option.some.inj hset
        exact ⟨seconds, by rw [hkey], rfl⟩
      · exact absurd hset hbefore
  | redisDel key' =>
      have hdel := hcommand hafter
      rw [World.setRedis_redis] at hdel
      split at hdel
      · cases hdel
      · exact absurd hdel hbefore
  | sessionLogin | render => exact absurd (hcommand hafter) hbefore
  | sql stmt =>
      rw [act_sql] at hafter
      cases hc : c.fault with
      | none => exact absurd (by simpa [hc] using hafter) hbefore
      | some message => exact absurd (by simpa [hc] using hafter) hbefore
  | newUuid => exact absurd hafter hbefore
  | generateHash | verifyPassword | redisGet =>
      unfold act at hafter
      cases hc : c.fault with
      | none => exact absurd (by simpa [hc] using hafter) hbefore
      | some message => exact absurd (by simpa [hc] using hafter) hbefore

end Act

end TodoRust
