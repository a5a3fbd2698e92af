import TodoRust.Storage.Repo

/-!
# The cache helper

Get-or-compute over Redis with explicit invalidation. No cache failure reaches
the caller: a failing read is a miss, and a failing write is dropped.
-/

namespace TodoRust.App
open Lib Storage

/-- `serde_json` for one type. A written value reads back as itself; writing
fails for a value with no JSON form. -/
structure Serde (T : Type) where
  toString : T → Option String
  fromStr : String → Option T
  fromStr_toString : ∀ {value raw}, toString value = some raw → fromStr raw = some value

/-- The pool is present when Redis is configured and reachable. -/
structure Cache where
  pool : Bool
  defaultTtl : Nat

namespace Cache
variable {T ε : Type} (self : Cache) (serde : Serde T)

def isEnabled : Bool := self.pool

/-- The value of a reply to `GET`. -/
def decode : Except String (Option String) → Option T
  | .ok (some raw) => serde.fromStr raw
  | .ok none => none
  | .error _ => none

def get (key : String) : Action (Option T) :=
  if self.pool then .op (.redisGet key) fun reply => .ret (decode serde reply) else .ret none

def put (key : String) (value : T) (ttl : Option Nat) : Action Unit :=
  if self.pool then
    match serde.toString value with
    | some raw => .op (.redisSet key raw (ttl.getD self.defaultTtl)) fun _ => .ret ()
    | none => .ret ()
  else .ret ()

def invalidate (key : String) : Action Unit :=
  if self.pool then .op (.redisDel key) fun _ => .ret () else .ret ()

def getOrCompute (key : String) (ttl : Option Nat)
    (compute : ExceptT ε (Prog Effect Effect.Reply) T) : ExceptT ε (Prog Effect Effect.Reply) T :=
  do
    match ← ExceptT.lift (self.get serde key) with
    | some value => return value
    | none =>
        let value ← compute
        ExceptT.lift (self.put serde key value ttl)
        return value

/-- What is read comes from an entry. -/
theorem decode_redisGet {services : Services} {c : Choice} {w : World} {key : String} {value : T}
    (h : decode serde (act services c (.redisGet key) w).1 = some value) :
    ∃ entry, w.redis key = some entry ∧ serde.fromStr entry.raw = some value := by
  unfold act at h
  cases hfault : c.fault with
  | some message =>
      rw [hfault] at h
      cases h
  | none =>
      simp only [hfault] at h
      cases hvalue : w.redisValue c.now key with
      | none =>
          rw [hvalue] at h
          cases h
      | some raw =>
          rw [hvalue] at h
          obtain ⟨entry, hentry, rfl, _⟩ := World.redisValue_eq_some hvalue
          exact ⟨entry, hentry, h⟩

end Cache

end TodoRust.App
