import TodoRust.Rust.Str
import Mathlib.Data.Nat.Notation

/-!
# IP addresses and their textual form

The parser follows `core::net`: a state is the input left, and every reader
returns its value with the rest of the input or fails without consuming any.
-/

namespace TodoRust.Rust

inductive IpAddr
  | v4 (bits : BitVec 32)
  | v6 (bits : BitVec 128)
  deriving DecidableEq

namespace IpAddr

/-- `Ipv4Addr::UNSPECIFIED`, as an `IpAddr`. -/
def unspecified : IpAddr := .v4 0

/-- `char::to_digit` -/
def toDigit (radix : Nat) (c : Char) : Option Nat :=
  let value? :=
    if '0' ≤ c ∧ c ≤ '9' then some (c.toNat - '0'.toNat)
    else if 'a' ≤ c ∧ c ≤ 'z' then some (c.toNat - 'a'.toNat + 10)
    else if 'A' ≤ c ∧ c ≤ 'Z' then some (c.toNat - 'A'.toNat + 10)
    else none
  value?.filter fun v => v < radix

/-- The digits at the front of the input and the rest. -/
def digits (radix : Nat) : List Char → List Nat × List Char
  | [] => ([], [])
  | c :: cs =>
      match toDigit radix c with
      | some v => let (vs, rest) := digits radix cs; (v :: vs, rest)
      | none => ([], c :: cs)

/-- `Parser::read_number` with a digit limit; `bound` is one more than the
largest value of the target type. -/
def readNumber (radix maxDigits bound : Nat) (allowZeroPrefix : Bool) (p : List Char) :
    Option (Nat × List Char) :=
  let hasLeadingZero := p.head? == some '0'
  let (vs, rest) := digits radix p
  let result := vs.foldl (fun acc v => acc * radix + v) 0
  if vs.length > maxDigits then none
  else if vs.length = 0 then none
  else if !allowZeroPrefix && hasLeadingZero && vs.length > 1 then none
  else if result < bound then some (result, rest)
  else none

/-- `Parser::read_given_char` -/
def readGivenChar (target : Char) : List Char → Option (List Char)
  | [] => none
  | c :: cs => if c = target then some cs else none

/-- `Parser::read_separator`: the separator stands before every item but the first. -/
def readSeparator {α : Type} (sep : Char) (index : Nat)
    (inner : List Char → Option (α × List Char)) (p : List Char) : Option (α × List Char) :=
  if index > 0 then (readGivenChar sep p).bind inner else inner p

/-- `Parser::read_ipv4_addr`, as four octets. -/
def readIpv4Addr (p : List Char) : Option (List Nat × List Char) := do
  let octet := readNumber 10 3 256 false
  let (a, p) ← readSeparator '.' 0 octet p
  let (b, p) ← readSeparator '.' 1 octet p
  let (c, p) ← readSeparator '.' 2 octet p
  let (d, p) ← readSeparator '.' 3 octet p
  return ([a, b, c, d], p)

/-- `read_groups`: the groups from index `i` on, whether they end in an embedded
IPv4 address, and the rest of the input. `fuel` counts the slots left. -/
def readGroups (limit : Nat) : (fuel i : Nat) → List Char → List Nat × Bool × List Char
  | 0, _, p => ([], false, p)
  | fuel + 1, i, p =>
      let ipv4 := if i + 1 < limit then readSeparator ':' i readIpv4Addr p else none
      match ipv4 with
      | some ([a, b, c, d], rest) => ([a * 256 + b, c * 256 + d], true, rest)
      | _ =>
          match readSeparator ':' i (readNumber 16 4 65536 true) p with
          | some (g, rest) =>
              let (gs, embedded, rest) := readGroups limit fuel (i + 1) rest
              (g :: gs, embedded, rest)
          | none => ([], false, p)

/-- `Parser::read_ipv6_addr`, as eight groups. -/
def readIpv6Addr (p : List Char) : Option (List Nat × List Char) :=
  let (head, headIpv4, p) := readGroups 8 8 0 p
  if head.length = 8 then some (head, p)
  else if headIpv4 then none
  else do
    let p ← readGivenChar ':' p
    let p ← readGivenChar ':' p
    let limit := 8 - (head.length + 1)
    let (tail, _, p) := readGroups limit limit 0 p
    return (head ++ List.replicate (8 - head.length - tail.length) 0 ++ tail, p)

/-- `Parser::read_ip_addr` -/
def readIpAddr (p : List Char) : Option (IpAddr × List Char) :=
  match readIpv4Addr p with
  | some (octets, rest) =>
      some (.v4 (BitVec.ofNat 32 (octets.foldl (fun acc o => acc * 256 + o) 0)), rest)
  | none =>
      (readIpv6Addr p).map fun (groups, rest) =>
        (.v6 (BitVec.ofNat 128 (groups.foldl (fun acc g => acc * 65536 + g) 0)), rest)

/-- `IpAddr::from_str`: the whole input must be one address. -/
def fromStr (s : List Char) : Option IpAddr :=
  match readIpAddr s with
  | some (ip, []) => some ip
  | _ => none

example : fromStr "203.0.113.7".toList = some (.v4 0xCB007107) := by decide
example : fromStr "::ffff:1.2.3.4".toList = some (.v6 0xFFFF01020304) := by decide
example : fromStr "203.0.113.7:443".toList = none := by decide

end IpAddr

structure SocketAddr where
  ip : IpAddr
  port : Nat
  scopeId : Nat
  deriving DecidableEq

namespace SocketAddr
open IpAddr

/-- `Parser::read_port` -/
def readPort (p : List Char) : Option (Nat × List Char) :=
  (readGivenChar ':' p).bind (readNumber 10 p.length 65536 true)

/-- `Parser::read_scope_id` -/
def readScopeId (p : List Char) : Option (Nat × List Char) :=
  (readGivenChar '%' p).bind (readNumber 10 p.length 4294967296 true)

/-- `Parser::read_socket_addr_v4` -/
def readSocketAddrV4 (p : List Char) : Option (SocketAddr × List Char) := do
  let (octets, p) ← readIpv4Addr p
  let (port, p) ← readPort p
  return (⟨.v4 (BitVec.ofNat 32 (octets.foldl (fun acc o => acc * 256 + o) 0)), port, 0⟩, p)

/-- `Parser::read_socket_addr_v6` -/
def readSocketAddrV6 (p : List Char) : Option (SocketAddr × List Char) := do
  let p ← readGivenChar '[' p
  let (groups, p) ← readIpv6Addr p
  let (scopeId, p) := (readScopeId p).getD (0, p)
  let p ← readGivenChar ']' p
  let (port, p) ← readPort p
  let bits := groups.foldl (fun acc g => acc * 65536 + g) 0
  return (⟨.v6 (BitVec.ofNat 128 bits), port, scopeId⟩, p)

/-- `SocketAddr::from_str` -/
def fromStr (s : List Char) : Option SocketAddr :=
  match (readSocketAddrV4 s).or (readSocketAddrV6 s) with
  | some (addr, []) => some addr
  | _ => none

example : fromStr "0.0.0.0:3000".toList = some ⟨.v4 0, 3000, 0⟩ := by decide
example : fromStr "[::1]:3000".toList = some ⟨.v6 1, 3000, 0⟩ := by decide
example : fromStr "localhost:3000".toList = none := by decide

end SocketAddr

end TodoRust.Rust
