import Mathlib.Algebra.Group.Nat.Defs
import Mathlib.Algebra.Ring.Int.Defs
import TodoRust.Rust.IpAddr

/-!
# Numbers and their textual form

`FromStr` and `Display` of `i64` and `f64`. A float is read as the binary64 nearest
to the decimal number, and written with the fewest digits that are read back as it,
without an exponent.
-/

namespace TodoRust.Rust

/-- `bool::from_str` -/
def boolFromStr (s : List Char) : Option Bool :=
  if s = "true".toList then some true else if s = "false".toList then some false else none

/-- The number a sequence of decimal digits spells. -/
def decimal (digits : List Nat) : Nat := digits.foldl (fun acc d => acc * 10 + d) 0

/-- A sign, if there is one, and the rest. -/
def readSign : List Char → Bool × List Char
  | '-' :: cs => (true, cs)
  | '+' :: cs => (false, cs)
  | cs => (false, cs)

/-- A whole input of a sign and digits. -/
def readInteger (s : List Char) : Option Int :=
  let (negative, cs) := readSign s
  match IpAddr.digits 10 cs with
  | ([], _) | (_, _ :: _) => none
  | (digits, []) => some (if negative then -decimal digits else decimal digits)

/-- `i64::from_str` -/
def i64FromStr (s : List Char) : Option Int :=
  (readInteger s).filter fun n => -2 ^ 63 ≤ n && n < 2 ^ 63

/-- `f64`: a finite one is `mantissa * 2 ^ exponent`, with a mantissa of 53 bits, or with
fewer at the least exponent. -/
inductive F64
  | nan
  | inf (negative : Bool)
  | finite (negative : Bool) (mantissa : Nat) (exponent : Int)
  deriving DecidableEq

namespace F64

/-- `num / den` as an integer, to the nearest and in a tie to the even one. -/
def roundHalfEven (num den : Nat) : Nat :=
  let q := num / den
  let r := num % den
  if den < 2 * r || (den == 2 * r && q % 2 == 1) then q + 1 else q

/-- The exponent of the float nearest to `num / den`. -/
def binaryExponent (num den : Nat) : Int :=
  let e : Int := num.log2 - den.log2
  -- the quotient is at least `2 ^ (e - 1)` and less than `2 ^ (e + 1)`
  let e := if den * 2 ^ e.toNat ≤ num * 2 ^ (-e).toNat then e else e - 1
  max (e - 52) (-1074)

/-- The float nearest to `num / den`. -/
def nearest (negative : Bool) (num den : Nat) : F64 :=
  if num = 0 then .finite negative 0 (-1074)
  else
    let exponent := binaryExponent num den
    let mantissa := roundHalfEven (num * 2 ^ (-exponent).toNat) (den * 2 ^ exponent.toNat)
    let (mantissa, exponent) :=
      if mantissa = 2 ^ 53 then (2 ^ 52, exponent + 1) else (mantissa, exponent)
    if 971 < exponent then .inf negative else .finite negative mantissa exponent

/-- The float nearest to `digits * 10 ^ exponent`. -/
def ofDecimal (negative : Bool) (digits : Nat) (exponent : Int) : F64 :=
  nearest negative (digits * 10 ^ exponent.toNat) (10 ^ (-exponent).toNat)

/-- `Exp ::= 'e' Sign? Digit+`, up to case, or nothing. -/
def readExponent : List Char → Option Int
  | [] => some 0
  | c :: cs => if c = 'e' || c = 'E' then readInteger cs else none

/-- `Number ::= ( Digit+ | Digit+ '.' Digit* | Digit* '.' Digit+ ) Exp?`, as digits and
an exponent of ten. -/
def readNumber (s : List Char) : Option (Nat × Int) :=
  let (whole, rest) := IpAddr.digits 10 s
  let (fraction, rest) := match rest with
    | '.' :: rest => IpAddr.digits 10 rest
    | rest => ([], rest)
  if whole.isEmpty && fraction.isEmpty then none
  else (readExponent rest).map fun e => (decimal (whole ++ fraction), e - fraction.length)

/-- `f64::from_str`: `Float ::= Sign? ( 'inf' | 'infinity' | 'nan' | Number )`, up to case. -/
def fromStr (s : List Char) : Option F64 :=
  let (negative, cs) := readSign s
  let word := cs.map Char.toLower
  if word = "nan".toList then some .nan
  else if word = "inf".toList || word = "infinity".toList then some (.inf negative)
  else (readNumber cs).map fun (digits, exponent) => ofDecimal negative digits exponent

/-- The number of decimal digits before the point of `num / den`, or minus the number of
zeros after it. -/
def decimalExponent (num den : Nat) : Int :=
  let e : Int := (Nat.toDigits 10 num).length - (Nat.toDigits 10 den).length
  if den * 10 ^ e.toNat ≤ num * 10 ^ (-e).toNat then e + 1 else e

/-- The decimal number of `precision` digits that is read back as the float, if there is
one, and the nearer if there are two. -/
def withDigits (mantissa : Nat) (exponent : Int) (precision : Nat) : Option (Nat × Int) :=
  let num := mantissa * 2 ^ exponent.toNat
  let den := 2 ^ (-exponent).toNat
  let e := decimalExponent num den - precision
  let num := num * 10 ^ (-e).toNat
  let den := den * 10 ^ e.toNat
  let readBack digits := ofDecimal false digits e == .finite false mantissa exponent
  let below := num / den
  if readBack (below + 1) && (!readBack below || den ≤ 2 * (num % den)) then some (below + 1, e)
  else if readBack below then some (below, e)
  else none

/-- The fewest digits; seventeen are always enough. -/
def shortest (mantissa : Nat) (exponent : Int) : Nat × Int :=
  ((List.range 17).findSome? fun n => withDigits mantissa exponent (n + 1)).getD (0, 0)

/-- `digits * 10 ^ exponent` without an exponent. -/
def writeDecimal (digits : Nat) (exponent : Int) : List Char :=
  let cs := Nat.toDigits 10 digits
  let places := (-exponent).toNat
  let cs := List.replicate (places + 1 - cs.length) '0' ++ cs ++ List.replicate exponent.toNat '0'
  let fraction := (cs.drop (cs.length - places)).rdropWhile (· == '0')
  cs.take (cs.length - places) ++ (if fraction.isEmpty then [] else '.' :: fraction)

/-- `Display` -/
def toChars : F64 → List Char
  | nan => "NaN".toList
  | inf negative => (if negative then ['-'] else []) ++ "inf".toList
  | finite negative mantissa exponent =>
      let (digits, e) := if mantissa = 0 then (0, 0) else shortest mantissa exponent
      (if negative then ['-'] else []) ++ writeDecimal digits e

end F64

end TodoRust.Rust
