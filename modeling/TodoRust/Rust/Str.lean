import Mathlib.Data.List.DropRight
import Mathlib.Data.List.Infix

/-!
# Rust string functions

A Rust `str` is a sequence of Unicode scalar values, as Lean's `String` is.
The functions below are those of `core::str` that the program calls.
-/

namespace TodoRust.Rust

/-- `char::is_whitespace`, the Unicode `White_Space` property. -/
def isWhitespace (c : Char) : Bool :=
  let n := c.toNat
  (9 ≤ n && n ≤ 13) || n == 0x20 || n == 0x85 || n == 0xA0 || n == 0x1680 ||
    (0x2000 ≤ n && n ≤ 0x200A) || n == 0x2028 || n == 0x2029 || n == 0x202F ||
    n == 0x205F || n == 0x3000

def trimChars (cs : List Char) : List Char :=
  (cs.dropWhile isWhitespace).rdropWhile isWhitespace

/-- `str::trim` -/
def trim (s : String) : String := String.ofList (trimChars s.toList)

@[simp] theorem toList_trim (s : String) : (trim s).toList = trimChars s.toList := by
  simp [trim]

theorem trimChars_isInfix (cs : List Char) : trimChars cs <:+: cs :=
  (List.rdropWhile_prefix _ _).isInfix.trans (List.dropWhile_suffix _).isInfix

theorem mem_of_mem_trimChars {c : Char} {cs : List Char} (h : c ∈ trimChars cs) : c ∈ cs :=
  (trimChars_isInfix cs).subset h

/-- Trimming removes whitespace only. -/
theorem mem_trimChars {c : Char} {cs : List Char} (hc : isWhitespace c = false) (h : c ∈ cs) :
    c ∈ trimChars cs := by
  have hdrop : ∀ {l : List Char}, c ∈ l → c ∈ l.dropWhile isWhitespace := by
    intro l hl
    rw [← List.takeWhile_append_dropWhile (p := isWhitespace) (l := l), List.mem_append] at hl
    refine hl.resolve_left fun ht => ?_
    rw [List.mem_takeWhile_imp ht] at hc
    cases hc
  simpa [trimChars, List.rdropWhile] using hdrop (by simpa using hdrop h)

theorem trimChars_eq_nil_iff {cs : List Char} :
    trimChars cs = [] ↔ ∀ c ∈ cs, isWhitespace c = true := by
  constructor
  · intro h c hc
    by_contra hw
    have := mem_trimChars (by simpa using hw) hc
    simp [h] at this
  · intro h
    have hnil : cs.dropWhile isWhitespace = [] := by simpa using h
    simp [trimChars, hnil, List.rdropWhile]

/-- Text with no whitespace at its ends is what trimming leaves of it and whitespace
in front. -/
theorem trimChars_pad {pad cs : List Char} (hpad : ∀ c ∈ pad, isWhitespace c = true)
    (hhead : ∀ c ∈ cs.head?, isWhitespace c = false)
    (hlast : ∀ c ∈ cs.getLast?, isWhitespace c = false) : trimChars (pad ++ cs) = cs := by
  have hdrop : cs.dropWhile isWhitespace = cs := by
    cases cs with
    | nil => rfl
    | cons c cs => simp [hhead c rfl]
  rw [trimChars, List.dropWhile_append_of_pos hpad, hdrop, List.rdropWhile_eq_self_iff]
  intro hne
  simp [hlast _ (List.getLast?_eq_some_getLast hne)]

/-- `str::trim` is idempotent. -/
theorem trim_trim (s : String) : trim (trim s) = trim s := by
  have hr : ∀ l : List Char, (l.rdropWhile isWhitespace).rdropWhile isWhitespace =
      l.rdropWhile isWhitespace := fun l => List.rdropWhile_idempotent isWhitespace l
  have hd : (trimChars s.toList).dropWhile isWhitespace = trimChars s.toList := by
    cases h : trimChars s.toList with
    | nil => rfl
    | cons c cs =>
        -- the first character of the trimmed text heads the left-trimmed text
        have hp : trimChars s.toList <+: s.toList.dropWhile isWhitespace :=
          List.rdropWhile_prefix _ _
        obtain ⟨t, ht⟩ := hp
        have hne : s.toList.dropWhile isWhitespace ≠ [] := by
          rw [← ht, h]; simp
        have hc : isWhitespace c = false := by
          have hhead := List.head_dropWhile_not isWhitespace hne
          simpa [← ht, h] using hhead
        simp [hc]
  rw [trim, toList_trim, trimChars, hd, trimChars, hr]
  rfl

/-- `str::starts_with` for a string pattern. -/
def startsWith (s : String) (pat : List Char) : Bool := pat.isPrefixOf s.toList

theorem startsWith_eq_false_iff {s : String} {pat : List Char} :
    startsWith s pat = false ↔ ¬ pat <+: s.toList := by
  rw [startsWith, ← Bool.not_eq_true, List.isPrefixOf_iff_prefix]

/-- `str::ends_with` for a string pattern. -/
def endsWith (s : String) (pat : List Char) : Bool := pat.isSuffixOf s.toList

/-- `str::rfind` for a character. -/
def rfind : List Char → Char → Option Nat
  | [], _ => none
  | c :: cs, pat =>
      match rfind cs pat with
      | some i => some (i + 1)
      | none => if c = pat then some 0 else none

theorem rfind_eq_none {pat : Char} {s : List Char} (h : pat ∉ s) : rfind s pat = none := by
  induction s with
  | nil => rfl
  | cons c s ih =>
      simp only [List.mem_cons, not_or] at h
      simp [rfind, ih h.2, Ne.symm h.1]

theorem rfind_append_cons {pat : Char} {x y : List Char} (h : pat ∉ y) :
    rfind (x ++ pat :: y) pat = some x.length := by
  induction x with
  | nil => simp [rfind, rfind_eq_none h]
  | cons c x ih => simp [rfind, ih]

/-- What is behind the character that `rfind` finds. -/
theorem drop_append_cons (x y : List Char) (c : Char) :
    (x ++ c :: y).drop (x.length + 1) = y := by
  simp

/-- The UTF-8 encoding, `str::as_bytes`. -/
def asBytes (s : String) : List UInt8 := s.toList.flatMap String.utf8EncodeChar

/-- `str::split` on one character. -/
def split (s : List Char) (sep : Char) : List (List Char) := s.splitOn sep

end TodoRust.Rust
