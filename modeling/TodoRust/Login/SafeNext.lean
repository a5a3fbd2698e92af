import TodoRust.App.Routes

/-!
# Where a browser goes after login

`safe_next` looks at the first two characters of the submitted target, while a
browser first drops tabs and line breaks and reads a backslash as a slash. The
two agree except when the slash that names a host is written in another way.
-/

namespace TodoRust.Login
open App Rust

/-- ASCII tab, LF and CR, which a URL parser drops. -/
def isTabOrNewline (c : Char) : Bool := c == '\t' || c == '\n' || c == '\r'

/-- A reference as a browser reads it for an `http` or `https` base. -/
def normalize (ref : List Char) : List Char :=
  (ref.filter fun c => !isTabOrNewline c).map fun c => if c = '\\' then '/' else c

/-- What a reference without a scheme names: a host of its own, or a place on
the origin it is resolved against. -/
inductive Target
  | host (rest : List Char)
  | sameOrigin (path : List Char)
  deriving DecidableEq

/-- Two leading slashes make a reference authority-relative. -/
def resolve (ref : String) : Target :=
  match normalize ref.toList with
  | '/' :: '/' :: rest => .host rest
  | path => .sameOrigin path

def StaysOnOrigin (ref : String) : Prop := ∃ path, resolve ref = .sameOrigin path

instance (ref : String) : Decidable (StaysOnOrigin ref) :=
  match h : resolve ref with
  | .host rest => .isFalse fun ⟨path, hp⟩ => by rw [h] at hp; cases hp
  | .sameOrigin path => .isTrue ⟨path, h⟩

/-- A submitted target that cannot leave the origin: it does not start with a
slash, or starts with two, or the first character after the slash that is no tab
or line break is neither a slash nor a backslash. -/
def PlainAfterSlash (s : String) : Prop :=
  ∀ rest, s.toList = '/' :: rest → rest.head? = some '/' ∨
    ∀ c ∈ (rest.dropWhile isTabOrNewline).head?, c ≠ '/' ∧ c ≠ '\\'

theorem normalize_cons_slash (rest : List Char) :
    normalize ('/' :: rest) = '/' :: normalize rest := rfl

/-- Only the first character that is kept decides how the reading starts. -/
theorem head?_normalize (cs : List Char) :
    (normalize cs).head? = some '/' ↔
      ∃ c ∈ (cs.dropWhile isTabOrNewline).head?, c = '/' ∨ c = '\\' := by
  induction cs with
  | nil => simp [normalize]
  | cons c cs ih =>
      cases hc : isTabOrNewline c with
      | true =>
          have hdrop : normalize (c :: cs) = normalize cs := by simp [normalize, hc]
          rw [hdrop, ih, List.dropWhile_cons_of_pos hc]
      | false =>
          have hkeep : (normalize (c :: cs)).head? = some (if c = '\\' then '/' else c) := by
            simp [normalize, hc]
          rw [hkeep, List.dropWhile_cons_of_neg (by simp [hc])]
          by_cases hb : c = '\\'
          · simp [hb]
          · simp [hb]

theorem staysOnOrigin_slash_iff {s : String} {rest : List Char} (h : s.toList = '/' :: rest) :
    StaysOnOrigin s ↔ (normalize rest).head? ≠ some '/' := by
  have hresolve : resolve s = match '/' :: normalize rest with
      | '/' :: '/' :: rest => .host rest
      | path => .sameOrigin path := by
    rw [resolve, h, normalize_cons_slash]
  rw [StaysOnOrigin, hresolve]
  cases normalize rest with
  | nil => simp
  | cons c cs =>
      by_cases hc : c = '/'
      · subst hc
        simp
      · simp [hc]

/-- The strings `safe_next` lets through. -/
theorem safeNext_eq_some_iff (s t : String) :
    safeNext (some s) = some t ↔
      t = s ∧ ∃ rest, s.toList = '/' :: rest ∧ rest.head? ≠ some '/' := by
  have hsafe : safeNext (some s) = some t ↔
      (startsWith s ['/'] && !startsWith s ['/', '/']) = true ∧ s = t := by
    simp only [safeNext, Option.bind_some, Option.ite_none_right_eq_some, Option.some.injEq]
  have hstarts : (startsWith s ['/'] && !startsWith s ['/', '/']) = true ↔
      ∃ rest, s.toList = '/' :: rest ∧ rest.head? ≠ some '/' := by
    rw [startsWith, startsWith]
    cases s.toList with
    | nil => simp
    | cons a rest =>
        by_cases ha : a = '/'
        · subst ha
          cases rest with
          | nil => simp
          | cons b rest => simp [List.isPrefixOf, ne_comm]
        · simp [ha, Ne.symm ha]
  rw [hsafe, hstarts, and_comm, eq_comm]

/-- What `safe_next` lets through stays on the origin exactly under
`PlainAfterSlash`. -/
theorem safeNext_staysOnOrigin_iff (s : String) :
    (∀ t, safeNext (some s) = some t → StaysOnOrigin t) ↔ PlainAfterSlash s := by
  constructor
  · intro h rest hs
    by_cases hhead : rest.head? = some '/'
    · exact Or.inl hhead
    · have hstays := h s ((safeNext_eq_some_iff s s).mpr ⟨rfl, rest, hs, hhead⟩)
      rw [staysOnOrigin_slash_iff hs, Ne, head?_normalize] at hstays
      refine Or.inr fun c hc => ?_
      constructor
      · exact fun heq => hstays ⟨c, hc, Or.inl heq⟩
      · exact fun heq => hstays ⟨c, hc, Or.inr heq⟩
  · intro h t ht
    obtain ⟨rfl, rest, hs, hhead⟩ := (safeNext_eq_some_iff s t).mp ht
    rw [staysOnOrigin_slash_iff hs, Ne, head?_normalize]
    rintro ⟨c, hc, hslash⟩
    obtain ⟨hne, hne'⟩ := (h rest hs).resolve_left hhead c hc
    exact hslash.elim hne hne'

/-- A backslash in place of the second slash leaves the origin. -/
theorem safeNext_leaves_origin :
    ¬ ∀ s t, safeNext (some s) = some t → StaysOnOrigin t := by
  intro hall
  exact absurd (hall "/\\evil.com" "/\\evil.com" (by decide)) (by decide)

end TodoRust.Login
