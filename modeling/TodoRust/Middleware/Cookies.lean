import TodoRust.Lib.Split
import TodoRust.Middleware.I18n

/-!
# What the middleware reads of a cookie jar

A client sends the cookies of its jar in any order, over one or several `Cookie`
lines. The middleware looks at the first line only, and only when the whole line
is readable; then it reads the two cookies it is looking for, and no other.
-/

namespace TodoRust.Middleware
open Lib Rust

/-- `SP` and `HTAB` -/
def isBlank (b : UInt8) : Bool := b == 32 || b == 9

/-- No blank at either end. -/
def stripped (bytes : List UInt8) : Bool :=
  bytes.head?.all (!isBlank ·) && bytes.getLast?.all (!isBlank ·)

/-- A cookie as a user agent keeps it: the name ends at the first `=`, the value at
the first `;`, and the blanks around both are gone. -/
structure Cookie where
  name : List UInt8
  value : List UInt8
  name_ne_nil : name ≠ []
  name_bytes : (name.all fun b => b != 61 && b != 59) = true
  value_bytes : (value.all fun b => b != 59) = true
  name_stripped : stripped name = true
  value_stripped : stripped value = true
  deriving DecidableEq

namespace Cookie

/-- `name=value` -/
def pair (c : Cookie) : List UInt8 := c.name ++ 61 :: c.value

/-- One `Cookie` line. -/
def line (cookies : List Cookie) : List UInt8 := [59, 32].intercalate (cookies.map pair)

def named (name : String) (c : Cookie) : Bool := c.name == asBytes name

/-- The value a jar holds under a name. -/
def valueOf (name : String) (cookies : List Cookie) : Option (List UInt8) :=
  ((cookies.filter (named name)).getLast?).map value

end Cookie

/-- What was read is what the jar holds, byte for byte. -/
def ReadsJar (found : Option String × Option String) (jar : List Cookie) : Prop :=
  found.1.map asBytes = Cookie.valueOf "locale" jar ∧ found.2.map asBytes = Cookie.valueOf "tz" jar

section Text

/-- A byte as `to_str` reads it. -/
def charOf (b : UInt8) : Char := Char.ofNat b.toNat

theorem charOf_toNat (b : UInt8) : (charOf b).toNat = b.toNat :=
  HeaderValue.toNat_charOfNat b.toNat_lt

theorem charOf_injective : Function.Injective charOf := by
  intro a b h
  have hnat := congrArg Char.toNat h
  rwa [charOf_toNat, charOf_toNat, UInt8.toNat_inj] at hnat

/-- A readable byte is whitespace only if it is a blank. -/
theorem isWhitespace_charOf {b : UInt8} (hb : isVisibleAscii b = true) (h : isBlank b = false) :
    isWhitespace (charOf b) = false := by
  simp only [isVisibleAscii, Bool.or_eq_true, Bool.and_eq_true, decide_eq_true_eq, beq_iff_eq,
    UInt8.lt_iff_toNat_lt, UInt8.le_iff_toNat_le, ← UInt8.toNat_inj] at hb
  simp only [isBlank, Bool.or_eq_false_iff, beq_eq_false_iff_ne, ne_eq, ← UInt8.toNat_inj] at h
  simp only [isWhitespace, charOf_toNat, Bool.or_eq_false_iff, Bool.and_eq_false_iff,
    decide_eq_false_iff_not, beq_eq_false_iff_ne, ne_eq]
  simp only [UInt8.reduceToNat] at hb h
  omega

/-- A readable text has the bytes it was read from. -/
theorem asBytes_charOf {bytes : List UInt8} (h : bytes.all isVisibleAscii = true) :
    asBytes (String.ofList (bytes.map charOf)) = bytes := by
  rw [asBytes, String.toList_ofList]
  induction bytes with
  | nil => rfl
  | cons b bytes ih =>
      simp only [List.all_cons, Bool.and_eq_true] at h
      have hlt : (charOf b).toNat < 128 := by
        have hb := h.1
        simp only [isVisibleAscii, Bool.or_eq_true, Bool.and_eq_true, decide_eq_true_eq,
          beq_iff_eq, UInt8.lt_iff_toNat_lt, UInt8.le_iff_toNat_le, ← UInt8.toNat_inj,
          UInt8.reduceToNat] at hb
        rw [charOf_toNat]
        omega
      rw [List.map_cons, List.flatMap_cons, ih h.2, utf8EncodeChar_of_lt hlt, charOf_toNat,
        UInt8.ofNat_toNat]
      rfl

end Text

section Read
variable {c : Cookie} {found : Option String × Option String}

/-- A cookie as the middleware reads it, on top of what was found before. -/
def readCookie (found : Option String × Option String) (c : Cookie) :
    Option String × Option String :=
  if Cookie.named "locale" c then (some (String.ofList (c.value.map charOf)), found.2)
  else if Cookie.named "tz" c then (found.1, some (String.ofList (c.value.map charOf)))
  else found

theorem Cookie.pair_map (c : Cookie) :
    c.pair.map charOf = c.name.map charOf ++ '=' :: c.value.map charOf := by
  simp [Cookie.pair, show charOf 61 = '=' from rfl]

/-- The pair starts with `name=` for its own name only. -/
theorem isPrefixOf?_pair (name : String) (hname : '=' ∉ name.toList)
    (hascii : name.toList = (asBytes name).map charOf) (c : Cookie) :
    (name.toList ++ ['=']).isPrefixOf? (c.pair.map charOf) =
      if Cookie.named name c then some (c.value.map charOf) else none := by
  have hsep : '=' ∉ c.name.map charOf := by
    intro h
    obtain ⟨b, hb, hcode⟩ := List.mem_map.mp h
    obtain rfl : b = 61 := charOf_injective hcode
    have hbytes := List.all_eq_true.mp c.name_bytes _ hb
    simp at hbytes
  have hpair : ∀ rest, (name.toList ++ ['=']).isPrefixOf? (c.pair.map charOf) = some rest ↔
      c.name = asBytes name ∧ c.value.map charOf = rest := by
    intro rest
    rw [List.isPrefixOf?_eq_some_iff_append_eq, List.append_assoc, List.singleton_append,
      Cookie.pair_map, split_first_inj hname hsep, hascii,
      (List.map_injective_iff.mpr charOf_injective).eq_iff, eq_comm, and_congr_right_iff]
    exact fun _ => eq_comm
  unfold Cookie.named
  split
  · rename_i h
    exact (hpair _).mpr ⟨beq_iff_eq.mp h, rfl⟩
  · rename_i h
    rw [Option.eq_none_iff_forall_ne_some]
    intro rest hrest
    exact h (beq_iff_eq.mpr ((hpair rest).mp hrest).1)

/-- Neither end of a pair is whitespace. -/
theorem trimChars_pair {pad : List Char} (hpad : ∀ c ∈ pad, isWhitespace c = true)
    (hvisible : c.pair.all isVisibleAscii = true) :
    trimChars (pad ++ c.pair.map charOf) = c.pair.map charOf := by
  have hbyte : ∀ b ∈ c.pair, isBlank b = false → isWhitespace (charOf b) = false :=
    fun b hb => isWhitespace_charOf (List.all_eq_true.mp hvisible b hb)
  obtain ⟨name, value, hne, _, _, hname, hvalue⟩ := c
  simp only [stripped, Bool.and_eq_true, Option.all_eq_true, Bool.not_eq_true'] at hname hvalue
  apply trimChars_pad hpad
  · obtain ⟨b, rest, rfl⟩ := List.exists_cons_of_ne_nil hne
    intro ch hch
    obtain rfl : charOf b = ch := by simpa [Cookie.pair] using hch
    exact hbyte b (by simp [Cookie.pair]) (hname.1 b rfl)
  · intro ch hch
    rw [List.getLast?_map] at hch
    obtain ⟨b, hb, rfl⟩ := Option.map_eq_some_iff.mp hch
    have hmem : b ∈ name ++ 61 :: value := List.mem_of_getLast? hb
    rw [Cookie.pair, List.getLast?_append, List.getLast?_cons, Option.some_or,
      Option.some.injEq] at hb
    apply hbyte b hmem
    cases hlast : value.getLast? with
    | none =>
        rw [← hb, hlast]
        rfl
    | some b' =>
        rw [← hb, hlast]
        exact hvalue.2 b' hlast

theorem readChunk_pair {pad : List Char} (hpad : ∀ c ∈ pad, isWhitespace c = true)
    (hvisible : c.pair.all isVisibleAscii = true) :
    readChunk found (pad ++ c.pair.map charOf) = readCookie found c := by
  have hlocale := isPrefixOf?_pair "locale" (by decide) (by decide) c
  have htz := isPrefixOf?_pair "tz" (by decide) (by decide) c
  rw [readChunk, trimChars_pair hpad hvisible]
  rw [show "locale".toList ++ ['='] = "locale=".toList from rfl] at hlocale
  rw [show "tz".toList ++ ['='] = "tz=".toList from rfl] at htz
  simp only [hlocale, htz, readCookie]
  cases Cookie.named "locale" c <;> cases Cookie.named "tz" c <;> rfl

theorem Cookie.line_cons_cons (c c' : Cookie) (cookies : List Cookie) :
    Cookie.line (c :: c' :: cookies) = c.pair ++ 59 :: 32 :: Cookie.line (c' :: cookies) := by
  simp [Cookie.line, List.intercalate]

theorem Cookie.semicolon_not_mem_pair (c : Cookie) : ';' ∉ c.pair.map charOf := by
  intro h
  obtain ⟨b, hb, hcode⟩ := List.mem_map.mp h
  obtain rfl : b = 59 := charOf_injective hcode
  rcases List.mem_append.mp hb with hname | hvalue
  · simpa using List.all_eq_true.mp c.name_bytes _ hname
  · rcases List.mem_cons.mp hvalue with heq | hvalue
    · cases heq
    · simpa using List.all_eq_true.mp c.value_bytes _ hvalue

/-- A readable line is read cookie by cookie. -/
theorem foldl_readChunk {pad : List Char} (hpad : ∀ c ∈ pad, isWhitespace c = true)
    (cookies : List Cookie) (hvisible : (Cookie.line cookies).all isVisibleAscii = true) :
    (split (pad ++ (Cookie.line cookies).map charOf) ';').foldl readChunk found =
      cookies.foldl readCookie found := by
  have hsep : ∀ {pad : List Char}, (∀ c ∈ pad, isWhitespace c = true) → ';' ∉ pad := by
    intro pad hpad hmem
    exact absurd (hpad ';' hmem) (by decide)
  induction cookies generalizing pad found with
  | nil =>
      have hnil : trimChars pad = [] := trimChars_eq_nil_iff.mpr hpad
      simp only [Cookie.line, List.map_nil, List.intercalate_nil, List.append_nil, split,
        List.splitOn_eq_singleton (hsep hpad), List.foldl_cons, List.foldl_nil, readChunk, hnil]
      rfl
  | cons c cookies ih =>
      have hpair : ';' ∉ pad ++ c.pair.map charOf := by
        rw [List.mem_append, not_or]
        exact ⟨hsep hpad, c.semicolon_not_mem_pair⟩
      cases cookies with
      | nil =>
          have hline : Cookie.line [c] = c.pair := by simp [Cookie.line, List.intercalate]
          rw [hline] at hvisible ⊢
          rw [split, List.splitOn_eq_singleton hpair]
          exact readChunk_pair hpad hvisible
      | cons c' cookies =>
          rw [Cookie.line_cons_cons, List.all_append, Bool.and_eq_true, List.all_cons,
            List.all_cons, Bool.and_eq_true, Bool.and_eq_true] at hvisible
          have htext : pad ++ (Cookie.line (c :: c' :: cookies)).map charOf =
              (pad ++ c.pair.map charOf) ++
                ';' :: ([' '] ++ (Cookie.line (c' :: cookies)).map charOf) := by
            rw [Cookie.line_cons_cons]
            simp [show charOf 59 = ';' from rfl, show charOf 32 = ' ' from rfl]
          rw [htext, split, List.splitOn_append_cons_self, List.splitOn_eq_singleton hpair,
            List.singleton_append, List.foldl_cons, List.foldl_cons, readChunk_pair hpad hvisible.1]
          exact ih (by simp [isWhitespace]) hvisible.2.2.2

/-- The last cookie of a name is the one that is read. -/
theorem foldl_readCookie (cookies : List Cookie) :
    cookies.foldl readCookie (none, none) =
      ((Cookie.valueOf "locale" cookies).map fun value => String.ofList (value.map charOf),
        (Cookie.valueOf "tz" cookies).map fun value => String.ofList (value.map charOf)) := by
  induction cookies using List.reverseRecOn with
  | nil => rfl
  | append_singleton cookies c ih =>
      rw [List.foldl_append, ih, List.foldl_cons, List.foldl_nil]
      simp only [readCookie, Cookie.valueOf, List.filter_append, List.filter_singleton]
      cases hlocale : Cookie.named "locale" c with
      | true =>
          have htz : Cookie.named "tz" c = false := by
            rw [Cookie.named, beq_iff_eq] at hlocale
            rw [Cookie.named, hlocale]
            decide
          simp [htz]
      | false =>
          cases htz : Cookie.named "tz" c with
          | true => simp
          | false => simp

theorem mem_line_of_valueOf {name : String} {cookies : List Cookie} {value : List UInt8}
    (h : Cookie.valueOf name cookies = some value) : ∃ c ∈ cookies, c.value = value := by
  obtain ⟨c, hc, rfl⟩ := Option.map_eq_some_iff.mp h
  exact ⟨c, (List.mem_filter.mp (List.mem_of_getLast? hc)).1, rfl⟩

theorem Cookie.mem_line {cookies : List Cookie} {b : UInt8} (hc : c ∈ cookies) (hb : b ∈ c.pair) :
    b ∈ Cookie.line cookies := by
  induction cookies with
  | nil => simp at hc
  | cons c' cookies ih =>
      cases cookies with
      | nil =>
          obtain rfl := List.mem_singleton.mp hc
          simpa [Cookie.line, List.intercalate] using hb
      | cons c'' cookies =>
          rw [Cookie.line_cons_cons, List.mem_append]
          rcases List.mem_cons.mp hc with rfl | hc
          · exact Or.inl hb
          · exact Or.inr (by simp [ih hc])

/-- What is read of a readable line has the bytes of the value. -/
theorem asBytes_valueOf {cookies : List Cookie} (name : String)
    (hvisible : (Cookie.line cookies).all isVisibleAscii = true) :
    ((Cookie.valueOf name cookies).map fun value => String.ofList (value.map charOf)).map asBytes =
      Cookie.valueOf name cookies := by
  cases h : Cookie.valueOf name cookies with
  | none => rfl
  | some value =>
      obtain ⟨c, hc, rfl⟩ := mem_line_of_valueOf h
      rw [Option.map_some, Option.map_some, asBytes_charOf]
      rw [List.all_eq_true] at hvisible ⊢
      exact fun b hb => hvisible b (Cookie.mem_line hc (by simp [Cookie.pair, hb]))

variable {headers : HeaderMap} {v : HeaderValue} {cookies : List Cookie}

/-- A readable first line is read in full. -/
theorem readCookies_readable (hget : headers.get "cookie" = some v)
    (hline : v.bytes = Cookie.line cookies)
    (hvisible : (Cookie.line cookies).all isVisibleAscii = true) :
    readCookies headers = cookies.foldl readCookie (none, none) := by
  have hstr : v.toStr = some (String.ofList ((Cookie.line cookies).map charOf)) := by
    rw [HeaderValue.toStr, hline, if_pos hvisible]
    rfl
  simp only [readCookies, hget, Option.bind_some, hstr, String.toList_ofList]
  have hpad : ∀ c ∈ ([] : List Char), isWhitespace c = true := by simp
  exact foldl_readChunk hpad cookies hvisible

theorem readCookies_readsJar (hget : headers.get "cookie" = some v)
    (hline : v.bytes = Cookie.line cookies)
    (hvisible : (Cookie.line cookies).all isVisibleAscii = true) :
    ReadsJar (readCookies headers) cookies := by
  rw [readCookies_readable hget hline hvisible, foldl_readCookie]
  exact ⟨asBytes_valueOf "locale" hvisible, asBytes_valueOf "tz" hvisible⟩

/-- Nothing is read of a line that is not readable. -/
theorem readCookies_unreadable (hget : headers.get "cookie" = some v)
    (hvisible : ¬ v.bytes.all isVisibleAscii = true) : readCookies headers = (none, none) := by
  simp [readCookies, hget, HeaderValue.toStr, hvisible]

end Read

/-! ## Several lines -/

theorem valueOf_eq_none_iff {name : String} {cookies : List Cookie} :
    Cookie.valueOf name cookies = none ↔ ∀ c ∈ cookies, Cookie.named name c = false := by
  simp [Cookie.valueOf]

/-- A part of a jar holds the value of a name when it holds the cookie. -/
theorem valueOf_append_iff {name : String} {first rest : List Cookie}
    (hone : ((first ++ rest).filter (Cookie.named name)).length ≤ 1) :
    Cookie.valueOf name first = Cookie.valueOf name (first ++ rest) ↔
      ∀ c ∈ first ++ rest, Cookie.named name c = true → c ∈ first := by
  rw [List.filter_append, List.length_append] at hone
  constructor
  · intro h c hc hname
    rcases List.mem_append.mp hc with hfirst | hrest
    · exact hfirst
    · have hpos : 0 < (rest.filter (Cookie.named name)).length :=
        List.length_pos_of_mem (List.mem_filter.mpr ⟨hrest, hname⟩)
      have hnil : first.filter (Cookie.named name) = [] := by
        rw [← List.length_eq_zero_iff]
        omega
      have hnone : Cookie.valueOf name first = none := by simp [Cookie.valueOf, hnil]
      rw [hnone, eq_comm, valueOf_eq_none_iff] at h
      rw [h c hc] at hname
      cases hname
  · intro h
    have hnil : rest.filter (Cookie.named name) = [] := by
      rw [List.filter_eq_nil_iff]
      intro c hc hname
      have hfirst := h c (List.mem_append_right _ hc) hname
      have hpos := List.length_pos_of_mem (List.mem_filter.mpr ⟨hfirst, hname⟩)
      have hpos' := List.length_pos_of_mem (List.mem_filter.mpr ⟨hc, hname⟩)
      omega
    rw [Cookie.valueOf, Cookie.valueOf, List.filter_append, hnil, List.append_nil]

/-- The two cookies, as far as the jar has them, are on the first line, and that
line has visible ASCII only. -/
def OnReadableFirstLine (lines : List (List Cookie)) : Prop :=
  ∀ c ∈ lines.flatten, Cookie.named "locale" c = true ∨ Cookie.named "tz" c = true →
    ∃ first, lines.head? = some first ∧ c ∈ first ∧
      (Cookie.line first).all isVisibleAscii = true

section FirstLine
variable {first : List Cookie} {rest : List (List Cookie)}

theorem onReadableFirstLine_visible (hvisible : (Cookie.line first).all isVisibleAscii = true) :
    OnReadableFirstLine (first :: rest) ↔ ∀ c ∈ first ++ rest.flatten,
      Cookie.named "locale" c = true ∨ Cookie.named "tz" c = true → c ∈ first := by
  constructor
  · intro h c hc hname
    obtain ⟨_, heq, hmem, _⟩ := h c (by simpa using hc) hname
    obtain rfl := Option.some.inj heq
    exact hmem
  · intro h c hc hname
    exact ⟨first, rfl, h c (by simpa using hc) hname, hvisible⟩

theorem onReadableFirstLine_hidden (hvisible : ¬ (Cookie.line first).all isVisibleAscii = true) :
    OnReadableFirstLine (first :: rest) ↔ ∀ c ∈ first ++ rest.flatten,
      Cookie.named "locale" c = false ∧ Cookie.named "tz" c = false := by
  constructor
  · intro h c hc
    by_contra hname
    have hnamed : Cookie.named "locale" c = true ∨ Cookie.named "tz" c = true := by
      rwa [not_and_or, Bool.not_eq_false, Bool.not_eq_false] at hname
    obtain ⟨_, heq, _, hreadable⟩ := h c (by simpa using hc) hnamed
    obtain rfl := Option.some.inj heq
    exact hvisible hreadable
  · intro h c hc hname
    simp [h c (by simpa using hc)] at hname

end FirstLine

/-- The two cookies are read as the jar holds them exactly when both are on the
first line, and that line is readable. -/
theorem readCookies_iff (headers : HeaderMap) (lines : List (List Cookie))
    (hsent : (headers.getAll "cookie").map HeaderValue.bytes = lines.map Cookie.line)
    (hlocale : (lines.flatten.filter (Cookie.named "locale")).length ≤ 1)
    (htz : (lines.flatten.filter (Cookie.named "tz")).length ≤ 1) :
    ReadsJar (readCookies headers) lines.flatten ↔ OnReadableFirstLine lines := by
  have hget := headers.get_eq_head?_getAll "cookie"
  cases lines with
  | nil =>
      have hnil : headers.getAll "cookie" = [] := by simpa using hsent
      rw [hnil, List.head?_nil] at hget
      refine iff_of_true ?_ (by simp [OnReadableFirstLine])
      simp [readCookies, hget, ReadsJar, Cookie.valueOf]
  | cons first rest =>
      obtain ⟨v, vs, hlines⟩ : ∃ v vs, headers.getAll "cookie" = v :: vs :=
        List.exists_cons_of_ne_nil fun hnil => by simp [hnil] at hsent
      rw [hlines, List.map_cons, List.map_cons] at hsent
      obtain ⟨hline, -⟩ := List.cons.inj hsent
      rw [hlines, List.head?_cons] at hget
      rw [List.flatten_cons] at hlocale htz ⊢
      by_cases hvisible : (Cookie.line first).all isVisibleAscii = true
      · have hread := readCookies_readsJar hget hline hvisible
        rw [onReadableFirstLine_visible hvisible, ReadsJar, hread.1, hread.2,
          valueOf_append_iff hlocale, valueOf_append_iff htz]
        constructor
        · exact fun h c hc hname => hname.elim (h.1 c hc) (h.2 c hc)
        · exact fun h => ⟨fun c hc hname => h c hc (Or.inl hname),
            fun c hc hname => h c hc (Or.inr hname)⟩
      · -- nothing is read, so there must be nothing to read
        rw [onReadableFirstLine_hidden hvisible, readCookies_unreadable hget (by rwa [hline])]
        simp only [ReadsJar, Option.map_none, @eq_comm _ none, valueOf_eq_none_iff]
        constructor
        · exact fun h c hc => ⟨h.1 c hc, h.2 c hc⟩
        · exact fun h => ⟨fun c hc => (h c hc).1, fun c hc => (h c hc).2⟩

/-- Cookies for concrete requests. -/
def localeFr : Cookie :=
  ⟨asBytes "locale", asBytes "fr", by decide, by decide, by decide, by decide, by decide⟩

def themeDark : Cookie :=
  ⟨asBytes "theme", asBytes "dark", by decide, by decide, by decide, by decide, by decide⟩

theorem readCookies_one_line :
    ReadsJar (readCookies [("cookie", ⟨asBytes "theme=dark; locale=fr", by decide⟩)])
      [themeDark, localeFr] :=
  (readCookies_iff _ [[themeDark, localeFr]] (by decide) (by decide) (by decide)).mpr (by
    intro c hc _
    exact ⟨[themeDark, localeFr], rfl, by rwa [List.flatten_singleton] at hc, by decide⟩)

theorem readCookies_second_line :
    ¬ ∀ (headers : HeaderMap) (lines : List (List Cookie)),
      (headers.getAll "cookie").map HeaderValue.bytes = lines.map Cookie.line →
      (lines.flatten.filter (Cookie.named "locale")).length ≤ 1 →
      (lines.flatten.filter (Cookie.named "tz")).length ≤ 1 →
      ReadsJar (readCookies headers) lines.flatten := by
  intro h
  have hread := h [("cookie", ⟨asBytes "theme=dark", by decide⟩),
    ("cookie", ⟨asBytes "locale=fr", by decide⟩)] [[themeDark], [localeFr]]
    (by decide) (by decide) (by decide)
  exact absurd hread.1 (by decide)

end TodoRust.Middleware
