import Mathlib.Data.List.Flatten
import TodoRust.Lib.Coded
import TodoRust.StaticFiles.AssetUrls

/-!
# Following a reference

A browser takes the path of a reference from its text: it drops line breaks, resolves
dots and escapes what is left. The router takes the escapes back. A path comes through
unchanged exactly when there was nothing to drop, to resolve or to take back.
-/

namespace TodoRust.Preview
open Lib Rust StaticFiles

/-! ### Escapes -/

/-- The value of a hexadecimal digit. -/
def hexValue (c : Char) : Option Nat :=
  if c.isDigit then some (c.toNat - '0'.toNat)
  else if 'a' ≤ c ∧ c ≤ 'f' then some (c.toNat - 'a'.toNat + 10)
  else if 'A' ≤ c ∧ c ≤ 'F' then some (c.toNat - 'A'.toNat + 10)
  else none

/-- The escape at the front of a text: a percent sign with two hexadecimal digits. -/
def readEscape : List Char → Option (List UInt8 × Nat)
  | '%' :: high :: low :: _ =>
      (hexValue high).bind fun h => (hexValue low).map fun l => ([UInt8.ofNat (h * 16 + l)], 2)
  | _ => none

def escapes : Coded.Reader Char UInt8 := ⟨readEscape, String.utf8EncodeChar⟩

/-- `percent_decode`, which leaves alone what is no escape. -/
def percentDecode (cs : List Char) : List UInt8 := escapes.decode cs

/-- Bytes that begin a character. -/
def isLead (b : UInt8) : Bool := b < 128 || 192 ≤ b

theorem countP_utf8EncodeChar (c : Char) : (String.utf8EncodeChar c).countP isLead = 1 := by
  have hone : ∀ n < 128, isLead (UInt8.ofNat n) = true := by decide
  have htwo : ∀ n < 32, isLead (UInt8.ofNat n + 192) = true := by decide
  have hthree : ∀ n < 16, isLead (UInt8.ofNat n + 224) = true := by decide
  have hfour : ∀ n < 8, isLead (UInt8.ofNat n + 240) = true := by decide
  have hlater : ∀ n < 64, isLead (UInt8.ofNat n + 128) = false := by decide
  fun_cases String.utf8EncodeChar with
  | case1 v h => simp [hone v (Nat.lt_succ_of_le h)]
  | case2 v | case3 v | case4 v =>
      simp [htwo _ (Nat.mod_lt _ _), hthree _ (Nat.mod_lt _ _),
        hfour _ (Nat.mod_lt _ _), hlater _ (Nat.mod_lt _ _)]

theorem readEscape_eq_some_iff {cs : List Char} {bs : List UInt8} {n : Nat} :
    readEscape cs = some (bs, n) ↔ ∃ high low rest h l, cs = '%' :: high :: low :: rest ∧
      hexValue high = some h ∧ hexValue low = some l ∧ bs = [UInt8.ofNat (h * 16 + l)] ∧ n = 2 := by
  constructor
  · intro hread
    unfold readEscape at hread
    split at hread
    · rename_i high low rest
      obtain ⟨h, hhigh, hread⟩ := Option.bind_eq_some_iff.mp hread
      obtain ⟨l, hlow, hread⟩ := Option.map_eq_some_iff.mp hread
      cases hread
      exact ⟨high, low, rest, h, l, rfl, hhigh, hlow, rfl, rfl⟩
    · cases hread
  · rintro ⟨high, low, rest, h, l, rfl, hhigh, hlow, rfl, rfl⟩
    simp [readEscape, hhigh, hlow]

theorem escapes_shrinks : escapes.Shrinks isLead where
  plain := countP_utf8EncodeChar
  code := by
    intro c cs bs n hread
    obtain ⟨high, low, rest, h, l, hcs, -, -, rfl, rfl⟩ := readEscape_eq_some_iff.mp hread
    obtain ⟨-, rfl⟩ := List.cons.inj hcs
    have hcount : [UInt8.ofNat (h * 16 + l)].countP isLead ≤ 1 := List.countP_le_length
    simp only [List.length_cons]
    omega
  nil := rfl

theorem readEscape_of_ne {c : Char} (hc : c ≠ '%') (cs : List Char) :
    readEscape (c :: cs) = none := by
  unfold readEscape
  split
  · rename_i h
    exact absurd (List.cons.inj h).1 hc
  · rfl

/-- Text without percent signs adds no escape in front of another. -/
theorem free_append {cs rest : List Char} (hcs : '%' ∉ cs) (hrest : escapes.Free rest) :
    escapes.Free (cs ++ rest) :=
  hrest.append fun _ hc => readEscape_of_ne (ne_of_mem_of_not_mem hc hcs)

theorem percentDecode_cons {c : Char} (hc : c ≠ '%') (cs : List Char) :
    percentDecode (c :: cs) = String.utf8EncodeChar c ++ percentDecode cs :=
  Coded.Reader.decode_cons_of_none (readEscape_of_ne hc cs)

theorem percentDecode_append {cs : List Char} (hcs : '%' ∉ cs) (rest : List Char) :
    percentDecode (cs ++ rest) = cs.flatMap String.utf8EncodeChar ++ percentDecode rest := by
  induction cs with
  | nil => rfl
  | cons c cs ih =>
      simp only [List.mem_cons, not_or] at hcs
      rw [List.cons_append, percentDecode_cons (Ne.symm hcs.1), ih hcs.2, List.flatMap_cons,
        List.append_assoc]

theorem percentDecode_escape {high low : Char} {h l : Nat} (hhigh : hexValue high = some h)
    (hlow : hexValue low = some l) (rest : List Char) :
    percentDecode ('%' :: high :: low :: rest) =
      UInt8.ofNat (h * 16 + l) :: percentDecode rest := by
  have hread : escapes.read ('%' :: [high, low] ++ rest) =
      some ([UInt8.ofNat (h * 16 + l)], [high, low].length) :=
    readEscape_eq_some_iff.mpr ⟨high, low, rest, h, l, rfl, hhigh, hlow, rfl, rfl⟩
  exact Coded.Reader.decode_code rest hread

/-- Escaped bytes are read back. -/
theorem percentDecode_percentEncode (bs : List UInt8) (rest : List Char) :
    percentDecode (bs.flatMap percentEncode ++ rest) = bs ++ percentDecode rest := by
  have hdigit : ∀ n < 16, hexValue (Nat.digitChar n).toUpper = some n := by decide
  induction bs with
  | nil => rfl
  | cons b bs ih =>
      have hlt := b.toNat_lt
      have hbyte : UInt8.ofNat (b.toNat / 16 * 16 + b.toNat % 16) = b := by
        rw [Nat.div_add_mod' b.toNat 16, UInt8.ofNat_toNat]
      rw [List.flatMap_cons, List.append_assoc, List.cons_append, ← ih]
      refine (percentDecode_escape (hdigit _ ?_) (hdigit _ ?_) _).trans ?_
      · omega
      · omega
      · rw [hbyte]
        rfl

theorem toNat_lt_of_hexValue {c : Char} (h : (hexValue c).isSome = true) : c.toNat < 128 := by
  unfold hexValue at h
  split_ifs at h with hdigit hlower hupper
  · simp only [Char.isDigit, Bool.and_eq_true, decide_eq_true_eq, UInt32.le_iff_toNat_le] at hdigit
    exact lt_of_le_of_lt hdigit.2 (by decide)
  · exact lt_of_le_of_lt (UInt32.le_iff_toNat_le.mp hlower.2) (by decide)
  · exact lt_of_le_of_lt (UInt32.le_iff_toNat_le.mp hupper.2) (by decide)
  · cases h

/-- No character of an escape is escaped. -/
theorem isEscaped_of_hexValue {c : Char} (h : (hexValue c).isSome = true) :
    isEscaped c = false := by
  have hall : ∀ n < 128, (hexValue (Char.ofNat n)).isSome = true →
      isEscaped (Char.ofNat n) = false := by decide
  have hc := hall c.toNat (toNat_lt_of_hexValue h)
  rw [Char.ofNat_toNat] at hc
  exact hc h

theorem escapeChar_ne_nil (c : Char) : escapeChar c ≠ [] := by
  rw [escapeChar]
  split
  · obtain ⟨b, bs, hbytes⟩ := List.exists_cons_of_ne_nil (String.utf8EncodeChar_ne_nil (c := c))
    rw [hbytes]
    exact List.cons_ne_nil _ _
  · exact List.cons_ne_nil _ _

/-- The escaping begins with a digit only where the text does. -/
theorem exists_of_escaped_eq_cons {cs rest : List Char} {d : Char}
    (h : cs.flatMap escapeChar = d :: rest) (hd : (hexValue d).isSome = true) :
    ∃ cs', cs = d :: cs' ∧ rest = cs'.flatMap escapeChar := by
  cases cs with
  | nil => cases h
  | cons c cs =>
      rw [List.flatMap_cons, escapeChar] at h
      split at h
      · obtain ⟨b, bs, hbytes⟩ :=
          List.exists_cons_of_ne_nil (String.utf8EncodeChar_ne_nil (c := c))
        rw [hbytes] at h
        obtain ⟨rfl, -⟩ := List.cons.inj h
        cases hd
      · obtain ⟨rfl, rfl⟩ := List.cons.inj h
        exact ⟨cs, rfl, rfl⟩

/-- Escaping what follows a percent sign makes no escape of it. -/
theorem readEscape_escaped {cs : List Char} (h : readEscape ('%' :: cs) = none) :
    readEscape ('%' :: cs.flatMap escapeChar) = none := by
  refine Option.eq_none_iff_forall_ne_some.mpr fun code hcode => ?_
  obtain ⟨high, low, rest, m, l, hcs, hhigh, hlow, -, -⟩ := readEscape_eq_some_iff.mp hcode
  obtain ⟨cs', rfl, hcs'⟩ := exists_of_escaped_eq_cons (List.cons.inj hcs).2
    (Option.isSome_of_eq_some hhigh)
  obtain ⟨cs'', rfl, -⟩ := exists_of_escaped_eq_cons hcs'.symm (Option.isSome_of_eq_some hlow)
  rw [readEscape_eq_some_iff.mpr ⟨_, _, _, m, l, rfl, hhigh, hlow, rfl, rfl⟩] at h
  cases h

/-- Escaping a text first does not change what it is decoded to. -/
theorem percentDecode_escaped (cs : List Char) :
    percentDecode (cs.flatMap escapeChar) = percentDecode cs := by
  induction hlength : cs.length using Nat.strong_induction_on generalizing cs with
  | _ n ih =>
  cases cs with
  | nil => rfl
  | cons c cs =>
      have hrest : percentDecode (cs.flatMap escapeChar) = percentDecode cs :=
        ih cs.length (by simp [← hlength]) cs rfl
      rw [List.flatMap_cons]
      by_cases hc : isEscaped c = true
      · have hne : c ≠ '%' := by
          rintro rfl
          cases hc
        rw [escapeChar, if_pos hc, percentDecode_percentEncode, hrest, percentDecode_cons hne]
      · rw [escapeChar, if_neg hc, List.singleton_append]
        by_cases hne : c = '%'
        · subst hne
          cases hread : readEscape ('%' :: cs) with
          | some code =>
              obtain ⟨high, low, rest, h, l, hcs, hhigh, hlow, -, -⟩ :=
                readEscape_eq_some_iff.mp hread
              obtain ⟨-, rfl⟩ := List.cons.inj hcs
              have hescaped : (high :: low :: rest).flatMap escapeChar =
                  [high, low] ++ rest.flatMap escapeChar := by
                simp [escapeChar, isEscaped_of_hexValue (Option.isSome_of_eq_some hhigh),
                  isEscaped_of_hexValue (Option.isSome_of_eq_some hlow)]
              have hlater : percentDecode (rest.flatMap escapeChar) = percentDecode rest :=
                ih rest.length (by simp [← hlength]; omega) rest rfl
              rw [hescaped]
              exact (percentDecode_escape hhigh hlow _).trans
                ((congrArg _ hlater).trans (percentDecode_escape hhigh hlow rest).symm)
          | none =>
              have hplain : ∀ cs, readEscape ('%' :: cs) = none →
                  percentDecode ('%' :: cs) = String.utf8EncodeChar '%' ++ percentDecode cs :=
                fun cs => Coded.Reader.decode_cons_of_none (r := escapes)
              rw [hplain _ (readEscape_escaped hread), hplain _ hread, hrest]
        · rw [percentDecode_cons hne, percentDecode_cons hne, hrest]

/-! ### The path of a reference -/

/-- What is cut off at the end of a reference. -/
def isTrimmed (c : Char) : Bool := c.toNat ≤ 0x20

/-- What is dropped anywhere in a reference. -/
def isDropped (c : Char) : Bool := c = '\t' || c = '\n' || c = '\r'

/-- A backslash is read as a slash. -/
def slashed (c : Char) : Char := if c = '\\' then '/' else c

def isSingleDot (segment : List Char) : Bool :=
  segment.map Char.toLower ∈ [".".toList, "%2e".toList]

def isDoubleDot (segment : List Char) : Bool :=
  segment.map Char.toLower ∈ ["..".toList, ".%2e".toList, "%2e.".toList, "%2e%2e".toList]

/-- The segments of a path, one dot left out and two taking back the segment before. A
path that ends in dots ends in a slash. -/
def resolveDots : List (List Char) → List (List Char) → List (List Char)
  | out, [] => out
  | out, segment :: rest =>
      let closing := if rest = [] then [[]] else []
      if isDoubleDot segment then resolveDots (out.dropLast ++ closing) rest
      else if isSingleDot segment then resolveDots (out ++ closing) rest
      else resolveDots (out ++ [segment]) rest

def joinSegments (segments : List (List Char)) : List Char := segments.flatMap ('/' :: ·)

/-- The text of the path in a reference that begins with a slash. -/
def pathPart (reference : List Char) : List Char :=
  ((reference.rdropWhile isTrimmed).filter fun c => !isDropped c).takeWhile fun c => !endsPath c

def normalised (path : List Char) : List Char :=
  joinSegments (resolveDots [] (split (path.map slashed) '/').tail)

/-- The path a browser sends for a reference that begins with a slash. -/
def sentPath (reference : List Char) : String :=
  requestPath (String.ofList (normalised (pathPart reference)))

@[simp]
theorem length_joinSegments_append (first rest : List (List Char)) :
    (joinSegments (first ++ rest)).length =
      (joinSegments first).length + (joinSegments rest).length := by
  simp [joinSegments]

theorem length_joinSegments_dropLast_le (segments : List (List Char)) :
    (joinSegments segments.dropLast).length ≤ (joinSegments segments).length :=
  ((List.dropLast_sublist segments).flatMap _).length_le

/-- Dots make a path shorter, and a path without dots is left alone. -/
theorem resolveDots_cases (out segments : List (List Char)) :
    ((∀ segment ∈ segments, isDoubleDot segment = false ∧ isSingleDot segment = false) ∧
        resolveDots out segments = out ++ segments) ∨
      (joinSegments (resolveDots out segments)).length <
        (joinSegments out).length + (joinSegments segments).length := by
  induction segments generalizing out with
  | nil => exact Or.inl ⟨fun segment h => absurd h List.not_mem_nil, (List.append_nil out).symm⟩
  | cons segment rest ih =>
      have hle : ∀ out, (joinSegments (resolveDots out rest)).length ≤
          (joinSegments out).length + (joinSegments rest).length := by
        intro out
        rcases ih out with ⟨-, heq⟩ | hlt
        · rw [heq, length_joinSegments_append]
        · exact hlt.le
      have hclosing : (joinSegments (if rest = [] then [[]] else [])).length ≤ 1 := by
        split
        · exact le_rfl
        · exact Nat.zero_le _
      have hsegments : (joinSegments (segment :: rest)).length =
          segment.length + 1 + (joinSegments rest).length := by
        simp [joinSegments]
        omega
      rw [resolveDots]
      by_cases hdouble : isDoubleDot segment = true
      · have hne : segment ≠ [] := by
          rintro rfl
          cases hdouble
        have hlength := List.length_pos_iff.mpr hne
        have hout := length_joinSegments_dropLast_le out
        have hresolved := hle (out.dropLast ++ if rest = [] then [[]] else [])
        rw [length_joinSegments_append] at hresolved
        rw [if_pos hdouble, hsegments]
        exact Or.inr (by omega)
      · rw [if_neg hdouble]
        by_cases hsingle : isSingleDot segment = true
        · have hne : segment ≠ [] := by
            rintro rfl
            cases hsingle
          have hlength := List.length_pos_iff.mpr hne
          have hresolved := hle (out ++ if rest = [] then [[]] else [])
          rw [length_joinSegments_append] at hresolved
          rw [if_pos hsingle, hsegments]
          exact Or.inr (by omega)
        · rw [if_neg hsingle]
          rcases ih (out ++ [segment]) with ⟨hplain, heq⟩ | hlt
          · refine Or.inl ⟨List.forall_mem_cons.mpr ⟨?_, hplain⟩, ?_⟩
            · exact ⟨Bool.not_eq_true _ ▸ hdouble, Bool.not_eq_true _ ▸ hsingle⟩
            · rw [heq, List.append_assoc, List.singleton_append]
          · have hown : (joinSegments [segment]).length = segment.length + 1 := by
              simp [joinSegments]
            rw [length_joinSegments_append, hown] at hlt
            rw [hsegments]
            exact Or.inr (by omega)

theorem resolveDots_eq {out segments : List (List Char)} (h : ∀ segment ∈ segments,
    isDoubleDot segment = false ∧ isSingleDot segment = false) :
    resolveDots out segments = out ++ segments := by
  induction segments generalizing out with
  | nil => exact (List.append_nil out).symm
  | cons segment rest ih =>
      obtain ⟨⟨hdouble, hsingle⟩, hrest⟩ := List.forall_mem_cons.mp h
      rw [resolveDots, hdouble, hsingle, if_neg Bool.false_ne_true, if_neg Bool.false_ne_true,
        ih hrest, List.append_assoc, List.singleton_append]

/-- A path is its first segment, and the other segments with a slash before each. -/
theorem exists_split_eq (path : List Char) :
    ∃ head, split path '/' = head :: (split path '/').tail ∧
      path = head ++ joinSegments (split path '/').tail := by
  have hjoin : ∀ (head : List Char) (tail : List (List Char)),
      ['/'].intercalate (head :: tail) = head ++ joinSegments tail := by
    intro head tail
    induction tail generalizing head with
    | nil => simp [joinSegments]
    | cons next tail ih =>
        rw [List.intercalate_cons_cons, ih, joinSegments, joinSegments, List.flatMap_cons]
        simp
  have hsplit : ['/'].intercalate (split path '/') = path := List.intercalate_splitOn '/'
  cases h : split path '/' with
  | nil =>
      rw [h] at hsplit
      exact absurd h (List.splitOn_ne_nil '/' path)
  | cons head tail =>
      rw [h, hjoin] at hsplit
      exact ⟨head, rfl, hsplit.symm⟩

/-- No segment of the path is left out or takes back another. -/
def DotFree (path : List Char) : Prop :=
  ∀ segment ∈ (split path '/').tail, isDoubleDot segment = false ∧ isSingleDot segment = false

theorem map_slashed {path : List Char} (h : '\\' ∉ path) : path.map slashed = path := by
  refine (List.map_congr_left fun c hc => if_neg ?_).trans path.map_id
  rintro rfl
  exact h hc

/-- A path is normalised to itself, or to a shorter one. -/
theorem normalised_cases (path : List Char) :
    (DotFree (path.map slashed) ∧ normalised path = path.map slashed) ∨
      (normalised path).length < path.length := by
  obtain ⟨head, -, hpath⟩ := exists_split_eq (path.map slashed)
  have hlength := congrArg List.length hpath
  rw [List.length_map, List.length_append] at hlength
  rcases resolveDots_cases [] (split (path.map slashed) '/').tail with ⟨hdots, heq⟩ | hlt
  · have hnormalised : normalised path = joinSegments (split (path.map slashed) '/').tail :=
      congrArg joinSegments heq
    by_cases hhead : head = []
    · rw [hhead, List.nil_append] at hpath
      exact Or.inl ⟨hdots, hnormalised.trans hpath.symm⟩
    · have hpos := List.length_pos_iff.mpr hhead
      rw [hnormalised]
      exact Or.inr (by omega)
  · have hnil : (joinSegments []).length = 0 := rfl
    rw [hnil] at hlt
    rw [normalised]
    exact Or.inr (by omega)

theorem normalised_length_le (path : List Char) : (normalised path).length ≤ path.length := by
  rcases normalised_cases path with ⟨-, heq⟩ | hlt
  · rw [heq, List.length_map]
  · exact hlt.le

theorem normalised_eq {rest : List Char} (hdots : DotFree ('/' :: rest))
    (hslash : '\\' ∉ '/' :: rest) : normalised ('/' :: rest) = '/' :: rest := by
  obtain ⟨head, hsplit, hpath⟩ := exists_split_eq ('/' :: rest)
  have hfront : split ('/' :: rest) '/' = [] :: split rest '/' :=
    List.splitOn_append_cons_self [] rest
  obtain rfl : [] = head := (List.cons.inj (hfront.symm.trans hsplit)).1
  rw [normalised, map_slashed hslash]
  exact (congrArg joinSegments (resolveDots_eq hdots)).trans hpath.symm

/-! ### There and back -/

/-- Nothing in a path is cut off, dropped, resolved, replaced or taken back. -/
structure Unchanged (path : List Char) : Prop where
  kept : ∀ c ∈ path, isDropped c = false ∧ endsPath c = false ∧ c ≠ '\\'
  dots : DotFree path
  escapes : escapes.Free path

theorem countP_asBytes (s : String) : (asBytes s).countP isLead = s.toList.length := by
  rw [asBytes]
  induction s.toList with
  | nil => rfl
  | cons c cs ih =>
      rw [List.flatMap_cons, List.countP_append, countP_utf8EncodeChar, ih, List.length_cons,
        Nat.add_comm]

theorem percentDecode_requestPath (path : List Char) :
    percentDecode (requestPath (String.ofList path)).toList =
      percentDecode (path.takeWhile fun c => !endsPath c) := by
  rw [requestPath, String.toList_ofList, String.toList_ofList, percentDecode_escaped]

theorem fromUTF8?_eq_some_iff {bytes : List UInt8} {s : String} :
    String.fromUTF8? ⟨bytes.toArray⟩ = some s ↔ asBytes s = bytes := by
  have hbytes : s.toByteArray = ⟨(asBytes s).toArray⟩ := by
    refine String.utf8Encode_toList.symm.trans (ByteArray.ext ?_)
    exact List.data_toByteArray
  rw [String.fromUTF8?]
  constructor
  · intro h
    split at h
    · have heq : s.toByteArray = ⟨bytes.toArray⟩ :=
        (congrArg String.toByteArray (Option.some.inj h)).symm
      rw [hbytes] at heq
      exact congrArg (fun b => b.data.toList) heq
    · cases h
  · rintro rfl
    have hvalid : ByteArray.IsValidUTF8 ⟨(asBytes s).toArray⟩ := hbytes ▸ s.isValidUTF8
    rw [dif_pos hvalid, Option.some.injEq, ← String.toByteArray_inj, hbytes]
    rfl

theorem asBytes_inj {s t : String} : asBytes s = asBytes t ↔ s = t := by
  constructor
  · intro h
    exact Option.some.inj ((fromUTF8?_eq_some_iff.mpr h).symm.trans (fromUTF8?_eq_some_iff.mpr rfl))
  · rintro rfl
    rfl

/-- What is sent is read back as a path that is no longer than the reference. -/
theorem length_le_of_sent {reference : List Char} {s : String}
    (h : percentDecode (sentPath reference).toList = asBytes s) :
    s.toList.length ≤ (pathPart reference).length := by
  have hcount := Coded.Reader.countP_decode_le escapes_shrinks
    ((normalised (pathPart reference)).takeWhile fun c => !endsPath c)
  have hcut := (List.takeWhile_prefix (l := normalised (pathPart reference))
    fun c => !endsPath c).length_le
  have hnormalised := normalised_length_le (pathPart reference)
  rw [sentPath, percentDecode_requestPath, percentDecode] at h
  rw [h, countP_asBytes] at hcount
  omega

/-- If it is as long, nothing was resolved or taken back. -/
theorem unchanged_of_sent {reference : List Char} {s : String}
    (h : percentDecode (sentPath reference).toList = asBytes s)
    (hlength : s.toList.length = (pathPart reference).length) :
    DotFree s.toList ∧ escapes.Free s.toList ∧ s.toList = (pathPart reference).map slashed := by
  obtain ⟨sent, hsent⟩ : ∃ sent, sent = (normalised (pathPart reference)).takeWhile
    fun c => !endsPath c := ⟨_, rfl⟩
  have hfront : sent <+: normalised (pathPart reference) := hsent ▸ List.takeWhile_prefix _
  have hnormalised := normalised_length_le (pathPart reference)
  have hdecoded : escapes.decode sent = asBytes s := by
    rw [← h, sentPath, percentDecode_requestPath, ← hsent, percentDecode]
  have hcount := Coded.Reader.countP_decode_le escapes_shrinks sent
  rw [hdecoded, countP_asBytes] at hcount
  have hsame : sent = normalised (pathPart reference) := hfront.eq_of_length_le (by omega)
  have hfree : escapes.Free sent := by
    refine Coded.Reader.free_of_countP_eq escapes_shrinks ?_
    have hle := hfront.length_le
    rw [hdecoded, countP_asBytes]
    omega
  have hs : s = String.ofList sent := by
    rw [← asBytes_inj, ← hdecoded, hfree.decode_eq, asBytes, String.toList_ofList]
    rfl
  rcases normalised_cases (pathPart reference) with ⟨hdots, heq⟩ | hlt
  · have hlist : s.toList = (pathPart reference).map slashed := by
      rw [hs, String.toList_ofList, hsame, heq]
    refine ⟨hlist ▸ hdots, ?_, hlist⟩
    rwa [hs, String.toList_ofList]
  · rw [← hsame] at hlt
    omega

/-- The query has no part in the path. -/
theorem pathPart_query (path query : List Char) :
    pathPart (path ++ '?' :: query) =
      (path.filter fun c => !isDropped c).takeWhile fun c => !endsPath c := by
  have htrimmed :
      ∃ query', (path ++ '?' :: query).rdropWhile isTrimmed = path ++ '?' :: query' := by
    induction query using List.reverseRecOn with
    | nil => exact ⟨[], List.rdropWhile_concat_neg _ _ _ (by decide)⟩
    | append_singleton query c ih =>
        rw [← List.cons_append, ← List.append_assoc]
        by_cases hc : isTrimmed c = true
        · rw [List.rdropWhile_concat_pos _ _ _ hc]
          exact ih
        · rw [List.rdropWhile_concat_neg _ _ _ hc]
          exact ⟨query ++ [c], by simp⟩
  obtain ⟨query', hquery⟩ := htrimmed
  have hstop : ∀ before after : List Char,
      (before ++ '?' :: after).takeWhile (fun c => !endsPath c) =
      before.takeWhile fun c => !endsPath c := by
    intro before after
    rw [List.takeWhile_append]
    split
    · rename_i hall
      exact (List.append_nil _).trans ((List.takeWhile_prefix _).eq_of_length hall).symm
    · rfl
  rw [pathPart, hquery, List.filter_append, List.filter_cons_of_pos (by decide), hstop]

theorem length_pathPart_le (reference : List Char) :
    (pathPart reference).length ≤ reference.length :=
  ((List.takeWhile_prefix _).length_le.trans (List.length_filter_le _ _)).trans
    (List.rdropWhile_prefix _ _).length_le

/-- A path that is unchanged is sent with its escapes. -/
theorem toList_sentPath {rest : List Char} (h : Unchanged ('/' :: rest)) (query : List Char) :
    (sentPath ('/' :: rest ++ '?' :: query)).toList = ('/' :: rest).flatMap escapeChar := by
  have hfilter : List.filter (fun c => !isDropped c) ('/' :: rest) = '/' :: rest :=
    List.filter_eq_self.mpr fun c hc => by simp [(h.kept c hc).1]
  have hwhole : List.takeWhile (fun c => !endsPath c) ('/' :: rest) = '/' :: rest :=
    List.takeWhile_eq_self_iff.mpr fun c hc => by simp [(h.kept c hc).2.1]
  have hslash : '\\' ∉ '/' :: rest := fun hc => (h.kept _ hc).2.2 rfl
  rw [sentPath, pathPart_query, hfilter, hwhole, normalised_eq h.dots hslash, requestPath,
    String.toList_ofList, String.toList_ofList, hwhole]

/-- A reference leads to its own path only if its path is unchanged on the way. -/
theorem unchanged_of_sent_query {rest query : List Char}
    (h : percentDecode (sentPath ('/' :: rest ++ '?' :: query)).toList =
      asBytes (String.ofList ('/' :: rest))) : Unchanged ('/' :: rest) := by
  have hpart := pathPart_query ('/' :: rest) query
  have hshort := length_le_of_sent h
  rw [hpart, String.toList_ofList] at hshort
  have htake : (List.takeWhile (fun c => !endsPath c)
      (List.filter (fun c => !isDropped c) ('/' :: rest))) <+: _ := List.takeWhile_prefix _
  have hfilter : List.filter (fun c => !isDropped c) ('/' :: rest) = '/' :: rest :=
    List.filter_sublist.eq_of_length_le (hshort.trans htake.length_le)
  rw [hfilter] at hpart hshort htake
  have hwhole := htake.eq_of_length_le hshort
  rw [hwhole] at hpart
  obtain ⟨hdots, hfree, hslashed⟩ := unchanged_of_sent h (by rw [String.toList_ofList, hpart])
  rw [String.toList_ofList] at hdots hfree hslashed
  rw [hpart] at hslashed
  refine ⟨fun c hc => ⟨?_, ?_, ?_⟩, hdots, hfree⟩
  · simpa using List.filter_eq_self.mp hfilter c hc
  · simpa using List.takeWhile_eq_self_iff.mp hwhole c hc
  · rintro rfl
    have hid := List.map_inj_left.mp (hslashed.symm.trans (List.map_id _).symm) '\\' hc
    exact absurd hid (by decide)

end TodoRust.Preview
