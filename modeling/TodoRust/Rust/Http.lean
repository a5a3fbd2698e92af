import TodoRust.Rust.Str

/-!
# HTTP header values, header maps and status codes

Header values are byte strings. The two checks of the `http` crate differ: a
value may hold any byte that is not a control character, while its reading as a
`str` also requires visible ASCII.
-/

namespace TodoRust.Rust

/-- The bytes a header value may hold. -/
def isValidByte (b : UInt8) : Bool := (32 ≤ b && b != 127) || b == 9

/-- The bytes `to_str` accepts. -/
def isVisibleAscii (b : UInt8) : Bool := (32 ≤ b && b < 127) || b == 9

/-- `http::HeaderValue`, which cannot hold a control character. -/
structure HeaderValue where
  bytes : List UInt8
  valid : bytes.all isValidByte = true
  deriving DecidableEq

namespace HeaderValue

/-- `HeaderValue::from_str` -/
def fromStr (s : String) : Option HeaderValue :=
  if h : (asBytes s).all isValidByte = true then some ⟨asBytes s, h⟩ else none

/-- `HeaderValue::to_str` -/
def toStr (v : HeaderValue) : Option String :=
  if v.bytes.all isVisibleAscii then
    some (String.ofList (v.bytes.map fun b => Char.ofNat b.toNat))
  else none

/-- Two values with a comma between them. -/
def joinComma (a b : HeaderValue) : HeaderValue where
  bytes := a.bytes ++ 44 :: b.bytes
  valid := by
    rw [List.all_append, List.all_cons, a.valid, b.valid]
    rfl

theorem toStr_eq_some_iff {v : HeaderValue} {s : String} :
    v.toStr = some s ↔ v.bytes.all isVisibleAscii = true ∧
      s.toList = v.bytes.map fun b => Char.ofNat b.toNat := by
  unfold toStr
  split
  · rename_i h
    rw [Option.some.injEq, ← String.toList_inj, String.toList_ofList]
    exact ⟨fun hs => ⟨h, hs.symm⟩, fun hs => hs.2.symm⟩
  · rename_i h
    exact iff_of_false (by simp) fun hs => h hs.1

/-- A joined value is readable when both parts are, and reads as both. -/
theorem toStr_joinComma (a b : HeaderValue) :
    (a.joinComma b).toStr = a.toStr.bind fun x => b.toStr.map fun y => x ++ "," ++ y := by
  unfold toStr joinComma
  have hcomma : isVisibleAscii 44 = true := by decide
  cases ha : a.bytes.all isVisibleAscii <;> cases hb : b.bytes.all isVisibleAscii <;>
    simp [ha, hb, hcomma, ← String.toList_inj]

theorem toNat_charOfNat {n : Nat} (h : n < 256) : (Char.ofNat n).toNat = n := by
  unfold Char.ofNat
  rw [dif_pos (Or.inl (by omega))]
  rfl

/-- A readable value has a comma only where it has the byte. -/
theorem comma_not_mem_toStr {v : HeaderValue} (h : (44 : UInt8) ∉ v.bytes) {s : String}
    (hs : v.toStr = some s) : ',' ∉ s.toList := by
  obtain ⟨hv, hl⟩ := toStr_eq_some_iff.mp hs
  rw [hl, List.mem_map]
  rintro ⟨b, hb, hc⟩
  have hlt : b.toNat < 127 := by
    have hvis := List.all_eq_true.mp hv b hb
    simp only [isVisibleAscii, Bool.or_eq_true, Bool.and_eq_true, decide_eq_true_eq, beq_iff_eq,
      UInt8.lt_iff_toNat_lt] at hvis
    rcases hvis with ⟨_, hlt⟩ | rfl
    · exact hlt
    · decide
  have hcode : b.toNat = 44 := by
    have hn := congrArg Char.toNat hc
    rwa [toNat_charOfNat (by omega)] at hn
  exact h (by rwa [show b = 44 from UInt8.toNat_inj.mp hcode] at hb)

end HeaderValue

/-- The control characters no header value can hold. -/
def isHeaderControl (c : Char) : Bool := (c.toNat < 32 && c.toNat != 9) || c.toNat == 127

theorem utf8EncodeChar_of_lt {c : Char} (h : c.toNat < 128) :
    String.utf8EncodeChar c = [UInt8.ofNat c.toNat] :=
  if_pos (show c.val.toNat ≤ 0x7f from Nat.le_of_lt_succ h)

/-- Every byte of a character outside ASCII is at least `0x80`. -/
theorem le_of_mem_utf8EncodeChar {c : Char} (h : 128 ≤ c.toNat) {b : UInt8}
    (hb : b ∈ String.utf8EncodeChar c) : 128 ≤ b.toNat := by
  have hc : ¬ c.val.toNat ≤ 0x7f := Nat.not_le.mpr h
  simp only [String.utf8EncodeChar, if_neg hc] at hb
  split at hb
  · simp only [List.mem_cons, List.not_mem_nil, or_false] at hb
    rcases hb with rfl | rfl <;> simp only [UInt8.toNat_ofNat'] <;> omega
  · split at hb
    · simp only [List.mem_cons, List.not_mem_nil, or_false] at hb
      rcases hb with rfl | rfl | rfl <;> simp only [UInt8.toNat_ofNat'] <;> omega
    · simp only [List.mem_cons, List.not_mem_nil, or_false] at hb
      rcases hb with rfl | rfl | rfl | rfl <;> simp only [UInt8.toNat_ofNat'] <;> omega

theorem isValidByte_iff (b : UInt8) :
    isValidByte b = true ↔ (32 ≤ b.toNat ∧ b.toNat ≠ 127) ∨ b.toNat = 9 := by
  simp [isValidByte, UInt8.le_iff_toNat_le, ← UInt8.toNat_inj]

/-- The bytes of a character are valid exactly when it is no control character. -/
theorem utf8EncodeChar_valid_iff (c : Char) :
    (∀ b ∈ String.utf8EncodeChar c, isValidByte b = true) ↔ isHeaderControl c = false := by
  by_cases h : c.toNat < 128
  · rw [utf8EncodeChar_of_lt h]
    have hmod : c.toNat % 256 = c.toNat := Nat.mod_eq_of_lt (by omega)
    simp only [List.mem_singleton, forall_eq, isValidByte_iff, UInt8.toNat_ofNat', Nat.reducePow,
      hmod, isHeaderControl]
    grind
  · have hfalse : isHeaderControl c = false := by
      simp only [isHeaderControl, Bool.or_eq_false_iff, Bool.and_eq_false_iff,
        decide_eq_false_iff_not, beq_eq_false_iff_ne]
      omega
    refine iff_of_true (fun b hb => ?_) hfalse
    have hb' := le_of_mem_utf8EncodeChar (Nat.not_lt.mp h) hb
    rw [isValidByte_iff]
    omega

/-- A text is a header value exactly when it has no control character but tab. -/
theorem asBytes_valid_iff (s : String) :
    (asBytes s).all isValidByte = true ↔ ∀ c ∈ s.toList, isHeaderControl c = false := by
  simp only [asBytes, List.all_eq_true, List.mem_flatMap]
  constructor
  · intro h c hc
    exact (utf8EncodeChar_valid_iff c).mp fun b hb => h b ⟨c, hc, hb⟩
  · rintro h b ⟨c, hc, hb⟩
    exact (utf8EncodeChar_valid_iff c).mpr (h c hc) b hb

theorem HeaderValue.fromStr_eq_none_iff (s : String) :
    HeaderValue.fromStr s = none ↔ ∃ c ∈ s.toList, isHeaderControl c = true := by
  unfold HeaderValue.fromStr
  split
  · rename_i h
    rw [asBytes_valid_iff] at h
    simp only [reduceCtorEq, false_iff, not_exists, not_and, Bool.not_eq_true]
    exact h
  · rename_i h
    rw [asBytes_valid_iff] at h
    simpa using h

theorem HeaderValue.fromStr_bytes {s : String} {v : HeaderValue}
    (h : HeaderValue.fromStr s = some v) : v.bytes = asBytes s := by
  unfold HeaderValue.fromStr at h
  split at h
  · rw [← Option.some.inj h]
  · cases h

/-- The characters of visible ASCII. -/
def isVisibleChar (c : Char) : Bool := 32 ≤ c.toNat && c.toNat < 127

/-- A text of visible ASCII is read back as it was written. -/
theorem HeaderValue.toStr_fromStr {s : String} (h : s.toList.all isVisibleChar = true) :
    (HeaderValue.fromStr s).bind HeaderValue.toStr = some s := by
  have hchar : ∀ c ∈ s.toList, 32 ≤ c.toNat ∧ c.toNat < 127 := by
    intro c hc
    simpa [isVisibleChar] using List.all_eq_true.mp h c hc
  have hbytes : asBytes s = s.toList.map fun c => UInt8.ofNat c.toNat := by
    rw [asBytes, List.map_eq_flatMap]
    exact List.flatMap_congr fun c hc => utf8EncodeChar_of_lt ((hchar c hc).2.trans (by decide))
  have hcode : ∀ c ∈ s.toList, (UInt8.ofNat c.toNat).toNat = c.toNat :=
    fun c hc => UInt8.toNat_ofNat_of_lt' ((hchar c hc).2.trans (by decide))
  have hvisible : (asBytes s).all isVisibleAscii = true := by
    rw [hbytes, List.all_map, List.all_eq_true]
    intro c hc
    simp only [Function.comp_apply, isVisibleAscii, Bool.or_eq_true, Bool.and_eq_true,
      decide_eq_true_eq, UInt8.le_iff_toNat_le, UInt8.lt_iff_toNat_lt, hcode c hc]
    exact Or.inl (hchar c hc)
  have hvalid : (asBytes s).all isValidByte = true := by
    rw [asBytes_valid_iff]
    intro c hc
    obtain ⟨hlow, hhigh⟩ := hchar c hc
    simp only [isHeaderControl, Bool.or_eq_false_iff, Bool.and_eq_false_iff,
      decide_eq_false_iff_not, beq_eq_false_iff_ne]
    omega
  have hread : ((asBytes s).map fun b => Char.ofNat b.toNat) = s.toList := by
    calc ((asBytes s).map fun b => Char.ofNat b.toNat)
        = s.toList.map fun c => Char.ofNat (UInt8.ofNat c.toNat).toNat := by
          rw [hbytes, List.map_map, Function.comp_def]
      _ = s.toList.map id := List.map_congr_left fun c hc => by
          rw [hcode c hc, Char.ofNat_toNat, id_eq]
      _ = s.toList := s.toList.map_id
  rw [HeaderValue.fromStr, dif_pos hvalid, Option.bind_some, HeaderValue.toStr_eq_some_iff]
  exact ⟨hvisible, hread.symm⟩

/-- `http::HeaderMap`: header lines with lower-case names, in order. -/
abbrev HeaderMap := List (String × HeaderValue)

namespace HeaderMap

/-- `HeaderMap::get`: the first line of that name. -/
def get (headers : HeaderMap) (name : String) : Option HeaderValue :=
  (headers.find? fun line => line.1 == name).map Prod.snd

/-- `HeaderMap::get_all`: every line of that name, in order. -/
def getAll (headers : HeaderMap) (name : String) : List HeaderValue :=
  (headers.filter fun line => line.1 == name).map Prod.snd

theorem get_eq_head?_getAll (headers : HeaderMap) (name : String) :
    headers.get name = (headers.getAll name).head? := by
  simp [get, getAll, List.head?_map, List.head?_filter]

/-- `HeaderMap::insert`: the new line replaces every line of that name. -/
def insert (headers : HeaderMap) (name : String) (value : HeaderValue) : HeaderMap :=
  headers.filter (fun line => line.1 != name) ++ [(name, value)]

theorem get_insert (headers : HeaderMap) (name : String) (value : HeaderValue) :
    (headers.insert name value).get name = some value := by
  have hnone : (headers.filter fun line => line.1 != name).find? (fun line => line.1 == name) =
      none := by
    simp [List.find?_eq_none]
  simp [get, insert, List.find?_append, hnone]

theorem get_insert_of_ne (headers : HeaderMap) {name other : String} (h : name ≠ other)
    (value : HeaderValue) : (headers.insert other value).get name = headers.get name := by
  have hpart : (headers.filter fun line => line.1 != other).find? (fun line => line.1 == name) =
      headers.find? fun line => line.1 == name := by
    rw [List.find?_filter]
    congr 1
    funext line
    cases hline : line.1 == name with
    | false => simp
    | true => simp [beq_iff_eq.mp hline, h]
  simp [get, insert, List.find?_append, hpart, h.symm]

theorem getAll_insert (headers : HeaderMap) (name : String) (value : HeaderValue) :
    (headers.insert name value).getAll name = [value] := by
  have hnone : (headers.filter fun line => line.1 != name).filter (fun line => line.1 == name) =
      [] := by
    simp [List.filter_eq_nil_iff]
  simp [getAll, insert, hnone]

theorem getAll_insert_of_ne (headers : HeaderMap) {name other : String} (h : name ≠ other)
    (value : HeaderValue) : (headers.insert other value).getAll name = headers.getAll name := by
  have hpart : (headers.filter fun line => line.1 != other).filter (fun line => line.1 == name) =
      headers.filter fun line => line.1 == name := by
    rw [List.filter_filter]
    refine List.filter_congr fun line _ => ?_
    cases hline : line.1 == name with
    | false => rfl
    | true => simp [beq_iff_eq.mp hline, h]
  simp [getAll, insert, List.filter_append, hpart, h.symm]

theorem get_eq_none_iff (headers : HeaderMap) (name : String) :
    headers.get name = none ↔ headers.getAll name = [] := by
  rw [get_eq_head?_getAll, List.head?_eq_none_iff]

end HeaderMap

/-- `http::StatusCode` -/
abbrev StatusCode := Nat

namespace StatusCode

def ok : StatusCode := 200
def created : StatusCode := 201
def noContent : StatusCode := 204
def partialContent : StatusCode := 206
def seeOther : StatusCode := 303
def notModified : StatusCode := 304
def unauthorized : StatusCode := 401
def forbidden : StatusCode := 403
def notFound : StatusCode := 404
def methodNotAllowed : StatusCode := 405
def requestTimeout : StatusCode := 408
def conflict : StatusCode := 409
def unprocessableEntity : StatusCode := 422
def tooManyRequests : StatusCode := 429
def internalServerError : StatusCode := 500
def serviceUnavailable : StatusCode := 503

end StatusCode

end TodoRust.Rust
