import Mathlib.Algebra.Group.Nat.Defs
import TodoRust.StaticFiles.Serve

/-!
# What a client accepts

`Accept-Encoding` is a list of codings with weights, and a coding of weight 0 is
refused. The service looks at the spelling in front of the weight only, so it
sends what the client accepts as long as the spelling says the same as the element.
-/

namespace TodoRust.StaticFiles
open Rust

/-! ### The grammar of the header -/

/-- Optional whitespace. -/
def isOws (c : Char) : Bool := c = ' ' || c = '\t'

def trimOws (cs : List Char) : List Char := (cs.dropWhile isOws).rdropWhile isOws

/-- Up to three digits, as a fraction in thousandths. -/
def fraction (ds : List Char) : Option Nat :=
  if ds.length ≤ 3 ∧ ds.all Char.isDigit = true then
    some (ds.foldl (fun n d => n * 10 + (d.toNat - '0'.toNat)) 0 * 10 ^ (3 - ds.length))
  else none

/-- A weight from 0 to 1, in thousandths. -/
def qvalue : List Char → Option Nat
  | ['0'] => some 0
  | '0' :: '.' :: ds => fraction ds
  | ['1'] => some 1000
  | '1' :: '.' :: ds => if fraction ds = some 0 then some 1000 else none
  | _ => none

/-- `q=` and a weight. -/
def weight : List Char → Option Nat
  | q :: '=' :: value => if q.toLower = 'q' then qvalue value else none
  | _ => none

/-- An element of the list: its coding, and its weight, which is 1 if none is given. -/
def listElement (t : List Char) : Option (List Char × Nat) :=
  let t := trimOws t
  match t.dropWhile (· != ';') with
  | [] => some (t, 1000)
  | _ :: rest => (weight (trimOws rest)).map fun w => (trimOws (t.takeWhile (· != ';')), w)

/-- The element lists the coding, in any case, with a weight other than 0. -/
def listsCoding (coding : String) (t : List Char) : Bool :=
  match listElement t with
  | some (name, w) => name.map Char.toLower = coding.toList.map Char.toLower && w != 0
  | none => false

example : listsCoding "br" " BR ; Q=0.5".toList = true ∧
    listsCoding "br" "br;q=0.000".toList = false ∧
    listsCoding "br" "br;q=0.0001".toList = false := by decide

/-- The client lists the coding as acceptable. -/
def Acceptable (acceptEncoding : Option String) (coding : String) : Prop :=
  ∃ h ∈ acceptEncoding, ∃ t ∈ split h.toList ',', listsCoding coding t = true

/-- The spelling of an element, up to its first semicolon. -/
def spelling (t : List Char) : List Char := (trimChars t).takeWhile (· != ';')

/-- Some element is spelled as the coding. -/
def Spelled (acceptEncoding : Option String) (coding : String) : Prop :=
  ∃ h ∈ acceptEncoding, ∃ t ∈ split h.toList ',', spelling t = coding.toList

/-! ### The choice of a file -/

theorem head?_split (s : List Char) (sep : Char) :
    (split s sep).head? = some (s.takeWhile (· != sep)) := by
  unfold split List.splitOn
  induction s with
  | nil => rfl
  | cons c s ih =>
      rw [List.splitOnP_cons_eq_if_modifyHead, List.takeWhile_cons]
      cases hc : c == sep with
      | true => simp [bne, hc]
      | false => simp [bne, hc, ih]

theorem accepts_iff (acceptEncoding : Option String) (coding : String) :
    accepts acceptEncoding coding = true ↔ Spelled acceptEncoding coding := by
  unfold accepts Spelled spelling
  cases acceptEncoding with
  | none => simp
  | some h => simp [head?_split]

/-- The file of a coding, next to the file itself. -/
def Coding.sibling (path : String) : Coding → String
  | .br => withExtraExt path "br"
  | .gzip => withExtraExt path "gz"

/-- The name of a coding in the header. -/
def Coding.token : Coding → String
  | .br => "br"
  | .gzip => "gzip"

/-- A coding is sent in its sibling only, and no coding in the file itself. -/
def Paired (path : String) (picked : String × Option Coding) : Prop :=
  picked.1 = (picked.2.elim path (Coding.sibling path))

section Choice
variable (disk : Disk) (path : String) (acceptEncoding : Option String)

def HasSibling (coding : Coding) : Prop := (disk (coding.sibling path)).isSome = true

/-- The choice a client can rely on: only what it accepts, `br` first. -/
structure Negotiates (picked : String × Option Coding) : Prop where
  accepted : ∀ coding ∈ picked.2, Acceptable acceptEncoding coding.token
  br : HasSibling disk path .br → Acceptable acceptEncoding "br" → picked.2 = some .br
  gzip : ¬ (HasSibling disk path .br ∧ Acceptable acceptEncoding "br") →
    HasSibling disk path .gzip → Acceptable acceptEncoding "gzip" → picked.2 = some .gzip
  raw : ¬ (HasSibling disk path .br ∧ Acceptable acceptEncoding "br") →
    ¬ (HasSibling disk path .gzip ∧ Acceptable acceptEncoding "gzip") → picked.2 = none
  paired : Paired path picked

/-- For a sibling that decides, the spelling of some element says what some element
lists. -/
def ReadAlike : Prop :=
  (HasSibling disk path .br → (Spelled acceptEncoding "br" ↔ Acceptable acceptEncoding "br")) ∧
    (HasSibling disk path .gzip → ¬ (HasSibling disk path .br ∧ Acceptable acceptEncoding "br") →
      (Spelled acceptEncoding "gzip" ↔ Acceptable acceptEncoding "gzip"))

/-- What `pick_precompressed` can do. -/
theorem pickPrecompressed_cases :
    (Spelled acceptEncoding "br" ∧ HasSibling disk path .br ∧
      pickPrecompressed disk path acceptEncoding = (Coding.sibling path .br, some .br)) ∨
    (¬ (Spelled acceptEncoding "br" ∧ HasSibling disk path .br) ∧
      Spelled acceptEncoding "gzip" ∧ HasSibling disk path .gzip ∧
      pickPrecompressed disk path acceptEncoding = (Coding.sibling path .gzip, some .gzip)) ∨
    (¬ (Spelled acceptEncoding "br" ∧ HasSibling disk path .br) ∧
      ¬ (Spelled acceptEncoding "gzip" ∧ HasSibling disk path .gzip) ∧
      pickPrecompressed disk path acceptEncoding = (path, none)) := by
  rw [← accepts_iff, ← accepts_iff]
  unfold pickPrecompressed
  split_ifs with hbr hgzip
  · exact Or.inl ⟨hbr.1, hbr.2, rfl⟩
  · exact Or.inr (Or.inl ⟨hbr, hgzip.1, hgzip.2, rfl⟩)
  · exact Or.inr (Or.inr ⟨hbr, hgzip, rfl⟩)

theorem pickPrecompressed_paired : Paired path (pickPrecompressed disk path acceptEncoding) := by
  rcases pickPrecompressed_cases disk path acceptEncoding
    with ⟨-, -, h⟩ | ⟨-, -, -, h⟩ | ⟨-, -, h⟩
  all_goals
    rw [h]
    rfl

variable {disk path acceptEncoding}

/-- With `br` sent, it has to be acceptable. -/
theorem negotiates_br_iff {picked : String × Option Coding} (hpaired : Paired path picked)
    (h : picked.2 = some .br) (hspelled : Spelled acceptEncoding "br")
    (hsibling : HasSibling disk path .br) :
    Negotiates disk path acceptEncoding picked ↔ ReadAlike disk path acceptEncoding := by
  constructor
  · intro hpicked
    have haccept : Acceptable acceptEncoding "br" := hpicked.accepted .br h
    exact ⟨fun _ => iff_of_true hspelled haccept, fun _ hno => absurd ⟨hsibling, haccept⟩ hno⟩
  · intro hread
    have haccept := (hread.1 hsibling).mp hspelled
    refine ⟨?_, fun _ _ => h, fun hno => absurd ⟨hsibling, haccept⟩ hno,
      fun hno => absurd ⟨hsibling, haccept⟩ hno, hpaired⟩
    intro coding hcoding
    obtain rfl : Coding.br = coding := Option.some.inj (h.symm.trans hcoding)
    exact haccept

/-- With `gzip` sent, `br` must not be due, and `gzip` has to be acceptable. -/
theorem negotiates_gzip_iff {picked : String × Option Coding} (hpaired : Paired path picked)
    (h : picked.2 = some .gzip) (hbr : ¬ (Spelled acceptEncoding "br" ∧ HasSibling disk path .br))
    (hspelled : Spelled acceptEncoding "gzip") (hsibling : HasSibling disk path .gzip) :
    Negotiates disk path acceptEncoding picked ↔ ReadAlike disk path acceptEncoding := by
  constructor
  · intro hpicked
    have haccept : Acceptable acceptEncoding "gzip" := hpicked.accepted .gzip h
    refine ⟨fun hb => iff_of_false (fun hs => hbr ⟨hs, hb⟩) fun ha => ?_,
      fun _ _ => iff_of_true hspelled haccept⟩
    have hsent := hpicked.br hb ha
    rw [h] at hsent
    cases hsent
  · intro hread
    have hdue : ¬ (HasSibling disk path .br ∧ Acceptable acceptEncoding "br") :=
      fun ⟨hb, ha⟩ => hbr ⟨(hread.1 hb).mpr ha, hb⟩
    have haccept := (hread.2 hsibling hdue).mp hspelled
    refine ⟨?_, fun hb ha => absurd ⟨hb, ha⟩ hdue, fun _ _ _ => h,
      fun _ hno => absurd ⟨hsibling, haccept⟩ hno, hpaired⟩
    intro coding hcoding
    obtain rfl : Coding.gzip = coding := Option.some.inj (h.symm.trans hcoding)
    exact haccept

/-- With the file itself sent, no coding must be due. -/
theorem negotiates_raw_iff {picked : String × Option Coding} (hpaired : Paired path picked)
    (h : picked.2 = none) (hbr : ¬ (Spelled acceptEncoding "br" ∧ HasSibling disk path .br))
    (hgzip : ¬ (Spelled acceptEncoding "gzip" ∧ HasSibling disk path .gzip)) :
    Negotiates disk path acceptEncoding picked ↔ ReadAlike disk path acceptEncoding := by
  have hunsent (coding : Coding) : picked.2 ≠ some coding := by
    rw [h]
    exact Option.some_ne_none coding ∘ Eq.symm
  constructor
  · intro hpicked
    exact ⟨fun hb => iff_of_false (fun hs => hbr ⟨hs, hb⟩) fun ha => hunsent _ (hpicked.br hb ha),
      fun hg hdue => iff_of_false (fun hs => hgzip ⟨hs, hg⟩)
        fun ha => hunsent _ (hpicked.gzip hdue hg ha)⟩
  · intro hread
    have hdue : ¬ (HasSibling disk path .br ∧ Acceptable acceptEncoding "br") :=
      fun ⟨hb, ha⟩ => hbr ⟨(hread.1 hb).mpr ha, hb⟩
    exact ⟨fun coding hcoding => absurd hcoding (hunsent coding),
      fun hb ha => absurd ⟨hb, ha⟩ hdue,
      fun _ hg ha => absurd ⟨(hread.2 hg hdue).mpr ha, hg⟩ hgzip, fun _ _ => h, hpaired⟩

end Choice

/-- The path and the coding always belong together, and the choice is the one a client
can rely on exactly when the spelling of the elements says what they list. -/
theorem pickPrecompressed_negotiates_iff (disk : Disk) (path : String)
    (acceptEncoding : Option String) :
    Paired path (pickPrecompressed disk path acceptEncoding) ∧
      (Negotiates disk path acceptEncoding (pickPrecompressed disk path acceptEncoding) ↔
        ReadAlike disk path acceptEncoding) := by
  have hpaired := pickPrecompressed_paired disk path acceptEncoding
  refine ⟨hpaired, ?_⟩
  rcases pickPrecompressed_cases disk path acceptEncoding
    with ⟨hspelled, hsibling, h⟩ | ⟨hbr, hspelled, hsibling, h⟩ | ⟨hbr, hgzip, h⟩
  · exact negotiates_br_iff hpaired (congrArg Prod.snd h) hspelled hsibling
  · exact negotiates_gzip_iff hpaired (congrArg Prod.snd h) hbr hspelled hsibling
  · exact negotiates_raw_iff hpaired (congrArg Prod.snd h) hbr hgzip

/-- A client that refuses `br` gets it. -/
theorem pickPrecompressed_refused :
    ¬ ∀ (disk : Disk) (path : String) (acceptEncoding : Option String),
      Negotiates disk path acceptEncoding (pickPrecompressed disk path acceptEncoding) := by
  intro hall
  have hpicked := hall (fun _ => some []) "app.css" (some "br;q=0")
  obtain ⟨h, hh, t, ht, hlists⟩ := hpicked.accepted .br (by decide)
  obtain rfl : "br;q=0" = h := Option.some.inj hh
  have hrefused : ∀ t ∈ split "br;q=0".toList ',', listsCoding "br" t ≠ true :=
    List.forall_iff_forall_mem.mp (by decide)
  exact hrefused t ht hlists

end TodoRust.StaticFiles
