import TodoRust.Preview.FileSystem

/-!
# Names of templates and fixtures

A template is named by its path below the directory of templates, and its fixtures
lie in the directory of that name without the extension.
-/

namespace TodoRust.Preview
open Lib Rust StaticFiles

/-! ### Ends of names -/

/-- `rsplit_file_at_dot`: what stands before and after the last dot of a file name. A
dot at its start does not count. -/
def rsplitFileAtDot (file : String) : Option String × Option String :=
  if file = ".." then (some file, none)
  else
    match rfind file.toList '.' with
    | none => (none, some file)
    | some dot =>
        if dot = 0 then (some file, none)
        else (some (String.ofList (file.toList.take dot)),
          some (String.ofList (file.toList.drop (dot + 1))))

/-- `Path::file_stem`, of a file name -/
def fileStem (file : String) : Option String :=
  let (before, after) := rsplitFileAtDot file
  before.or after

/-- `Path::extension`, of a file name -/
def extension (file : String) : Option String :=
  let (before, after) := rsplitFileAtDot file
  before.bind fun _ => after

/-- The loop of `trim_end_matches`. -/
def trimEndLoop (pat : List Char) : Nat → List Char → List Char
  | 0, s => s
  | fuel + 1, s =>
      if pat.isSuffixOf s then trimEndLoop pat fuel (s.take (s.length - pat.length)) else s

/-- `trim_end_matches` -/
def trimEndMatches (s : String) (pat : List Char) : String :=
  String.ofList (trimEndLoop pat s.toList.length s.toList)

/-! ### Components -/

/-- `Path::components`: the root, as an empty name, or a leading dot, and then the names. -/
def pathComponents (path : String) : List String :=
  let lead := if startsWith path ['/'] then [""]
    else if (components path).head? = some "." then ["."] else []
  lead ++ (components path).filter fun name => name ≠ "" ∧ name ≠ "."

/-- `Path::strip_prefix` -/
def stripPrefix (path base : String) : Option String :=
  let own := pathComponents path
  let above := pathComponents base
  if above.isPrefixOf own then some (logicalPath (own.drop above.length)) else none

/-! ### The last dot of a name -/

theorem rsplitFileAtDot_undotted {file : String} (h : '.' ∉ file.toList) :
    rsplitFileAtDot file = (none, some file) := by
  have hfile : file ≠ ".." := by
    rintro rfl
    exact absurd h (by decide)
  rw [rsplitFileAtDot, if_neg hfile, rfind_eq_none h]

/-- A file name that ends in `.toml`. -/
theorem rsplitFileAtDot_toml (stem : String) :
    rsplitFileAtDot (stem ++ ".toml") =
      if stem = "" then (some ".toml", none) else (some stem, some "toml") := by
  have hchars : (stem ++ ".toml").toList = stem.toList ++ '.' :: "toml".toList := by simp
  have hfile : stem ++ ".toml" ≠ ".." := by
    intro h
    have hlength := congrArg (fun s : String => s.toList.length) h
    simp at hlength
  rw [rsplitFileAtDot, if_neg hfile, hchars, rfind_append_cons (by decide)]
  by_cases hstem : stem = ""
  · subst hstem
    rfl
  · have hlength : stem.toList.length ≠ 0 := fun h =>
      hstem (String.toList_eq_nil_iff.mp (List.length_eq_zero_iff.mp h))
    simp only [hlength, if_false, hstem, List.take_left, drop_append_cons, String.ofList_toList]

/-- The fixtures are the names of a story and `.toml`. -/
theorem extension_toml_iff {file : String} :
    extension file = some "toml" ↔ ∃ stem, stem ≠ "" ∧ file = stem ++ ".toml" := by
  constructor
  · intro h
    by_cases hdot : '.' ∈ file.toList
    · obtain ⟨front, ext, hchars, hext⟩ := exists_last_dot hdot
      have hup : file ≠ ".." := by
        rintro rfl
        exact absurd h (by decide)
      by_cases hfront : front.length = 0
      · rw [extension, rsplitFileAtDot, if_neg hup, hchars, rfind_append_cons hext] at h
        simp [hfront] at h
      · rw [extension, rsplitFileAtDot, if_neg hup, hchars, rfind_append_cons hext] at h
        simp only [hfront, if_false, drop_append_cons, Option.bind_some, Option.some.injEq] at h
        refine ⟨String.ofList front, ?_, ?_⟩
        · intro hempty
          have hlength := congrArg (fun s : String => s.toList.length) hempty
          rw [String.toList_ofList] at hlength
          exact hfront hlength
        · apply String.toList_inj.mp
          have htoml := congrArg String.toList h
          rw [String.toList_ofList] at htoml
          rw [hchars, htoml]
          simp
    · rw [extension, rsplitFileAtDot_undotted hdot] at h
      cases h
  · rintro ⟨stem, hstem, rfl⟩
    rw [extension, rsplitFileAtDot_toml, if_neg hstem]
    rfl

theorem fileStem_toml {stem : String} (h : stem ≠ "") : fileStem (stem ++ ".toml") = some stem := by
  rw [fileStem, rsplitFileAtDot_toml, if_neg h]
  rfl

/-! ### Trimming -/

section Trim
variable {pat s : List Char} {motive : List Char → Prop}

/-- What holds of a text also without the pattern at its end holds of the trimmed text. -/
theorem trimEndLoop_keeps (h : ∀ t, motive (t ++ pat) → motive t) (fuel : Nat) (hs : motive s) :
    motive (trimEndLoop pat fuel s) := by
  induction fuel generalizing s with
  | zero => exact hs
  | succ fuel ih =>
      rw [trimEndLoop]
      split
      · next hsuffix =>
          obtain ⟨t, rfl⟩ := List.isSuffixOf_iff_suffix.mp hsuffix
          refine ih ?_
          rw [List.length_append, Nat.add_sub_cancel, List.take_left]
          exact h t hs
      · exact hs

theorem trimEndMatches_keeps {text : String} (h : ∀ t, motive (t ++ pat) → motive t)
    (htext : motive text.toList) : motive (trimEndMatches text pat).toList := by
  rw [trimEndMatches, String.toList_ofList]
  exact trimEndLoop_keeps h _ htext

/-- With enough fuel, the pattern is no longer at the end. -/
theorem not_suffix_trimEndLoop (hpat : pat ≠ []) {fuel : Nat} (hfuel : s.length ≤ fuel) :
    ¬ pat <:+ trimEndLoop pat fuel s := by
  induction fuel generalizing s with
  | zero =>
      obtain rfl := List.length_eq_zero_iff.mp (Nat.le_zero.mp hfuel)
      exact fun hsuffix => hpat (List.suffix_nil.mp hsuffix)
  | succ fuel ih =>
      rw [trimEndLoop]
      split
      · refine ih ?_
        have hpos := List.length_pos_iff.mpr hpat
        rw [List.length_take]
        omega
      · next hsuffix => exact mt List.isSuffixOf_iff_suffix.mpr hsuffix

/-- Every repetition of the pattern is trimmed, and nothing else. -/
theorem trimEndMatches_spec (text : String) (hpat : pat ≠ []) :
    (∃ k, text.toList = (trimEndMatches text pat).toList ++ (List.replicate k pat).flatten) ∧
      ¬ pat <:+ (trimEndMatches text pat).toList := by
  constructor
  · refine trimEndMatches_keeps
      (motive := fun t => ∃ k, text.toList = t ++ (List.replicate k pat).flatten) ?_ ⟨0, by simp⟩
    rintro t ⟨k, htext⟩
    exact ⟨k + 1, by rw [htext, List.replicate_succ, List.flatten_cons, List.append_assoc]⟩
  · rw [trimEndMatches, String.toList_ofList]
    exact not_suffix_trimEndLoop hpat (le_refl _)

end Trim

/-! ### The names below a directory -/

theorem pathComponents_joinPath (dir : String) {name : String} (h : EntryName name) :
    pathComponents (joinPath dir name) = pathComponents dir ++ [name] := by
  obtain ⟨hempty, hslash, hdot, -⟩ := h
  have hrelative := relative_of_slash_notMem hslash
  obtain ⟨front, hdir, hjoined⟩ := components_joinPath dir hrelative
  rw [components_of_slash_notMem hslash] at hjoined
  have hnames : (components (joinPath dir name)).filter (fun name => name ≠ "" ∧ name ≠ ".") =
      (components dir).filter (fun name => name ≠ "" ∧ name ≠ ".") ++ [name] := by
    rcases hdir with hdir | hdir
    · simp [hjoined, hdir, hempty, hdot]
    · simp [hjoined, hdir, hempty, hdot]
  have hlead : ((components (joinPath dir name)).head? = some ".") =
      ((components dir).head? = some ".") := by
    cases front with
    | nil =>
        rcases hdir with hdir | hdir
        · exact absurd hdir (components_ne_nil dir)
        · simp [hjoined, hdir, hdot]
    | cons c front =>
        rcases hdir with hdir | hdir
        · simp [hjoined, hdir]
        · simp [hjoined, hdir]
  simp only [pathComponents, startsWith_joinPath dir hrelative, hlead, hnames,
    List.append_assoc]

/-- Below a directory, the names on the way are what is left. -/
theorem stripPrefix_eq {dir root : String} {names : List String}
    (h : pathComponents dir = pathComponents root ++ names) :
    stripPrefix dir root = some (logicalPath names) := by
  have hinit : (pathComponents root).isPrefixOf (pathComponents root ++ names) = true :=
    List.isPrefixOf_iff_prefix.mpr (List.prefix_append ..)
  simp only [stripPrefix, h, hinit, if_true, List.drop_left]

end TodoRust.Preview
