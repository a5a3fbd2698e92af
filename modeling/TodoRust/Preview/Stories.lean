import Mathlib.Data.Prod.Lex
import TodoRust.Preview.Fixtures

/-!
# The stories of a template

The stories are the fixtures of one directory. A file gives its story a name of its own,
so there is one order they can be listed in.
-/

namespace TodoRust.Preview
open Lib Rust StaticFiles

/-- The default is the first of the names, and the rest are sorted. -/
def DefaultFirst (names : List String) : Prop :=
  ∃ rest, (names = rest ∨ names = "default" :: rest) ∧ "default" ∉ rest ∧ rest.Pairwise (· < ·)

/-- A regular file lies directly in a directory. -/
def FileSystem.HasFile (fs : FileSystem) (dir file : String) : Prop :=
  ∃ listing content, fs.readDir dir = .ok listing ∧ listing.entry file = some (.file content)

/-- The stories are the fixtures of a directory, in order. -/
structure StoriesOf (fs : FileSystem) (dir : String) (stories : List Story) : Prop where
  ordered : DefaultFirst (stories.map Story.name)
  mem_iff : ∀ story, story ∈ stories ↔ ∃ file, fs.HasFile dir file ∧
    extension file = some "toml" ∧ fileStem file = some story.name ∧ joinPath dir file = story.file

/-! ### The order -/

/-- The default comes before every other name. -/
def nameKey (name : String) : Bool ×ₗ String := toLex (decide (name ≠ "default"), name)

theorem storyCmp_iff (a b : Story) :
    storyCmp a b ≠ .gt ↔ nameKey a.name ≤ nameKey b.name := by
  rw [nameKey, nameKey, Prod.Lex.toLex_le_toLex]
  by_cases ha : a.name = "default"
  · by_cases hb : b.name = "default"
    · simp [storyCmp, ha, hb]
    · simp [storyCmp, ha, hb]
  · by_cases hb : b.name = "default"
    · simp [storyCmp, ha, hb]
    · have hcmp : storyCmp a b = compare a.name b.name := by simp [storyCmp, ha, hb]
      rw [hcmp, Ne, compare_gt_iff_gt, not_lt]
      simp [ha, hb]

theorem defaultFirst_iff {names : List String} :
    DefaultFirst names ↔ names.Pairwise fun a b => nameKey a < nameKey b := by
  have hrest (rest : List String) (hdefault : "default" ∉ rest) :
      rest.Pairwise (· < ·) ↔ rest.Pairwise fun a b => nameKey a < nameKey b := by
    refine List.Pairwise.iff_of_mem fun {a b} ha hb => ?_
    rw [nameKey, nameKey, Prod.Lex.toLex_lt_toLex]
    have hane : a ≠ "default" := ne_of_mem_of_not_mem ha hdefault
    have hbne : b ≠ "default" := ne_of_mem_of_not_mem hb hdefault
    simp [hane, hbne]
  constructor
  · rintro ⟨rest, rfl | rfl, hdefault, hsorted⟩
    · exact (hrest _ hdefault).mp hsorted
    · refine List.pairwise_cons.mpr ⟨fun name hname => ?_, (hrest _ hdefault).mp hsorted⟩
      rw [nameKey, nameKey, Prod.Lex.toLex_lt_toLex]
      simp [ne_of_mem_of_not_mem hname hdefault]
  · intro hsorted
    by_cases hdefault : "default" ∈ names
    · cases names with
      | nil => cases hdefault
      | cons first rest =>
          obtain ⟨hfirst, htail⟩ := List.pairwise_cons.mp hsorted
          -- nothing stands before the default
          have hhead : first = "default" := by
            by_contra hne
            have hmem := (List.mem_cons.mp hdefault).resolve_left (Ne.symm hne)
            have hlt := hfirst _ hmem
            rw [nameKey, nameKey, Prod.Lex.toLex_lt_toLex] at hlt
            simp only [ne_eq, hne, not_false_eq_true, decide_true, not_true_eq_false, decide_false,
              Bool.true_eq_false, false_and, or_false] at hlt
            exact absurd hlt (by decide)
          subst hhead
          have hnot : "default" ∉ rest := fun hmem => lt_irrefl _ (hfirst "default" hmem)
          exact ⟨rest, Or.inr rfl, hnot, (hrest rest hnot).mpr htail⟩
    · exact ⟨names, Or.inl rfl, hdefault, (hrest names hdefault).mpr hsorted⟩

/-! ### The fixtures -/

section Collect
variable {dir file name : String} {d rest : Directory} {content : List UInt8} {story : Story}

theorem collectStories_toml (hname : name ≠ "") :
    collectStories dir (.file (name ++ ".toml") content rest) =
      ⟨name, joinPath dir (name ++ ".toml")⟩ :: collectStories dir rest := by
  rw [collectStories, fileStem_toml hname]
  exact if_neg (not_not.mpr (extension_toml_iff.mpr ⟨name, hname, rfl⟩))

theorem collectStories_other (h : extension file ≠ some "toml") :
    collectStories dir (.file file content rest) = collectStories dir rest := by
  rw [collectStories]
  split
  · rfl
  · exact if_pos h

/-- A story is collected for each fixture. -/
theorem mem_collectStories (h : d.Sound) :
    story ∈ collectStories dir d ↔
      story.name ≠ "" ∧ joinPath dir (story.name ++ ".toml") = story.file ∧
      ∃ content, d.entry (story.name ++ ".toml") = some (.file content) := by
  induction d with
  | empty => simp [collectStories, Directory.entry]
  | subdirectory own entries rest ihEntries ihRest =>
      obtain ⟨-, hfresh, -, hrest⟩ := h
      rw [collectStories, ihRest hrest]
      by_cases hown : own = story.name ++ ".toml"
      · have hnone : ∀ content, rest.entry (story.name ++ ".toml") ≠ some (.file content) :=
          fun content hentry => hfresh (hown ▸ Directory.names_of_entry hentry)
        simp [Directory.entry, hown, hnone]
      · simp [Directory.entry, hown]
  | file own bytes rest ih =>
      obtain ⟨-, hfresh, hrest⟩ := h
      have hnone : own = story.name ++ ".toml" →
          ∀ content, rest.entry (story.name ++ ".toml") ≠ some (.file content) :=
        fun hown content hentry => hfresh (hown ▸ Directory.names_of_entry hentry)
      by_cases hext : extension own = some "toml"
      · obtain ⟨stem, hstem, rfl⟩ := extension_toml_iff.mp hext
        rw [collectStories_toml hstem, List.mem_cons, ih hrest]
        by_cases hown : stem = story.name
        · subst hown
          have hsame : story = ⟨story.name, joinPath dir (story.name ++ ".toml")⟩ ↔
              joinPath dir (story.name ++ ".toml") = story.file := by
            obtain ⟨name, file⟩ := story
            simp [eq_comm]
          simp [Directory.entry, hstem, hnone rfl, hsame]
        · have hne : story ≠ ⟨stem, joinPath dir (stem ++ ".toml")⟩ := by
            rintro rfl
            exact hown rfl
          simp [Directory.entry, hown, hne]
      · rw [collectStories_other hext, ih hrest]
        by_cases hname : story.name = ""
        · simp [hname]
        · have hown : own ≠ story.name ++ ".toml" := fun hown =>
            hext (extension_toml_iff.mpr ⟨_, hname, hown⟩)
          simp [Directory.entry, hown]

theorem collectStories_nodup (h : d.Sound) : ((collectStories dir d).map Story.name).Nodup := by
  induction d with
  | empty => exact List.nodup_nil
  | subdirectory own entries rest ihEntries ihRest => exact ihRest h.2.2.2
  | file own bytes rest ih =>
      obtain ⟨-, hfresh, hrest⟩ := h
      by_cases hext : extension own = some "toml"
      · obtain ⟨stem, hstem, rfl⟩ := extension_toml_iff.mp hext
        rw [collectStories_toml hstem, List.map_cons, List.nodup_cons]
        refine ⟨fun hmem => ?_, ih hrest⟩
        obtain ⟨story, hstory, hname⟩ := List.mem_map.mp hmem
        obtain ⟨-, -, content, hentry⟩ := (mem_collectStories hrest).mp hstory
        have hname : story.name = stem := hname
        exact hfresh (hname ▸ Directory.names_of_entry hentry)
      · rw [collectStories_other hext]
        exact ih hrest

end Collect

/-! ### The stories -/

section Stories
variable {fs : FileSystem} {dir : String} {stories : List Story}

theorem storiesOf_sorted {listing : Directory} (h : fs.readDir dir = .ok listing) :
    StoriesOf fs dir (sortBy storyCmp (collectStories dir listing)) := by
  obtain ⟨-, pos, -, hpos⟩ := FileSystem.readDir_eq_ok h
  have hsound : listing.Sound := fs.sound.node hpos
  have hinj : Function.Injective nameKey := fun a b hkey => (Prod.ext_iff.mp hkey).2
  constructor
  · rw [defaultFirst_iff, List.pairwise_map]
    refine sortBy_pairwise storyCmp_iff ?_
    rw [← Function.comp_def nameKey Story.name, ← List.map_map]
    exact (collectStories_nodup hsound).map hinj
  · intro story
    rw [(sortBy_perm _ _).mem_iff, mem_collectStories hsound]
    constructor
    · rintro ⟨hname, hfile, content, hentry⟩
      exact ⟨_, ⟨listing, content, h, hentry⟩, extension_toml_iff.mpr ⟨_, hname, rfl⟩,
        fileStem_toml hname, hfile⟩
    · rintro ⟨file, ⟨listing', content, hlisting, hentry⟩, hext, hstem, hfile⟩
      obtain rfl := Except.ok.inj (h.symm.trans hlisting)
      obtain ⟨stem, hne, rfl⟩ := extension_toml_iff.mp hext
      obtain rfl := Option.some.inj ((fileStem_toml hne).symm.trans hstem)
      exact ⟨hne, hfile, content, hentry⟩

/-- What is listed are the stories of the directory. -/
theorem storiesOf_of_ok (h : storiesFor fs dir = .ok stories) : StoriesOf fs dir stories := by
  unfold storiesFor at h
  split at h
  · next hmissing =>
      obtain rfl := Except.ok.inj h
      refine ⟨⟨[], Or.inl rfl, List.not_mem_nil, List.Pairwise.nil⟩, fun story => ?_⟩
      refine iff_of_false List.not_mem_nil ?_
      rintro ⟨file, ⟨listing, content, hlisting, -⟩, -⟩
      rw [Bool.not_eq_true', ← Bool.not_eq_true, FileSystem.pathExists_iff] at hmissing
      exact hmissing ⟨_, FileSystem.readDir_eq_ok_iff.mp hlisting⟩
  · split at h
    · cases h
    · next listing hlisting =>
        obtain rfl := Except.ok.inj h
        exact storiesOf_sorted hlisting

/-- Listing fails only where a file is. -/
theorem storiesFor_ok (h : fs.isFile dir = false) : ∃ stories, storiesFor fs dir = .ok stories := by
  cases hstat : fs.stat dir with
  | error e =>
      have hmissing : fs.pathExists dir = false := by rw [FileSystem.pathExists, hstat]
      exact ⟨[], by rw [storiesFor, hmissing]; rfl⟩
  | ok n =>
      cases n with
      | file content => exact absurd (FileSystem.isFile_iff.mpr ⟨content, hstat⟩) (by simp [h])
      | directory listing =>
          have hexists : fs.pathExists dir = true := FileSystem.pathExists_iff.mpr ⟨_, hstat⟩
          refine ⟨sortBy storyCmp (collectStories dir listing), ?_⟩
          rw [storiesFor, hexists, FileSystem.readDir_eq_ok_iff.mpr hstat]
          rfl

/-- The fixtures of a directory make up one list of stories. -/
theorem StoriesOf.unique {stories' : List Story} (h : StoriesOf fs dir stories)
    (h' : StoriesOf fs dir stories') : stories = stories' := by
  have hsorted (l : List Story) (hl : DefaultFirst (l.map Story.name)) :
      l.Pairwise fun a b => nameKey a.name < nameKey b.name := by
    rwa [defaultFirst_iff, List.pairwise_map] at hl
  exact eq_of_pairwise_lt (hsorted stories h.ordered) (hsorted stories' h'.ordered)
    fun story => (h.mem_iff story).trans (h'.mem_iff story).symm

end Stories

end TodoRust.Preview
