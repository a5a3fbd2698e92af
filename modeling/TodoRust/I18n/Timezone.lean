import TodoRust.App.State
import TodoRust.I18n.Minijinja

/-!
# Time zones by name

The lookup of the time zone library returns every zone whose name contains the
text, and `parse_tz` takes the first. That is the zone of that name only when no
zone before it has a longer name around it.
-/

namespace TodoRust.I18n
open Lib Rust App

/-- `time_tz::timezones::find_by_name`, as `tz.rs` describes it: the zones whose name
contains the text, in the order of the database. -/
def findByName (db : List Tz) (s : String) : List Tz :=
  db.filter fun tz => decide (s.toList <:+: tz.name.toList)

/-- What `parse_tz` looks up: the text without whitespace around it and plus signs
in front. -/
def lookedUp (name : String) : String :=
  String.ofList ((trim name).toList.dropWhile (· == '+'))

/-- The zone named by the text, and no other, is what a text should parse to. -/
def ParsesExactly (db : List Tz) (name : String) : Prop :=
  ∀ z, parseTz (findByName db) name = some z ↔ z ∈ db ∧ z.name = lookedUp name

/-- At or before every zone of the database whose name contains the text, there is one
whose name is the text; no zone has the empty name. -/
def FirstIsNamed (db : List Tz) (s : String) : Prop :=
  if s = "" then ∀ z ∈ db, z.name ≠ ""
  else ∀ (j : Nat) (y : Tz), db[j]? = some y → s.toList <:+: y.name.toList →
    ∃ (i : Nat) (z : Tz), i ≤ j ∧ db[i]? = some z ∧ z.name = s

/-- There is something to look up in the name of the zone, and at or before every zone of
the database whose name contains that, there is the zone itself. -/
def FirstAroundItself (db : List Tz) (zone : Tz) : Prop :=
  lookedUp zone.name ≠ "" ∧
    ∀ (j : Nat) (y : Tz), db[j]? = some y → (lookedUp zone.name).toList <:+: y.name.toList →
      ∃ i ≤ j, db[i]? = some zone

theorem parseTz_findByName (db : List Tz) (name : String) :
    parseTz (findByName db) name =
      if lookedUp name = "" then none
      else db.find? fun tz => decide ((lookedUp name).toList <:+: tz.name.toList) := by
  unfold parseTz findByName lookedUp
  dsimp only
  rw [List.head?_filter]

theorem tz_eq {z z' : Tz} (h : z.name = z'.name) : z = z' := by
  cases z
  cases z'
  exact congrArg Tz.mk h

theorem parsesExactly_iff (db : List Tz) (name : String) :
    ParsesExactly db name ↔ FirstIsNamed db (lookedUp name) := by
  unfold ParsesExactly FirstIsNamed
  rw [parseTz_findByName]
  generalize lookedUp name = s
  by_cases hs : s = ""
  · simp [hs]
  · rw [if_neg hs, if_neg hs]
    have hfirst := Table.find?_forall_iff
      (p := fun tz : Tz => decide (s.toList <:+: tz.name.toList)) (q := fun z => z.name = s)
      (fun z hz => decide_eq_true (hz ▸ List.infix_refl _)) db
    simp only [decide_eq_true_eq] at hfirst
    rw [← hfirst]
    constructor
    · exact fun h z hz => ((h z).mp hz).2
    · intro h z
      constructor
      · exact fun hz => ⟨List.mem_of_find?_eq_some hz, h z hz⟩
      · rintro ⟨hz, rfl⟩
        obtain ⟨z', hz'⟩ : ∃ z', db.find? (fun tz => decide (z.name.toList <:+: tz.name.toList)) =
            some z' := by
          rw [← Option.isSome_iff_exists, List.find?_isSome]
          exact ⟨z, hz, decide_eq_true (List.infix_refl _)⟩
        rw [hz', tz_eq (h z' hz')]

/-- What is looked up is a part of the text. -/
theorem lookedUp_isInfix (name : String) : (lookedUp name).toList <:+: name.toList := by
  rw [lookedUp, String.toList_ofList, toList_trim]
  exact (List.dropWhile_suffix _).isInfix.trans (trimChars_isInfix _)

/-- The zone a page is rendered in: the request's, written to the context as a name
and read back. -/
def renderedTz (db : List Tz) (request : RequestContext) : Tz :=
  currentTz (findByName db) (baseContext request)

theorem renderedTz_eq_iff {db : List Tz} {request : RequestContext} (hzone : request.tz ∈ db) :
    renderedTz db request = request.tz ↔ FirstAroundItself db request.tz := by
  have hlookup : lookupStr (baseContext request) "_tz" = some request.tz.name := rfl
  rw [renderedTz, currentTz, hlookup, Option.bind_some, parseTz_findByName]
  have hpart := lookedUp_isInfix request.tz.name
  unfold FirstAroundItself
  by_cases hs : lookedUp request.tz.name = ""
  · -- the default has a name to look up
    have hutc : lookedUp utc.name ≠ "" := by decide
    rw [if_pos hs]
    refine iff_of_false (fun h => ?_) fun h => h.1 hs
    rw [← h] at hs
    exact hutc hs
  · rw [if_neg hs, and_iff_right hs]
    generalize lookedUp request.tz.name = s at hpart ⊢
    have hfirst := Table.find?_forall_iff
      (p := fun tz : Tz => decide (s.toList <:+: tz.name.toList)) (q := fun z => z = request.tz)
      (fun z hz => decide_eq_true (hz ▸ hpart)) db
    simp only [decide_eq_true_eq, exists_and_left, exists_eq_right] at hfirst
    rw [← hfirst]
    -- the zone of the request is one around its own name
    obtain ⟨z, hz⟩ : ∃ z, db.find? (fun tz => decide (s.toList <:+: tz.name.toList)) = some z := by
      rw [← Option.isSome_iff_exists, List.find?_isSome]
      exact ⟨request.tz, hzone, decide_eq_true hpart⟩
    simp [hz]

/-- A text parses to the zone of that name exactly when no longer name comes first,
and a zone survives the way through a page exactly when it is the first around its
own name. -/
theorem parseTz_exact_iff (db : List Tz) :
    (∀ name, ParsesExactly db name ↔ FirstIsNamed db (lookedUp name)) ∧
    ∀ request : RequestContext, request.tz ∈ db →
      (renderedTz db request = request.tz ↔ FirstAroundItself db request.tz) :=
  ⟨parsesExactly_iff db, fun _ hzone => renderedTz_eq_iff hzone⟩

/-- A database for concrete runs. -/
def someZones : List Tz := [⟨"America/New_York"⟩, ⟨"Etc/UTC"⟩, ⟨"UTC"⟩]

example : parseTz (findByName someZones) "Etc/UTC" = some ⟨"Etc/UTC"⟩ := by decide

theorem parseTz_fragment : ¬ ∀ (db : List Tz), (db.map Tz.name).Nodup →
    (∀ name, ParsesExactly db name) ∧
      ∀ request : RequestContext, request.tz ∈ db → renderedTz db request = request.tz := by
  intro h
  have hzone := ((h someZones (by decide)).1 "America" ⟨"America/New_York"⟩).mp (by decide)
  exact absurd hzone.2 (by decide)

end TodoRust.I18n
