import Mathlib.Data.List.Basic

/-!
# Memoisation

A cache in front of a partial function. What it answers is what the function
gives, as long as every entry holds what the function gave for its key.
-/

namespace TodoRust.Lib.Memo

variable {κ ν : Type}

/-- Every entry is what a fresh build for its key gives. -/
def Faithful (build : κ → Option ν) (cache : List (κ × ν)) : Prop :=
  ∀ entry ∈ cache, build entry.1 = some entry.2

variable {build : κ → Option ν} {key : κ} {cache : List (κ × ν)}

theorem Faithful.nil : Faithful build [] := by
  intro entry hentry
  cases hentry

variable [BEq κ]

/-- Look the key up, or build its value and keep it; a failure is not kept. -/
def get (build : κ → Option ν) (key : κ) (cache : List (κ × ν)) : Option ν × List (κ × ν) :=
  match cache.lookup key with
  | some v => (some v, cache)
  | none =>
      match build key with
      | some v => (some v, (key, v) :: cache)
      | none => (none, cache)

theorem Faithful.get_snd (h : Faithful build cache) : Faithful build (get build key cache).2 := by
  unfold get
  cases cache.lookup key with
  | some v => exact h
  | none =>
      cases hbuild : build key with
      | none => exact h
      | some v =>
          intro entry hentry
          rcases List.mem_cons.mp hentry with rfl | hold
          · exact hbuild
          · exact h entry hold

variable [LawfulBEq κ]

theorem mem_of_lookup {v : ν} (h : cache.lookup key = some v) : (key, v) ∈ cache := by
  obtain ⟨before, after, rfl, _⟩ := List.lookup_eq_some_iff.mp h
  simp

theorem Faithful.get_fst (h : Faithful build cache) : (get build key cache).1 = build key := by
  unfold get
  cases hlookup : cache.lookup key with
  | some v => exact (h _ (mem_of_lookup hlookup)).symm
  | none =>
      cases hbuild : build key with
      | some v => rfl
      | none => rfl

end TodoRust.Lib.Memo
