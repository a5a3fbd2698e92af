import Mathlib.Data.List.Basic

/-!
# Splitting a list at a separator

A list with a separator in it splits in one way only at the first occurrence of
the separator, and in one way only at the last.
-/

namespace TodoRust.Lib

variable {α : Type} {a : α} {x x' y y' : List α}

theorem split_first_inj (hx : a ∉ x) (hx' : a ∉ x') :
    x ++ a :: y = x' ++ a :: y' ↔ x = x' ∧ y = y' := by
  constructor
  · intro h
    induction x generalizing x' with
    | nil =>
        cases x' with
        | nil => exact ⟨rfl, by simpa using h⟩
        | cons b x' =>
            obtain ⟨rfl, _⟩ := List.cons.inj h
            exact absurd (by simp) hx'
    | cons b x ih =>
        cases x' with
        | nil =>
            obtain ⟨rfl, _⟩ := List.cons.inj h
            exact absurd (by simp) hx
        | cons b' x' =>
            obtain ⟨rfl, htail⟩ := List.cons.inj h
            simp only [List.mem_cons, not_or] at hx hx'
            obtain ⟨rfl, rfl⟩ := ih hx.2 hx'.2 htail
            exact ⟨rfl, rfl⟩
  · rintro ⟨rfl, rfl⟩
    rfl

theorem split_last_inj (hy : a ∉ y) (hy' : a ∉ y') :
    x ++ a :: y = x' ++ a :: y' ↔ x = x' ∧ y = y' := by
  have hreverse : ∀ x y : List α, (x ++ a :: y).reverse = y.reverse ++ a :: x.reverse := by
    intro x y
    simp
  rw [← List.reverse_inj, hreverse, hreverse,
    split_first_inj (by simpa using hy) (by simpa using hy'), List.reverse_inj, List.reverse_inj,
    and_comm]

/-- A list with the separator in it has a last one. -/
theorem exists_split_last (h : a ∈ x) : ∃ front back, x = front ++ a :: back ∧ a ∉ back := by
  obtain ⟨back, front, hx, hback⟩ := List.eq_append_cons_of_mem (List.mem_reverse.mpr h)
  refine ⟨front.reverse, back.reverse, ?_, by simpa using hback⟩
  rw [← List.reverse_inj, hx]
  simp

/-- No piece of a split list has the separator in it. -/
theorem notMem_of_mem_splitOn [BEq α] [LawfulBEq α] (h : y ∈ x.splitOn a) : a ∉ y := by
  induction x generalizing y with
  | nil =>
      rw [List.splitOn_nil, List.mem_singleton] at h
      exact h ▸ List.not_mem_nil
  | cons b x ih =>
      rw [List.splitOn_cons_eq_if_modifyHead] at h
      split at h
      · rcases List.mem_cons.mp h with rfl | htail
        · exact List.not_mem_nil
        · exact ih htail
      · next hne =>
          obtain ⟨head, tail, hsplit⟩ := List.exists_cons_of_ne_nil (List.splitOn_ne_nil a x)
          rw [hsplit] at h ih
          rcases List.mem_cons.mp h with rfl | htail
          · intro hmem
            rcases List.mem_cons.mp hmem with heq | hhead
            · exact hne (beq_iff_eq.mpr heq.symm)
            · exact ih List.mem_cons_self hhead
          · exact ih (List.mem_cons_of_mem head htail)

end TodoRust.Lib
