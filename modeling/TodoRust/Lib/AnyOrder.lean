import Mathlib.Algebra.BigOperators.Group.List.Lemmas

/-!
# Products in any order

A product over a list is the same in every order of the list exactly if its factors
commute two by two.
-/

namespace TodoRust.Lib

variable {α M : Type} {l : List α}

/-- Two different elements of a list stand first in some order of it. -/
theorem exists_perm_cons_cons {a b : α} (ha : a ∈ l) (hb : b ∈ l) (h : a ≠ b) :
    ∃ rest, l.Perm (a :: b :: rest) := by
  obtain ⟨front, back, rfl⟩ := List.append_of_mem ha
  have hperm : (front ++ a :: back).Perm (a :: (front ++ back)) := List.perm_middle
  have hmem : b ∈ front ++ back := (List.mem_cons.mp (hperm.mem_iff.mp hb)).resolve_left h.symm
  obtain ⟨front', back', hrest⟩ := List.append_of_mem hmem
  refine ⟨front' ++ back', hperm.trans (List.Perm.cons a ?_)⟩
  rw [hrest]
  exact List.perm_middle

variable [CancelMonoid M] {f : α → M}

theorem prod_map_perm_iff :
    (∀ l' : List α, l'.Perm l → (l'.map f).prod = (l.map f).prod) ↔
      ∀ a ∈ l, ∀ b ∈ l, Commute (f a) (f b) := by
  constructor
  · intro hall a ha b hb
    by_cases hab : a = b
    · exact hab ▸ Commute.refl (f a)
    · obtain ⟨rest, hrest⟩ := exists_perm_cons_cons ha hb hab
      have hswap := (hall _ (hrest.trans (List.Perm.swap b a rest)).symm).trans
        (hall _ hrest.symm).symm
      simp only [List.map_cons, List.prod_cons, ← mul_assoc] at hswap
      exact (mul_right_cancel hswap).symm
  · intro hcommute l' hperm
    refine (List.Perm.prod_eq' (hperm.symm.map f) (List.pairwise_of_forall_mem_list ?_)).symm
    intro x hx y hy
    obtain ⟨a, ha, rfl⟩ := List.mem_map.mp hx
    obtain ⟨b, hb, rfl⟩ := List.mem_map.mp hy
    exact hcommute a ha b hb

end TodoRust.Lib
