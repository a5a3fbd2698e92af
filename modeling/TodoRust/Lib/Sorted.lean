import Mathlib.Data.List.Sort

/-!
# Sorted lists without ties

In a list where no two elements compare both ways, sorting has one result. So it
can be found by giving any sorted list of the same elements. A comparator of keys sorts
a list without equal keys strictly.
-/

namespace TodoRust.Lib

section NoTies
variable {α : Type} {r : α → α → Prop} {l : List α}

/-- Elements that compare both ways are the same. -/
def NoTies (r : α → α → Prop) (l : List α) : Prop := ∀ a ∈ l, ∀ b ∈ l, r a b → r b a → a = b

theorem NoTies.sublist {l' : List α} (h : NoTies r l) (hl : l' ⊆ l) : NoTies r l' :=
  fun a ha b hb => h a (hl ha) b (hl hb)

variable [DecidableRel r] [Std.Total r] [IsTrans α r]

/-- A sorted list of the elements is what sorting gives. -/
theorem NoTies.insertionSort_eq {s : List α} (h : NoTies r l) (hs : s.Pairwise r)
    (hperm : s.Perm l) : l.insertionSort r = s := by
  have hsorted := List.perm_insertionSort r l
  refine List.Perm.eq_of_pairwise ?_ (List.pairwise_insertionSort r l) hs
    (hsorted.trans hperm.symm)
  intro a b ha hb
  exact h a (hsorted.mem_iff.mp ha) b (hperm.mem_iff.mp hb)

/-- Sorting what is left is leaving out of the sorted list. -/
theorem NoTies.insertionSort_filter (h : NoTies r l) (p : α → Bool) :
    (l.filter p).insertionSort r = (l.insertionSort r).filter p :=
  (h.sublist List.filter_sublist.subset).insertionSort_eq
    ((List.pairwise_insertionSort r l).filter p) ((List.perm_insertionSort r l).filter p)

/-- A new element that stands before all others is the head of the sorted list. -/
theorem NoTies.insertionSort_append {a : α} (h : NoTies r (l ++ [a])) (hfirst : ∀ b ∈ l, r a b) :
    (l ++ [a]).insertionSort r = a :: l.insertionSort r := by
  have hperm := List.perm_insertionSort r l
  apply h.insertionSort_eq
  · refine List.pairwise_cons.mpr ⟨fun b hb => ?_, List.pairwise_insertionSort r l⟩
    exact hfirst b (hperm.mem_iff.mp hb)
  · exact (hperm.cons a).trans (List.perm_append_singleton a l).symm

end NoTies

section Comparator
variable {α β : Type} [LinearOrder β] {l l' : List α} {cmp : α → α → Ordering} {key : α → β}

/-- The list sorted by a comparator, stably. -/
def sortBy (cmp : α → α → Ordering) (l : List α) : List α :=
  l.insertionSort fun a b => cmp a b ≠ .gt

theorem sortBy_perm (cmp : α → α → Ordering) (l : List α) : (sortBy cmp l).Perm l :=
  List.perm_insertionSort _ l

/-- A comparator of keys sorts distinct keys strictly. -/
theorem sortBy_pairwise (hcmp : ∀ a b, cmp a b ≠ .gt ↔ key a ≤ key b)
    (hkeys : (l.map key).Nodup) : (sortBy cmp l).Pairwise fun a b => key a < key b := by
  have htotal : Std.Total fun a b => cmp a b ≠ .gt := by
    refine ⟨fun a b => ?_⟩
    rw [hcmp, hcmp]
    exact le_total (key a) (key b)
  have htrans : IsTrans α fun a b => cmp a b ≠ .gt := by
    refine ⟨fun a b c hab hbc => ?_⟩
    rw [hcmp] at hab hbc ⊢
    exact hab.trans hbc
  have hsorted : (sortBy cmp l).Pairwise fun a b => cmp a b ≠ .gt :=
    List.pairwise_insertionSort _ l
  have hdistinct : (sortBy cmp l).Pairwise fun a b => key a ≠ key b :=
    List.pairwise_map.mp (((sortBy_perm cmp l).map key).nodup_iff.mpr hkeys)
  refine hsorted.imp₂ (fun a b hle hne => ?_) hdistinct
  exact lt_of_le_of_ne ((hcmp a b).mp hle) hne

/-- Strictly sorted lists of the same elements are the same. -/
theorem eq_of_pairwise_lt (hl : l.Pairwise fun a b => key a < key b)
    (hl' : l'.Pairwise fun a b => key a < key b) (h : ∀ a, a ∈ l ↔ a ∈ l') : l = l' := by
  have hnodup {m : List α} (hm : m.Pairwise fun a b => key a < key b) : m.Nodup :=
    hm.imp fun hlt heq => absurd (heq ▸ hlt) (lt_irrefl _)
  have hperm := (List.perm_ext_iff_of_nodup (hnodup hl) (hnodup hl')).mpr h
  refine List.Perm.eq_of_pairwise ?_ hl hl' hperm
  intro a b _ _ hab hba
  exact absurd (hab.trans hba) (lt_irrefl _)

end Comparator

end TodoRust.Lib
