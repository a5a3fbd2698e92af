import Mathlib.Data.List.Basic
import Mathlib.Data.List.ReduceOption

/-!
# Tables and their parts

A table is a list of rows. Rows are selected, updated and deleted by a
condition; the lemmas say how that looks from one part of the table, when the
condition stays inside the part and when it stays outside.
-/

namespace TodoRust.Lib.Table

variable {α : Type} {p q : α → Bool} {f : α → α} {l : List α}

/-- `UPDATE … WHERE p`, with `f` applied to the rows selected. -/
def update (p : α → Bool) (f : α → α) (l : List α) : List α :=
  l.map fun a => if p a then f a else a

/-- `DELETE … WHERE p` -/
def delete (p : α → Bool) (l : List α) : List α := l.filter fun a => !p a

theorem update_of_none (h : ∀ a ∈ l, p a = false) : update p f l = l := by
  calc
    update p f l = l.map fun a => a := List.map_congr_left fun a ha => by simp [h a ha]
    _ = l := List.map_id' l

theorem delete_of_none (h : ∀ a ∈ l, p a = false) : delete p l = l := by
  rw [delete, List.filter_eq_self]
  intro a ha
  simp [h a ha]

/-- An update is not seen in a column it keeps. -/
theorem map_update {β : Type} {g : α → β} (h : ∀ a, g (f a) = g a) :
    (update p f l).map g = l.map g := by
  rw [update, List.map_map]
  congr 1
  funext a
  cases hp : p a with
  | false => simp [hp]
  | true => simp [hp, h]

/-- Under a unique key, a row is found by its key. -/
theorem find?_key {κ : Type} [DecidableEq κ] {key : α → κ} (h : (l.map key).Nodup) {a : α}
    (ha : a ∈ l) : l.find? (fun b => key b == key a) = some a := by
  induction l with
  | nil => simp at ha
  | cons b l ih =>
      simp only [List.map_cons, List.nodup_cons, List.mem_map, not_exists, not_and] at h
      rcases List.mem_cons.mp ha with rfl | ha
      · simp
      · have hne : (key b == key a) = false := beq_false_of_ne fun hk => h.1 a ha hk.symm
        simp only [List.find?_cons, hne]
        exact ih h.2 ha

/-- Under a unique key, a further condition on the row of a key is one on what is found. -/
theorem find?_key_and {κ : Type} [DecidableEq κ] {key : α → κ} (h : (l.map key).Nodup) (k : κ)
    (q : α → Bool) :
    l.find? (fun a => key a == k && q a) = (l.find? (key · == k)).filter q := by
  induction l with
  | nil => rfl
  | cons b l ih =>
      simp only [List.map_cons, List.nodup_cons, List.mem_map, not_exists, not_and] at h
      by_cases hk : key b = k
      · cases hq : q b with
        | true => simp [hk, hq, Option.filter]
        | false =>
            -- the key is not found again
            have hrest : l.find? (fun a => key a == k && q a) = none := by
              rw [List.find?_eq_none]
              intro a ha
              simp [hk ▸ h.1 a ha]
            simp [hk, hq, hrest, Option.filter]
      · simp [hk, ih h.2]

/-- An update that keeps the keys is found at the key of its row. -/
theorem find?_update {κ : Type} [DecidableEq κ] {key : α → κ} (h : ∀ a, key (f a) = key a)
    (k : κ) : (update p f l).find? (key · == k) =
      (l.find? (key · == k)).map fun a => if p a then f a else a := by
  rw [update, List.find?_map]
  congr 2
  funext a
  cases hp : p a with
  | false => simp [hp]
  | true => simp [hp, h]

/-- What is deleted is not found. -/
theorem find?_delete {κ : Type} [DecidableEq κ] {key : α → κ} (h : (l.map key).Nodup) (k : κ) :
    (delete p l).find? (key · == k) = (l.find? (key · == k)).filter fun a => !p a := by
  rw [← find?_key_and h, delete, List.find?_filter]
  congr 1
  funext a
  cases p a with
  | false => simp [beq_eq_decide]
  | true => simp

/-- The selected rows are found in any part that contains them. -/
theorem find?_part (h : ∀ a, p a = true → q a = true) : (l.filter q).find? p = l.find? p := by
  rw [List.find?_filter]
  congr 1
  funext a
  cases hp : p a with
  | false => simp
  | true => simp [h a hp]

/-- The first row with `p` is one with `q`, when no row with `p` comes before all those with
`q`. -/
theorem find?_forall_iff {q : α → Prop} (hq : ∀ a, q a → p a = true) (l : List α) :
    (∀ a, l.find? p = some a → q a) ↔
      ∀ (j : Nat) b, l[j]? = some b → p b = true →
        ∃ (i : Nat) (a : α), i ≤ j ∧ l[i]? = some a ∧ q a := by
  constructor
  · intro h j b hb hp
    obtain ⟨a, ha⟩ : ∃ a, l.find? p = some a := by
      rw [← Option.isSome_iff_exists, List.find?_isSome]
      exact ⟨b, List.mem_of_getElem? hb, hp⟩
    obtain ⟨-, i, hi, hget, hbefore⟩ := List.find?_eq_some_iff_getElem.mp ha
    refine ⟨i, a, ?_, by rw [List.getElem?_eq_getElem hi, hget], h a ha⟩
    by_contra hlt
    obtain ⟨hj, hgetj⟩ := List.getElem?_eq_some_iff.mp hb
    have hno := hbefore j (Nat.lt_of_not_le hlt)
    rw [hgetj, hp] at hno
    cases hno
  · intro h a ha
    obtain ⟨hp, i, hi, hget, hbefore⟩ := List.find?_eq_some_iff_getElem.mp ha
    obtain ⟨k, b, hk, hb, hqb⟩ := h i a (by rw [List.getElem?_eq_getElem hi, hget]) hp
    obtain ⟨hk', hgetk⟩ := List.getElem?_eq_some_iff.mp hb
    rcases Nat.lt_or_eq_of_le hk with hlt | rfl
    · have hno := hbefore k hlt
      rw [hgetk, hq b hqb] at hno
      cases hno
    · rwa [← hget, hgetk]

theorem countP_part (h : ∀ a, p a = true → q a = true) : (l.filter q).countP p = l.countP p := by
  rw [List.countP_filter]
  congr 1
  funext a
  cases hp : p a with
  | false => simp
  | true => simp [h a hp]

/-- An update that keeps rows in their part can be done part by part. -/
theorem filter_update (h : ∀ a, p a = true → q (f a) = q a) :
    (update p f l).filter q = update p f (l.filter q) := by
  rw [update, List.filter_map, update]
  congr 2
  funext a
  cases hp : p a with
  | false => simp [hp]
  | true => simp [hp, h a hp]

theorem filter_delete : (delete p l).filter q = delete p (l.filter q) := by
  rw [delete, delete, List.filter_filter, List.filter_filter]
  congr 1
  funext a
  exact Bool.and_comm _ _

/-- From a part without selected rows, an update is not seen. -/
theorem filter_update_other (h : ∀ a, q a = true → p a = false)
    (hf : ∀ a, p a = true → q (f a) = q a) : (update p f l).filter q = l.filter q := by
  rw [filter_update hf, update_of_none]
  intro a ha
  exact h a (List.mem_filter.mp ha).2

theorem filter_delete_other (h : ∀ a, q a = true → p a = false) :
    (delete p l).filter q = l.filter q := by
  rw [filter_delete, delete_of_none]
  intro a ha
  exact h a (List.mem_filter.mp ha).2

/-- Updates by key, one after the other: on each row those of its key take effect. -/
theorem foldl_update {κ ι : Type} [DecidableEq κ] {key : α → κ} (target : ι → κ)
    {set : ι → α → α} (h : ∀ i a, key (set i a) = key a) (is : List ι) (l : List α) :
    is.foldl (fun l i => update (key · == target i) (set i) l) l =
      l.map fun a => (is.filter (target · == key a)).foldl (fun a i => set i a) a := by
  induction is generalizing l with
  | nil => simp
  | cons i is ih =>
      rw [List.foldl_cons, ih, update, List.map_map]
      refine List.map_congr_left fun a _ => ?_
      simp only [Function.comp_apply, List.filter_cons]
      by_cases hkey : key a = target i
      · simp [hkey, h]
      · simp [hkey, Ne.symm hkey]

/-- A column that is written or left alone, time after time, ends with the last value
written. -/
theorem foldl_getD {β : Type} (writes : List (Option β)) (b : β) :
    writes.foldl (fun b write => write.getD b) b = writes.reduceOption.getLast?.getD b := by
  induction writes generalizing b with
  | nil => rfl
  | cons write writes ih =>
      rw [List.foldl_cons, ih]
      cases write with
      | none => rfl
      | some b' =>
          rw [List.reduceOption_cons_of_some, List.getLast?_cons]
          rfl

end TodoRust.Lib.Table
