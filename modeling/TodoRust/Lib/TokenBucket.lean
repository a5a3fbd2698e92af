import TodoRust.Lib.Run
import Mathlib.Algebra.Order.Field.Basic
import Mathlib.Data.Finset.Card
import Mathlib.Data.List.Induction
import Mathlib.Tactic.Linarith
import Mathlib.Tactic.Ring

/-!
# Token buckets over a log of answered calls

A log lists the calls of all clients in the order they were answered. The level
of a client's bucket, moved to time zero, is the least budget left over all
windows that start at one of its calls. From this closed form follow the exact
admission law and the bound on every time window.
-/

namespace TodoRust.Lib.TokenBucket

/-- One answered call: the client's key, its clock reading, and the answer. -/
structure Entry (κ K : Type) where
  key : κ
  time : K
  admitted : Bool

variable {κ K : Type} [DecidableEq κ]

/-- The calls of `a` admitted from position `j` on. -/
def spent (log : List (Entry κ K)) (a : κ) (j : Nat) : Nat :=
  (log.drop j).countP fun e => e.key = a ∧ e.admitted = true

theorem spent_snoc {log : List (Entry κ K)} {a : κ} {j : Nat} (e : Entry κ K)
    (hj : j ≤ log.length) :
    spent (log ++ [e]) a j = spent log a j + if e.key = a ∧ e.admitted = true then 1 else 0 := by
  simp [spent, List.drop_append_of_le_length hj, List.countP_append, List.countP_cons]

@[simp] theorem spent_length (log : List (Entry κ K)) (a : κ) : spent log a log.length = 0 := by
  simp [spent]

variable [Field K] [LinearOrder K]

/-- One more admission of `a` at time `t` stays within burst and rate, counted
from each earlier call of `a` and from the call itself. -/
def Within (rate burst : K) (log : List (Entry κ K)) (a : κ) (t : K) : Prop :=
  1 ≤ burst ∧ ∀ j e, log[j]? = some e → e.key = a →
    (spent log a j : K) + 1 ≤ burst + rate * (t - e.time)

/-- `level` is the least value of `burst - rate * time - spent` over the calls of `a`. -/
structure IsLevel (rate burst : K) (log : List (Entry κ K)) (a : κ) (level : K) : Prop where
  le : ∀ j e, log[j]? = some e → e.key = a → level ≤ burst - rate * e.time - spent log a j
  attained : ∃ j e, log[j]? = some e ∧ e.key = a ∧ level = burst - rate * e.time - spent log a j

variable {rate burst : K} {log : List (Entry κ K)} {a : κ} {level : K}

/-- Another client's call leaves the level alone. -/
theorem IsLevel.other (hl : IsLevel rate burst log a level) (e : Entry κ K) (he : e.key ≠ a) :
    IsLevel rate burst (log ++ [e]) a level where
  le := by
    intro j x hx hk
    rcases getElem?_snoc hx with hx | ⟨_, rfl⟩
    · rw [spent_snoc e (lt_length_of_getElem? hx).le]
      simpa [he] using hl.le j x hx hk
    · exact absurd hk he
  attained := by
    obtain ⟨j, x, hx, hk, hlev⟩ := hl.attained
    refine ⟨j, x, getElem?_snoc_of_some hx, hk, ?_⟩
    rw [spent_snoc e (lt_length_of_getElem? hx).le]
    simpa [he] using hlev

/-- The price of an answer: one token when admitted. -/
def price (e : Entry κ K) : K := if e.admitted = true then 1 else 0

omit [DecidableEq κ] [LinearOrder K] in
private theorem cast_price (e : Entry κ K) :
    ((if e.admitted = true then 1 else 0 : Nat) : K) = price e := by
  unfold price; split <;> simp

section Order
variable [IsStrictOrderedRing K]

/-- A call of `a` itself: the bucket refills up to `burst`, then pays. -/
theorem IsLevel.self (hl : IsLevel rate burst log a level) (e : Entry κ K) (he : e.key = a) :
    IsLevel rate burst (log ++ [e]) a (min level (burst - rate * e.time) - price e) where
  le := by
    intro j x hx hk
    rcases getElem?_snoc hx with hx | ⟨rfl, rfl⟩
    · rw [spent_snoc e (lt_length_of_getElem? hx).le]
      have hmin := min_le_left level (burst - rate * e.time)
      have hlev := hl.le j x hx hk
      simp only [he, true_and, Nat.cast_add, cast_price]
      linarith
    · rw [spent_snoc _ le_rfl]
      have hmin := min_le_right level (burst - rate * x.time)
      simp only [he, true_and, spent_length, Nat.cast_add, cast_price, Nat.cast_zero]
      linarith
  attained := by
    rcases le_total level (burst - rate * e.time) with hle | hle
    · obtain ⟨j, x, hx, hk, hlev⟩ := hl.attained
      refine ⟨j, x, getElem?_snoc_of_some hx, hk, ?_⟩
      rw [min_eq_left hle, spent_snoc e (lt_length_of_getElem? hx).le]
      simp only [he, true_and, Nat.cast_add, cast_price]
      linarith
    · refine ⟨log.length, e, by simp, he, ?_⟩
      rw [min_eq_right hle, spent_snoc e le_rfl]
      simp only [he, true_and, spent_length, Nat.cast_add, cast_price, Nat.cast_zero]
      ring

/-- The first call of `a` meets a full bucket. -/
theorem IsLevel.first (rate burst : K) (hnew : ∀ x ∈ log, x.key ≠ a) (e : Entry κ K)
    (he : e.key = a) :
    IsLevel rate burst (log ++ [e]) a (burst - rate * e.time - price e) where
  le := by
    intro j x hx hk
    rcases getElem?_snoc hx with hx | ⟨rfl, rfl⟩
    · exact absurd hk (hnew x (List.mem_of_getElem? hx))
    · rw [spent_snoc _ le_rfl]
      simp only [he, true_and, spent_length, Nat.cast_add, cast_price, Nat.cast_zero]
      linarith
  attained := by
    refine ⟨log.length, e, by simp, he, ?_⟩
    rw [spent_snoc e le_rfl]
    simp only [he, true_and, spent_length, Nat.cast_add, cast_price, Nat.cast_zero]
    ring

/-- A whole token is there exactly when one more admission stays within budget. -/
theorem IsLevel.one_le_iff (hl : IsLevel rate burst log a level) (t : K) :
    1 ≤ min (level + rate * t) burst ↔ Within rate burst log a t := by
  rw [le_min_iff, and_comm, Within]
  refine and_congr_right fun _ => ?_
  constructor
  · intro h j e he hk
    have := hl.le j e he hk
    linarith
  · intro h
    obtain ⟨j, e, he, hk, hlev⟩ := hl.attained
    have := h j e he hk
    linarith

omit [IsStrictOrderedRing K] in
theorem within_first (hnew : ∀ x ∈ log, x.key ≠ a) (t : K) :
    Within rate burst log a t ↔ 1 ≤ burst :=
  ⟨And.left, fun h => ⟨h, fun _ e he hk => absurd hk (hnew e (List.mem_of_getElem? he))⟩⟩

/-- Every call was admitted exactly when it stayed within budget at its turn. -/
def Lawful (rate burst : K) (log : List (Entry κ K)) : Prop :=
  ∀ n e, log[n]? = some e →
    (e.admitted = true ↔ Within rate burst (log.take n) e.key e.time)

omit [IsStrictOrderedRing K] in
theorem lawful_nil : Lawful rate burst ([] : List (Entry κ K)) := by
  intro n e he
  simp at he

omit [IsStrictOrderedRing K] in
theorem Lawful.snoc (hl : Lawful rate burst log) {e : Entry κ K}
    (he : e.admitted = true ↔ Within rate burst log e.key e.time) :
    Lawful rate burst (log ++ [e]) := by
  intro n x hx
  rcases getElem?_snoc hx with hx | ⟨rfl, rfl⟩
  · rw [List.take_append_of_le_length (lt_length_of_getElem? hx).le]
    exact hl n x hx
  · simpa using he

/-- The admitted calls of `a` sampled in `[s, s + w]`. -/
def inWindow (log : List (Entry κ K)) (a : κ) (s w : K) : Nat :=
  log.countP fun e => (e.key = a ∧ e.admitted = true) ∧ s ≤ e.time ∧ e.time ≤ s + w

/-- A counted list starts at one of the counted elements. -/
private theorem countP_le_from_first {α : Type} {p q : α → Bool} (hpq : ∀ x, p x → q x)
    (l : List α) (h : l.countP p ≠ 0) :
    ∃ j x, l[j]? = some x ∧ p x = true ∧ l.countP p ≤ (l.drop j).countP q := by
  induction l with
  | nil => simp at h
  | cons x xs ih =>
      by_cases hx : p x = true
      · exact ⟨0, x, rfl, hx, by simpa using List.countP_mono_left fun y _ hy => hpq y hy⟩
      · rw [List.countP_cons_of_neg hx] at h ⊢
        obtain ⟨j, y, hy, hp, hle⟩ := ih h
        exact ⟨j + 1, y, by simpa using hy, hp, by simpa using hle⟩

/-- Distinct positions of counted elements are no more than the count. -/
theorem card_le_countP {α : Type} {p : α → Bool} {l : List α} {s : Finset Nat}
    (h : ∀ n ∈ s, ∃ x, l[n]? = some x ∧ p x = true) : s.card ≤ l.countP p := by
  induction l using List.reverseRecOn generalizing s with
  | nil =>
      have hempty : s = ∅ := Finset.eq_empty_of_forall_notMem fun n hn => by
        obtain ⟨x, hx, _⟩ := h n hn
        simp at hx
      simp [hempty]
  | append_singleton l a ih =>
      have hinit : ∀ n ∈ s.erase l.length, ∃ x, l[n]? = some x ∧ p x = true := by
        intro n hn
        obtain ⟨hne, hmem⟩ := Finset.mem_erase.mp hn
        obtain ⟨x, hx, hp⟩ := h n hmem
        rcases getElem?_snoc hx with hx | ⟨hlen, _⟩
        · exact ⟨x, hx, hp⟩
        · exact absurd hlen hne
      have hle := ih hinit
      rw [List.countP_append, List.countP_singleton]
      by_cases hlast : l.length ∈ s
      · obtain ⟨x, hx, hp⟩ := h _ hlast
        simp only [List.getElem?_concat_length, Option.some.injEq] at hx
        rw [hx, if_pos hp]
        rw [Finset.card_erase_of_mem hlast] at hle
        omega
      · rw [Finset.erase_eq_of_notMem hlast] at hle
        omega

omit [IsStrictOrderedRing K] in
theorem inWindow_le_spent {s w : K} (h : inWindow log a s w ≠ 0) :
    ∃ j e, log[j]? = some e ∧ e.key = a ∧ s ≤ e.time ∧ inWindow log a s w ≤ spent log a j := by
  have hsub : ∀ e : Entry κ K, decide ((e.key = a ∧ e.admitted = true) ∧
      s ≤ e.time ∧ e.time ≤ s + w) = true → decide (e.key = a ∧ e.admitted = true) = true := by
    intro e he
    simp only [decide_eq_true_eq] at he ⊢
    exact he.1
  obtain ⟨j, e, he, hp, hle⟩ := countP_le_from_first hsub log h
  simp only [decide_eq_true_eq] at hp
  exact ⟨j, e, he, hp.1.1, hp.2.1, hle⟩

/-- The burst-plus-rate bound on any window. The clock readings need not be
sorted; only the law is used. -/
theorem Lawful.inWindow_le (hl : Lawful rate burst log) (hr : 0 ≤ rate) (hb : 0 ≤ burst)
    {s w : K} (hw : 0 ≤ w) : (inWindow log a s w : K) ≤ burst + rate * w := by
  have hnonneg : 0 ≤ rate * w := mul_nonneg hr hw
  induction log using List.reverseRecOn with
  | nil => simpa [inWindow] using add_nonneg hb hnonneg
  | append_singleton log e ih =>
      have hinit : Lawful rate burst log := by
        intro n x hx
        have := hl n x (getElem?_snoc_of_some hx)
        rwa [List.take_append_of_le_length (lt_length_of_getElem? hx).le] at this
      by_cases hc : (e.key = a ∧ e.admitted = true) ∧ s ≤ e.time ∧ e.time ≤ s + w
      · have hcount : inWindow (log ++ [e]) a s w = inWindow log a s w + 1 := by
          simp [inWindow, List.countP_append, hc]
        have hlast : Within rate burst log e.key e.time := by
          simpa using (hl log.length e (by simp)).mp hc.1.2
        rw [hcount, Nat.cast_add, Nat.cast_one]
        by_cases hz : inWindow log a s w = 0
        · rw [hz, Nat.cast_zero]
          linarith [hlast.1]
        · obtain ⟨j, x, hx, hk, hs, hle⟩ := inWindow_le_spent hz
          have hbudget := hlast.2 j x hx (hk.trans hc.1.1.symm)
          rw [hc.1.1] at hbudget
          have hspent : (inWindow log a s w : K) ≤ spent log a j := Nat.cast_le.mpr hle
          have hspan : rate * (e.time - x.time) ≤ rate * w :=
            mul_le_mul_of_nonneg_left (by linarith [hc.2.2]) hr
          linarith
      · have hcount : inWindow (log ++ [e]) a s w = inWindow log a s w := by
          simp only [inWindow, List.countP_append, List.countP_cons, List.countP_nil]
          rw [if_neg (by simpa using hc)]
          rfl
        rw [hcount]
        exact ih hinit

end Order

end TodoRust.Lib.TokenBucket
