import Mathlib.Data.List.Infix

/-!
# Texts with codes in them

A code at the front of a text stands for symbols of its own; what is no code stands for
itself. Where every code is longer than what it stands for, decoding shortens every text
that has a code in it, and leaves only those alone that have none.
-/

namespace TodoRust.Lib.Coded

variable {α β : Type}

/-- How codes are read: what the code at the front of a text stands for, with the number
of symbols after its first, and what a symbol stands for outside a code. -/
structure Reader (α β : Type) where
  read : List α → Option (List β × Nat)
  plain : α → List β

namespace Reader
variable (r : Reader α β)

/-- Decode a text whose first `n` symbols belong to a code that was read. -/
def decodeFrom : Nat → List α → List β
  | _, [] => []
  | n + 1, _ :: as => decodeFrom n as
  | 0, a :: as =>
      match r.read (a :: as) with
      | some (bs, n) => bs ++ decodeFrom n as
      | none => r.plain a ++ decodeFrom 0 as

def decode (as : List α) : List β := r.decodeFrom 0 as

/-- There is no code in the text. -/
def Free (as : List α) : Prop := ∀ tail, tail <:+ as → r.read tail = none

/-- A text counts as many symbols as it has outside its codes, and a code counts fewer
than it has. -/
structure Shrinks (p : β → Bool) : Prop where
  plain : ∀ a, (r.plain a).countP p = 1
  code : ∀ {a as bs n}, r.read (a :: as) = some (bs, n) → bs.countP p ≤ n ∧ n ≤ as.length
  nil : r.read [] = none

variable {r}

theorem Free.tail {a : α} {as : List α} (h : r.Free (a :: as)) : r.Free as :=
  fun tail htail => h tail (htail.trans (List.suffix_cons a as))

/-- Symbols that begin no code add none in front of a text. -/
theorem Free.append {first rest : List α} (hrest : r.Free rest)
    (hfirst : ∀ a ∈ first, ∀ as, r.read (a :: as) = none) : r.Free (first ++ rest) := by
  induction first with
  | nil => exact hrest
  | cons a first ih =>
      obtain ⟨ha, hfirst⟩ := List.forall_mem_cons.mp hfirst
      intro tail htail
      rcases List.suffix_cons_iff.mp htail with rfl | htail
      · exact ha _
      · exact ih hfirst tail htail

theorem free_of_forall {as : List α} (hnil : r.read [] = none)
    (h : ∀ a ∈ as, ∀ rest, r.read (a :: rest) = none) : r.Free as := by
  have hfree : r.Free [] := fun tail htail => List.suffix_nil.mp htail ▸ hnil
  rw [← List.append_nil as]
  exact hfree.append h

theorem decodeFrom_length (first rest : List α) :
    r.decodeFrom first.length (first ++ rest) = r.decode rest := by
  induction first with
  | nil => rfl
  | cons a first ih => exact ih

theorem decode_cons_of_none {a : α} {as : List α} (h : r.read (a :: as) = none) :
    r.decode (a :: as) = r.plain a ++ r.decode as := by
  rw [decode, decodeFrom, h]
  rfl

theorem decode_code {a : α} {code : List α} {bs : List β} (rest : List α)
    (h : r.read (a :: code ++ rest) = some (bs, code.length)) :
    r.decode (a :: code ++ rest) = bs ++ r.decode rest := by
  rw [List.cons_append] at h ⊢
  rw [decode, decodeFrom, h]
  exact congrArg (bs ++ ·) (decodeFrom_length code rest)

/-- A text without codes stands for itself. -/
theorem Free.decode_eq {as : List α} (h : r.Free as) : r.decode as = as.flatMap r.plain := by
  induction as with
  | nil => rfl
  | cons a as ih =>
      rw [decode_cons_of_none (h _ List.suffix_rfl), ih h.tail]
      rfl

section Count
variable {p : β → Bool} (h : r.Shrinks p)
include h

theorem countP_decodeFrom_le (n : Nat) (as : List α) :
    (r.decodeFrom n as).countP p ≤ as.length - n := by
  induction as generalizing n with
  | nil => exact Nat.zero_le _
  | cons a as ih =>
      cases n with
      | succ n => exact (ih n).trans (by simp)
      | zero =>
          rw [decodeFrom]
          split
          · rename_i bs n hread
            obtain ⟨hcount, hlength⟩ := h.code hread
            have hrest := ih n
            rw [List.countP_append, List.length_cons]
            omega
          · have hrest := ih 0
            rw [List.countP_append, h.plain, List.length_cons]
            omega

/-- Decoding lengthens no text. -/
theorem countP_decode_le (as : List α) : (r.decode as).countP p ≤ as.length :=
  countP_decodeFrom_le h 0 as

/-- Decoding shortens a text with a code in it. -/
theorem free_of_countP_eq {as : List α} (hcount : (r.decode as).countP p = as.length) :
    r.Free as := by
  induction as with
  | nil =>
      intro tail htail
      rw [List.suffix_nil.mp htail, h.nil]
  | cons a as ih =>
      cases hread : r.read (a :: as) with
      | some code =>
          obtain ⟨bs, n⟩ := code
          obtain ⟨hshort, hlength⟩ := h.code hread
          have hrest := countP_decodeFrom_le h n as
          rw [decode, decodeFrom, hread, List.countP_append, List.length_cons] at hcount
          omega
      | none =>
          rw [decode_cons_of_none hread, List.countP_append, h.plain, List.length_cons] at hcount
          intro tail htail
          rcases List.suffix_cons_iff.mp htail with rfl | htail
          · exact hread
          · exact ih (by omega) tail htail

end Count

end Reader

end TodoRust.Lib.Coded
