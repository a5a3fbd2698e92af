import Mathlib.Data.List.Basic

/-!
# UUIDs and their textual form

Cache keys are built from the hyphenated text of a UUID, so that text has to
determine the UUID.
-/

namespace TodoRust.Domain

structure Uuid where
  bits : BitVec 128
  deriving DecidableEq

namespace Uuid

/-- The lower-case hexadecimal digit of a value below 16. -/
def hexDigit (n : Nat) : Char :=
  if n < 10 then Char.ofNat ('0'.toNat + n) else Char.ofNat ('a'.toNat + (n - 10))

/-- The digits, most significant first. -/
def hex (id : Uuid) : List Char :=
  (List.range 32).map fun i => hexDigit (id.bits.toNat >>> (4 * (31 - i)) % 16)

/-- `Uuid`'s `Display`: 8-4-4-4-12 digits. -/
def toString (id : Uuid) : String :=
  let d := id.hex
  String.ofList (d.take 8 ++ '-' :: (d.drop 8).take 4 ++ '-' :: (d.drop 12).take 4 ++
    '-' :: (d.drop 16).take 4 ++ '-' :: d.drop 20)

theorem hexDigit_inj : ∀ m < 16, ∀ n < 16, hexDigit m = hexDigit n → m = n := by
  decide

theorem hexDigit_ne_hyphen : ∀ n < 16, hexDigit n ≠ '-' := by
  decide

theorem hex_ne_hyphen {id : Uuid} {c : Char} (h : c ∈ id.hex) : c ≠ '-' := by
  obtain ⟨i, _, rfl⟩ := List.mem_map.mp h
  exact hexDigit_ne_hyphen _ (Nat.mod_lt _ (by decide))

theorem hex_injective : Function.Injective hex := by
  intro x y h
  have hnib : ∀ i < 32, x.bits.toNat >>> (4 * (31 - i)) % 16 =
      y.bits.toNat >>> (4 * (31 - i)) % 16 := by
    intro i hi
    have hd := List.map_inj_left.mp h i (List.mem_range.mpr hi)
    exact hexDigit_inj _ (Nat.mod_lt _ (by decide)) _ (Nat.mod_lt _ (by decide)) hd
  -- bit `k` is bit `k % 4` of the digit of weight `k / 4`
  have hbit : ∀ k < 128, x.bits.toNat.testBit k = y.bits.toNat.testBit k := by
    intro k hk
    have hn := congrArg (fun n => Nat.testBit n (k % 4)) (hnib (31 - k / 4) (by omega))
    have hpow : (16 : Nat) = 2 ^ 4 := rfl
    have hpos : 4 * (31 - (31 - k / 4)) + k % 4 = k := by omega
    simpa only [hpow, Nat.testBit_mod_two_pow, Nat.testBit_shiftRight, hpos,
      Nat.mod_lt k (show 0 < 4 by decide), decide_true, Bool.true_and] using hn
  cases x with
  | mk a =>
      cases y with
      | mk b =>
          congr 1
          apply BitVec.eq_of_getLsbD_eq
          intro k hk
          simpa only [BitVec.getLsbD] using hbit k hk

/-- Deleting the hyphens gives the digits back. -/
theorem filter_toString (id : Uuid) : id.toString.toList.filter (· != '-') = id.hex := by
  have hall : ∀ {l : List Char}, (∀ c ∈ l, c ∈ id.hex) → l.filter (· != '-') = l := by
    intro l hl
    rw [List.filter_eq_self]
    intro c hc
    simpa using hex_ne_hyphen (hl c hc)
  have htake : ∀ {i j : Nat}, ∀ c ∈ (id.hex.drop i).take j, c ∈ id.hex := fun c hc =>
    List.mem_of_mem_drop (List.mem_of_mem_take hc)
  simp only [toString, String.toList_ofList, List.filter_append, List.filter_cons,
    bne_self_eq_false, Bool.false_eq_true, if_false]
  rw [hall fun c hc => List.mem_of_mem_take hc, hall htake, hall htake, hall htake,
    hall fun c hc => List.mem_of_mem_drop hc]
  have hjoin : ∀ (l : List Char) (i j : Nat), (l.drop i).take j ++ l.drop (i + j) = l.drop i := by
    intro l i j
    rw [← List.drop_drop, List.take_append_drop]
  rw [List.append_assoc, List.append_assoc, List.append_assoc, hjoin _ 16 4, hjoin _ 12 4,
    hjoin _ 8 4, List.take_append_drop]

theorem toString_injective : Function.Injective toString := by
  intro x y h
  apply hex_injective
  rw [← filter_toString, ← filter_toString, h]

theorem toString_ne_slash {id : Uuid} {c : Char} (h : c ∈ id.toString.toList) : c ≠ '/' := by
  have hdigit : ∀ n < 16, hexDigit n ≠ '/' := by decide
  by_cases hhyphen : c = '-'
  · rw [hhyphen]
    decide
  · have hmem : c ∈ id.hex := by
      rw [← filter_toString, List.mem_filter]
      exact ⟨h, by simpa using hhyphen⟩
    obtain ⟨i, _, rfl⟩ := List.mem_map.mp hmem
    exact hdigit _ (Nat.mod_lt _ (by decide))

theorem toString_ne_nil (id : Uuid) : id.toString.toList ≠ [] := by
  intro h
  have hhex := id.filter_toString
  rw [h] at hhex
  exact absurd (congrArg List.length hhex) (by simp [hex])

end Uuid

end TodoRust.Domain
