import Mathlib.Data.List.Nodup

/-!
# Base64 without padding

Three bytes make four characters; one or two bytes at the end make two or three. What was
encoded is decoded again, so different bytes have different texts, and a text has
characters of the alphabet only.
-/

namespace TodoRust.Lib.Base64

/-- Sixty-four characters, no two of them equal. -/
structure Alphabet where
  chars : List Char
  length_eq : chars.length = 64
  nodup : chars.Nodup

/-- The groups of six bits; the last is filled up with zeros. -/
def sextets : List UInt8 → List Nat
  | [] => []
  | [a] => [a.toNat / 4, a.toNat % 4 * 16]
  | [a, b] => [a.toNat / 4, a.toNat % 4 * 16 + b.toNat / 16, b.toNat % 16 * 4]
  | a :: b :: c :: rest =>
      a.toNat / 4 :: (a.toNat % 4 * 16 + b.toNat / 16) :: (b.toNat % 16 * 4 + c.toNat / 64) ::
        c.toNat % 64 :: sextets rest

/-- The bytes of the groups; bits that make no whole byte are dropped. -/
def octets : List Nat → List UInt8
  | p :: q :: r :: s :: rest =>
      UInt8.ofNat (p * 4 + q / 16) :: UInt8.ofNat (q % 16 * 16 + r / 4) ::
        UInt8.ofNat (r % 4 * 64 + s) :: octets rest
  | [p, q, r] => [UInt8.ofNat (p * 4 + q / 16), UInt8.ofNat (q % 16 * 16 + r / 4)]
  | [p, q] => [UInt8.ofNat (p * 4 + q / 16)]
  | [_] | [] => []

theorem sextets_lt (bytes : List UInt8) : ∀ n ∈ sextets bytes, n < 64 := by
  induction bytes using sextets.induct with
  | case1 => exact fun n hn => by cases hn
  | case2 a =>
      have ha := a.toNat_lt
      simp only [sextets, List.forall_mem_cons]
      refine ⟨?_, ?_, fun n hn => by cases hn⟩
      all_goals omega
  | case3 a b =>
      have ha := a.toNat_lt
      have hb := b.toNat_lt
      simp only [sextets, List.forall_mem_cons]
      refine ⟨?_, ?_, ?_, fun n hn => by cases hn⟩
      all_goals omega
  | case4 a b c rest ih =>
      have ha := a.toNat_lt
      have hb := b.toNat_lt
      have hc := c.toNat_lt
      simp only [sextets, List.forall_mem_cons]
      refine ⟨?_, ?_, ?_, ?_, ih⟩
      all_goals omega

theorem length_sextets (bytes : List UInt8) :
    (sextets bytes).length = (bytes.length * 4 + 2) / 3 := by
  induction bytes using sextets.induct with
  | case1 => rfl
  | case2 a => simp only [sextets, List.length_cons, List.length_nil]
  | case3 a b => simp only [sextets, List.length_cons, List.length_nil]
  | case4 a b c rest ih =>
      simp only [sextets, List.length_cons, ih]
      omega

/-- A byte is what its bits say. -/
theorem ofNat_eq {n : Nat} {a : UInt8} (h : n = a.toNat) : UInt8.ofNat n = a := by
  rw [h, UInt8.ofNat_toNat]

theorem octets_sextets (bytes : List UInt8) : octets (sextets bytes) = bytes := by
  induction bytes using sextets.induct with
  | case1 => rfl
  | case2 a =>
      have hfirst : UInt8.ofNat (a.toNat / 4 * 4 + a.toNat % 4 * 16 / 16) = a := by
        apply ofNat_eq
        omega
      simp only [sextets, octets, hfirst]
  | case3 a b =>
      have hb := b.toNat_lt
      have hfirst : UInt8.ofNat (a.toNat / 4 * 4 + (a.toNat % 4 * 16 + b.toNat / 16) / 16) = a := by
        apply ofNat_eq
        omega
      have hsecond : UInt8.ofNat ((a.toNat % 4 * 16 + b.toNat / 16) % 16 * 16 +
          b.toNat % 16 * 4 / 4) = b := by
        apply ofNat_eq
        omega
      simp only [sextets, octets, hfirst, hsecond]
  | case4 a b c rest ih =>
      have hb := b.toNat_lt
      have hc := c.toNat_lt
      have hfirst : UInt8.ofNat (a.toNat / 4 * 4 + (a.toNat % 4 * 16 + b.toNat / 16) / 16) = a := by
        apply ofNat_eq
        omega
      have hsecond : UInt8.ofNat ((a.toNat % 4 * 16 + b.toNat / 16) % 16 * 16 +
          (b.toNat % 16 * 4 + c.toNat / 64) / 4) = b := by
        apply ofNat_eq
        omega
      have hthird :
          UInt8.ofNat ((b.toNat % 16 * 4 + c.toNat / 64) % 4 * 64 + c.toNat % 64) = c := by
        apply ofNat_eq
        omega
      simp only [sextets, octets, hfirst, hsecond, hthird, ih]

namespace Alphabet
variable (alphabet : Alphabet)

/-- The character of a group. -/
def char (n : Nat) : Char := alphabet.chars.getD n ' '

/-- The group of a character, if it is one of the alphabet. -/
def group (c : Char) : Option Nat :=
  if c ∈ alphabet.chars then some (alphabet.chars.idxOf c) else none

def encode (bytes : List UInt8) : String := String.ofList ((sextets bytes).map alphabet.char)

def decode (text : String) : Option (List UInt8) :=
  (text.toList.mapM alphabet.group).map octets

theorem char_eq {n : Nat} (h : n < alphabet.chars.length) :
    alphabet.char n = alphabet.chars[n] := by
  rw [char, List.getD_eq_getElem?_getD, List.getElem?_eq_getElem h, Option.getD_some]

theorem char_mem {n : Nat} (h : n < 64) : alphabet.char n ∈ alphabet.chars := by
  have hlt : n < alphabet.chars.length := alphabet.length_eq ▸ h
  rw [alphabet.char_eq hlt]
  exact List.getElem_mem hlt

theorem group_char {n : Nat} (h : n < 64) : alphabet.group (alphabet.char n) = some n := by
  have hlt : n < alphabet.chars.length := alphabet.length_eq ▸ h
  rw [group, if_pos (alphabet.char_mem h), alphabet.char_eq hlt,
    List.Nodup.idxOf_getElem alphabet.nodup]

/-- Every character of a text is one of the alphabet. -/
theorem mem_of_mem_encode {bytes : List UInt8} {c : Char}
    (h : c ∈ (alphabet.encode bytes).toList) : c ∈ alphabet.chars := by
  rw [encode, String.toList_ofList] at h
  obtain ⟨n, hn, rfl⟩ := List.mem_map.mp h
  exact alphabet.char_mem (sextets_lt bytes n hn)

theorem length_encode (bytes : List UInt8) :
    (alphabet.encode bytes).toList.length = (bytes.length * 4 + 2) / 3 := by
  rw [encode, String.toList_ofList, List.length_map, length_sextets]

/-- What was encoded is decoded again. -/
theorem decode_encode (bytes : List UInt8) :
    alphabet.decode (alphabet.encode bytes) = some bytes := by
  have hgroups : ∀ groups : List Nat, (∀ n ∈ groups, n < 64) →
      (groups.map alphabet.char).mapM alphabet.group = some groups := by
    intro groups
    induction groups with
    | nil => exact fun _ => rfl
    | cons n groups ih =>
        intro h
        obtain ⟨hn, hrest⟩ := List.forall_mem_cons.mp h
        rw [List.map_cons, List.mapM_cons, alphabet.group_char hn, ih hrest]
        rfl
  rw [decode, encode, String.toList_ofList, hgroups _ (sextets_lt bytes), Option.map_some,
    octets_sextets]

theorem encode_injective : Function.Injective alphabet.encode := by
  intro bytes bytes' h
  apply Option.some.inj
  calc some bytes = alphabet.decode (alphabet.encode bytes) := (alphabet.decode_encode bytes).symm
    _ = alphabet.decode (alphabet.encode bytes') := by rw [h]
    _ = some bytes' := alphabet.decode_encode bytes'

end Alphabet

/-- `URL_SAFE_NO_PAD` -/
def urlSafe : Alphabet where
  chars := "ABCDEFGHIJKLMNOPQRSTUVWXYZabcdefghijklmnopqrstuvwxyz0123456789-_".toList
  length_eq := by decide
  nodup := by decide

end TodoRust.Lib.Base64
