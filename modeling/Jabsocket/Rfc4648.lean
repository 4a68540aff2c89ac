import Mathlib.Algebra.Group.Int.Defs
import Mathlib.Algebra.Group.Nat.Defs
import Mathlib.Data.List.Basic
import Mathlib.Tactic.Common

/-!
# The Base64 encoding

The encoding of RFC 4648, section 4.  Three octets are four digits of six bits; one or two octets
at the end are two or three digits, completed with zero bits, and padding.
-/

namespace Jabsocket.Rfc4648

/-- The character for a value of six bits: letters, digits, `+` and `/`. -/
def digit (value : Nat) : UInt8 :=
  if value < 26 then UInt8.ofNat (65 + value)
  else if value < 52 then UInt8.ofNat (97 + (value - 26))
  else if value < 62 then UInt8.ofNat (48 + (value - 52))
  else if value = 62 then 43
  else 47

/-- The padding character. -/
def pad : UInt8 := 61

/-- The encoding of a string of octets. -/
def encode : List UInt8 → List UInt8
  | [] => []
  | [a] => [digit (a.toNat / 4), digit (a.toNat % 4 * 16), pad, pad]
  | [a, b] =>
      [digit (a.toNat / 4), digit (a.toNat % 4 * 16 + b.toNat / 16), digit (b.toNat % 16 * 4), pad]
  | a :: b :: c :: rest =>
      digit (a.toNat / 4) :: digit (a.toNat % 4 * 16 + b.toNat / 16) ::
        digit (b.toNat % 16 * 4 + c.toNat / 64) :: digit (c.toNat % 64) :: encode rest

theorem digit_plain (value : Nat) : digit value ≠ pad ∧ digit value ≠ 0 := by
  rcases Nat.lt_or_ge value 64 with small | large
  · revert value
    decide
  · have slash : digit value = 47 := by
      rw [digit, if_neg (by omega), if_neg (by omega), if_neg (by omega), if_neg (by omega)]
    rw [slash]
    decide

theorem length_encode (data : List UInt8) : (encode data).length = 4 * ((data.length + 2) / 3) := by
  induction data using encode.induct with
  | case1 => rfl
  | case2 a => simp [encode]
  | case3 a b => simp [encode]
  | case4 a b c rest ih =>
      simp only [encode, List.length_cons, ih]
      omega

theorem zero_notMem_encode (data : List UInt8) : 0 ∉ encode data := by
  have digits (value : Nat) : ¬ 0 = digit value := (digit_plain value).2.symm
  induction data using encode.induct with
  | case1 => simp [encode]
  | case2 a => simp [encode, digits, pad]
  | case3 a b => simp [encode, digits, pad]
  | case4 a b c rest ih => simp [encode, digits, ih]

theorem le_digit (value : Nat) : 43 ≤ digit value := by
  rcases Nat.lt_or_ge value 64 with small | large
  · revert value
    decide
  · have slash : digit value = 47 := by
      rw [digit, if_neg (by omega), if_neg (by omega), if_neg (by omega), if_neg (by omega)]
    rw [slash]
    decide

/-- The encoding is printable text. -/
theorem le_of_mem_encode {data : List UInt8} {byte : UInt8} (member : byte ∈ encode data) :
    43 ≤ byte := by
  have padding : 43 ≤ pad := by decide
  induction data using encode.induct with
  | case1 => cases member
  | case2 a =>
      simp only [encode, List.mem_cons, List.not_mem_nil, or_false] at member
      rcases member with rfl | rfl | rfl | rfl
      · exact le_digit _
      · exact le_digit _
      · exact padding
      · exact padding
  | case3 a b =>
      simp only [encode, List.mem_cons, List.not_mem_nil, or_false] at member
      rcases member with rfl | rfl | rfl | rfl
      · exact le_digit _
      · exact le_digit _
      · exact le_digit _
      · exact padding
  | case4 a b c rest ih =>
      simp only [encode, List.mem_cons] at member
      rcases member with rfl | rfl | rfl | rfl | later
      · exact le_digit _
      · exact le_digit _
      · exact le_digit _
      · exact le_digit _
      · exact ih later

end Jabsocket.Rfc4648
