import Mathlib.Data.List.Basic
import Mathlib.Tactic.NormNum

/-! Bytes, numbers in network order, and hexadecimal digits. -/

set_option autoImplicit false

namespace Doorito.Foundation

abbrev Bytes := List UInt8

/-- The number in base 256 with the given number of digits, most significant first. -/
def bigEndian : Nat → Nat → Bytes
  | 0, _ => []
  | count + 1, value => bigEndian count (value / 256) ++ [UInt8.ofNat (value % 256)]

def hexDigit (value : Nat) : Char :=
  "0123456789abcdef".toList.getD value '0'

def hexDigits (bytes : Bytes) : List Char :=
  bytes.flatMap fun byte => [hexDigit (byte.toNat / 16), hexDigit (byte.toNat % 16)]

def hex (bytes : Bytes) : String := String.ofList (hexDigits bytes)

@[simp] theorem length_bigEndian (count value : Nat) :
    (bigEndian count value).length = count := by
  induction count generalizing value with
  | zero => rfl
  | succ count ih => simp [bigEndian, ih]

theorem bigEndian_injective {count left right : Nat} (leftFits : left < 256 ^ count)
    (rightFits : right < 256 ^ count)
    (same : bigEndian count left = bigEndian count right) : left = right := by
  induction count generalizing left right with
  | zero =>
      simp at leftFits rightFits
      omega
  | succ count ih =>
      simp only [bigEndian] at same
      obtain ⟨leading, last⟩ := List.append_inj' same rfl
      have quotient : left / 256 = right / 256 := by
        apply ih _ _ leading <;> rw [Nat.div_lt_iff_lt_mul (by norm_num), ← Nat.pow_succ]
        · exact leftFits
        · exact rightFits
      have remainder : left % 256 = right % 256 := by
        have bytes : UInt8.ofNat (left % 256) = UInt8.ofNat (right % 256) := by simpa using last
        have values := congrArg UInt8.toNat bytes
        simpa [UInt8.toNat_ofNat'] using values
      omega

private theorem hexDigit_injective {left right : Nat} (leftFits : left < 16)
    (rightFits : right < 16) (same : hexDigit left = hexDigit right) : left = right := by
  have checked : ∀ first < 16, ∀ second < 16,
      hexDigit first = hexDigit second → first = second := by decide
  exact checked left leftFits right rightFits same

theorem hexDigit_ne_hyphen {value : Nat} (fits : value < 16) : hexDigit value ≠ '-' := by
  have checked : ∀ digit < 16, hexDigit digit ≠ '-' := by decide
  exact checked value fits

theorem hexDigits_injective {left right : Bytes}
    (same : hexDigits left = hexDigits right) : left = right := by
  induction left generalizing right with
  | nil =>
      cases right with
      | nil => rfl
      | cons byte rest => simp [hexDigits] at same
  | cons leftByte leftRest ih =>
      cases right with
      | nil => simp [hexDigits] at same
      | cons rightByte rightRest =>
          simp only [hexDigits, List.flatMap_cons, List.cons_append, List.nil_append,
            List.cons.injEq] at same
          obtain ⟨high, low, rest⟩ := same
          have leftSize := leftByte.toNat_lt
          have rightSize := rightByte.toNat_lt
          have highSame := hexDigit_injective (by omega) (by omega) high
          have lowSame := hexDigit_injective (by omega) (by omega) low
          have byteSame : leftByte = rightByte := UInt8.toNat_inj.mp (by omega)
          rw [byteSame, ih rest]

@[simp] theorem length_hexDigits (bytes : Bytes) :
    (hexDigits bytes).length = 2 * bytes.length := by
  simp [hexDigits, Nat.mul_comm]

theorem hyphen_not_mem_hexDigits (bytes : Bytes) : '-' ∉ hexDigits bytes := by
  intro member
  obtain ⟨byte, _, digit⟩ := List.mem_flatMap.mp member
  have size := byte.toNat_lt
  have high : hexDigit (byte.toNat / 16) ≠ '-' := hexDigit_ne_hyphen (by omega)
  have low : hexDigit (byte.toNat % 16) ≠ '-' := hexDigit_ne_hyphen (by omega)
  simp only [List.mem_cons, List.not_mem_nil, or_false] at digit
  rcases digit with digit | digit
  · exact high digit.symm
  · exact low digit.symm

@[simp] theorem length_hex (bytes : Bytes) : (hex bytes).length = 2 * bytes.length := by
  simp [hex]

end Doorito.Foundation
