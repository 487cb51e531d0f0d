import Doorito.Foundation.Utf8

/-! Decimal digits, read from the beginning of a text. A number that is written in all of its
digits is read up to the first character that is none; one that is padded to a width is read in
that width. -/

set_option autoImplicit false

namespace Doorito.Foundation.Decimal

def digits (value : Nat) : Text := Nat.toDigits 10 value

/-- The number of leading digits, unless there are none, and what follows them. -/
def readNat (text : Text) : Option (Nat × Text) :=
  let leading := text.takeWhile Char.isDigit
  if leading = [] then none
  else some (Nat.ofDigitChars 10 leading 0, text.dropWhile Char.isDigit)

/-- The digits, with zeros before them up to the width. -/
def padded (width value : Nat) : Text :=
  List.replicate (width - (digits value).length) '0' ++ digits value

/-- The number in the digits of a width, and what follows them. -/
def readPadded (width : Nat) (text : Text) : Option (Nat × Text) :=
  let leading := text.take width
  if leading.length = width ∧ leading.all Char.isDigit then
    some (Nat.ofDigitChars 10 leading 0, text.drop width)
  else none

section Digits

variable {width value : Nat} {rest : Text}

theorem isDigit_of_mem_digits {char : Char} (member : char ∈ digits value) :
    char.isDigit = true :=
  Nat.isDigit_of_mem_toDigits (by decide) (by decide) member

theorem length_digits_le_iff (nonzero : 0 < width) :
    (digits value).length ≤ width ↔ value < 10 ^ width :=
  Nat.length_toDigits_le_iff (by decide) nonzero

theorem digits_ne_nil : digits value ≠ [] := Nat.toDigits_ne_nil

/-- The text begins with no digit. -/
def EndsNumber (rest : Text) : Prop := ∀ char ∈ rest.head?, char.isDigit = false

/-- A number is read up to the end of its digits. -/
theorem readNat_append {number : Text} (digits : ∀ char ∈ number, char.isDigit = true)
    (nonempty : number ≠ []) (ends : EndsNumber rest) :
    readNat (number ++ rest) = some (Nat.ofDigitChars 10 number 0, rest) := by
  have none : rest.takeWhile Char.isDigit = [] ∧ rest.dropWhile Char.isDigit = rest := by
    cases rest with
    | nil => exact ⟨rfl, rfl⟩
    | cons first more =>
        have other := ends first rfl
        simp [other]
  have taken : (number ++ rest).takeWhile Char.isDigit = number := by
    rw [List.takeWhile_append_of_pos digits, none.1, List.append_nil]
  have dropped : (number ++ rest).dropWhile Char.isDigit = rest := by
    rw [List.dropWhile_append_of_pos digits, none.2]
  rw [readNat, taken, dropped, if_neg nonempty]

theorem readNat_digits (ends : EndsNumber rest) :
    readNat (digits value ++ rest) = some (value, rest) := by
  rw [readNat_append (fun _ => isDigit_of_mem_digits) digits_ne_nil ends, digits,
    Nat.ofDigitChars_ten_toDigits]

theorem length_padded (nonzero : 0 < width) (fits : value < 10 ^ width) :
    (padded width value).length = width := by
  have short := (length_digits_le_iff nonzero).mpr fits
  rw [padded, List.length_append, List.length_replicate]
  omega

theorem isDigit_of_mem_padded {char : Char} (member : char ∈ padded width value) :
    char.isDigit = true := by
  rcases List.mem_append.mp member with zero | digit
  · rw [List.eq_of_mem_replicate zero]
    rfl
  · exact isDigit_of_mem_digits digit

theorem ofDigitChars_padded : Nat.ofDigitChars 10 (padded width value) 0 = value := by
  rw [padded, Nat.ofDigitChars_append, Nat.ofDigitChars_replicate_zero, Nat.mul_zero, digits,
    Nat.ofDigitChars_ten_toDigits]

theorem readNat_padded (ends : EndsNumber rest) :
    readNat (padded width value ++ rest) = some (value, rest) := by
  have nonempty : padded width value ≠ [] :=
    List.append_ne_nil_of_right_ne_nil _ digits_ne_nil
  rw [readNat_append (fun _ => isDigit_of_mem_padded) nonempty ends, ofDigitChars_padded]

theorem readPadded_padded (nonzero : 0 < width) (fits : value < 10 ^ width) :
    readPadded width (padded width value ++ rest) = some (value, rest) := by
  have length : (padded width value).length = width := length_padded nonzero fits
  have taken : (padded width value ++ rest).take width = padded width value := by
    rw [List.take_append_of_le_length length.ge, List.take_of_length_le length.le]
  have dropped : (padded width value ++ rest).drop width = rest := by
    rw [List.drop_append_of_le_length length.ge, List.drop_of_length_le length.le, List.nil_append]
  have all : (padded width value).all Char.isDigit = true :=
    List.all_eq_true.mpr fun _ => isDigit_of_mem_padded
  rw [readPadded, taken, dropped, if_pos ⟨length, all⟩, ofDigitChars_padded]

end Digits

end Doorito.Foundation.Decimal
