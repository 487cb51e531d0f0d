import Doorito.Foundation.Percent

/-! Strings of JSON texts in ASCII. A character outside of the printable ones is written as the
hexadecimal digits of its UTF-16 code units, of which there are two above the basic plane. -/

set_option autoImplicit false

namespace Doorito.Foundation.JsonString

/-! ## Writing -/

def escapeUnit (unit : Nat) : Text := '\\' :: 'u' :: hexDigits (bigEndian 2 unit)

/-- The marks of the characters that have a short escape. -/
def mark? (char : Char) : Option Char :=
  if char = '"' then some '"'
  else if char = '\\' then some '\\'
  else if char = '\n' then some 'n'
  else if char = '\r' then some 'r'
  else if char = '\t' then some 't'
  else if char = '\x0c' then some 'f'
  else if char = '\x08' then some 'b'
  else none

def escapeChar (char : Char) : Text :=
  match mark? char with
  | some mark => ['\\', mark]
  | none =>
      if ' ' ≤ char ∧ char ≤ '~' then [char]
      else if char.toNat < 0x10000 then escapeUnit char.toNat
      else
        escapeUnit (0xD800 + (char.toNat - 0x10000) / 0x400) ++
          escapeUnit (0xDC00 + (char.toNat - 0x10000) % 0x400)

def quote (text : Text) : Text := '"' :: text.flatMap escapeChar ++ ['"']

/-! ## Reading -/

/-- The character that a mark stands for. -/
def marked? (mark : Char) : Option Char :=
  if mark = '"' then some '"'
  else if mark = '\\' then some '\\'
  else if mark = '/' then some '/'
  else if mark = 'n' then some '\n'
  else if mark = 'r' then some '\r'
  else if mark = 't' then some '\t'
  else if mark = 'f' then some '\x0c'
  else if mark = 'b' then some '\x08'
  else none

def readUnit : Text → Option (Nat × Text)
  | a :: b :: c :: d :: rest =>
      match Percent.hexValue? a, Percent.hexValue? b, Percent.hexValue? c, Percent.hexValue? d with
      | some first, some second, some third, some fourth =>
          some (((first * 16 + second) * 16 + third) * 16 + fourth, rest)
      | _, _, _, _ => none
  | _ => none

/-- The second code unit of a character above the basic plane, whose first one is given. -/
def readSecond (unit : Nat) : Text → Option (Char × Text)
  | '\\' :: 'u' :: rest =>
      (readUnit rest).bind fun (low, rest) =>
        if 0xDC00 ≤ low ∧ low < 0xE000 then
          some (Char.ofNat (0x10000 + (unit - 0xD800) * 0x400 + (low - 0xDC00)), rest)
        else none
  | _ => none

/-- The first character of a text inside of the quotes; a lone surrogate is none. -/
def readChar : Text → Option (Char × Text)
  | '\\' :: 'u' :: rest =>
      (readUnit rest).bind fun (unit, rest) =>
        if 0xD800 ≤ unit ∧ unit < 0xDC00 then readSecond unit rest
        else if 0xDC00 ≤ unit ∧ unit < 0xE000 then none
        else some (Char.ofNat unit, rest)
  | '\\' :: mark :: rest => (marked? mark).map fun char => (char, rest)
  | char :: rest => if char < ' ' then none else some (char, rest)
  | [] => none

/-- The string up to the closing quote; one round is one character. -/
def readQuoted : Nat → Text → Option (Text × Text)
  | 0, _ => none
  | rounds + 1, text =>
      match text with
      | '"' :: rest => some ([], rest)
      | _ =>
          (readChar text).bind fun (char, rest) =>
            (readQuoted rounds rest).map fun (chars, last) => (char :: chars, last)

/-! ## What is written is read -/

section RoundTrip

variable {rest : Text}

theorem hexValue?_hexDigit {value : Nat} (fits : value < 16) :
    Percent.hexValue? (hexDigit value) = some value := by
  have checked : ∀ digit < 16, Percent.hexValue? (hexDigit digit) = some digit := by decide
  exact checked value fits

theorem readUnit_hexDigits {unit : Nat} (fits : unit < 0x10000) :
    readUnit (hexDigits (bigEndian 2 unit) ++ rest) = some (unit, rest) := by
  have high : (UInt8.ofNat (unit / 256 % 256)).toNat = unit / 256 := by
    rw [UInt8.toNat_ofNat']
    omega
  have low : (UInt8.ofNat (unit % 256)).toNat = unit % 256 := by
    rw [UInt8.toNat_ofNat']
    omega
  have whole : ((unit / 256 / 16 * 16 + unit / 256 % 16) * 16 + unit % 256 / 16) * 16 +
      unit % 256 % 16 = unit := by omega
  simp only [bigEndian, hexDigits, List.nil_append, List.cons_append, List.flatMap_cons,
    List.flatMap_nil, List.append_nil, readUnit, high, low]
  rw [hexValue?_hexDigit (by omega), hexValue?_hexDigit (by omega),
    hexValue?_hexDigit (by omega), hexValue?_hexDigit (by omega)]
  simp only [whole]

theorem marked?_of_mark? {char mark : Char} (marked : mark? char = some mark) :
    marked? mark = some char ∧ mark ≠ 'u' := by
  unfold mark? at marked
  split_ifs at marked with first second third fourth fifth sixth seventh <;> cases marked <;>
    subst char <;> exact ⟨rfl, by decide⟩

/-- A character is no surrogate. -/
theorem toNat_range (char : Char) :
    char.toNat < 0xD800 ∨ 0xE000 ≤ char.toNat ∧ char.toNat < 0x110000 := by
  have valid := char.valid
  change char.toNat < 0xD800 ∨ 0xDFFF < char.toNat ∧ char.toNat < 0x110000 at valid
  omega

theorem readChar_escapeUnit {char : Char} (basic : char.toNat < 0x10000) :
    readChar (escapeUnit char.toNat ++ rest) = some (char, rest) := by
  have range := toNat_range char
  simp only [escapeUnit, List.cons_append, readChar, readUnit_hexDigits basic, Option.bind_some]
  rw [if_neg (by omega), if_neg (by omega), Char.ofNat_toNat]

theorem readChar_pair {char : Char} (beyond : 0x10000 ≤ char.toNat) :
    readChar (escapeUnit (0xD800 + (char.toNat - 0x10000) / 0x400) ++
      (escapeUnit (0xDC00 + (char.toNat - 0x10000) % 0x400) ++ rest)) = some (char, rest) := by
  have range := toNat_range char
  have whole : 0x10000 + (0xD800 + (char.toNat - 0x10000) / 0x400 - 0xD800) * 0x400 +
      (0xDC00 + (char.toNat - 0x10000) % 0x400 - 0xDC00) = char.toNat := by omega
  simp only [escapeUnit, List.cons_append, readChar]
  rw [readUnit_hexDigits (by omega), Option.bind_some, if_pos (by omega)]
  simp only [readSecond]
  rw [readUnit_hexDigits (by omega), Option.bind_some, if_pos (by omega), whole,
    Char.ofNat_toNat]

theorem readChar_escapeChar (char : Char) :
    readChar (escapeChar char ++ rest) = some (char, rest) := by
  unfold escapeChar
  cases marked : mark? char with
  | some mark =>
      obtain ⟨reads, other⟩ := marked?_of_mark? marked
      simp [readChar, reads]
  | none =>
      split_ifs with printable basic
      · have plain : char ≠ '\\' := by
          rintro rfl
          cases marked
        have visible : ¬ char < ' ' := Char.not_lt.mpr printable.1
        simp [readChar, plain, visible]
      · exact readChar_escapeUnit basic
      · rw [List.append_assoc]
        exact readChar_pair (not_lt.mp basic)

theorem escapeChar_eq_cons (char : Char) :
    ∃ first more, escapeChar char = first :: more ∧ first ≠ '"' := by
  unfold escapeChar
  split
  · exact ⟨_, _, rfl, by decide⟩
  · next unmarked =>
    split_ifs
    · refine ⟨_, _, rfl, ?_⟩
      rintro rfl
      cases unmarked
    · exact ⟨_, _, rfl, by decide⟩
    · exact ⟨_, _, rfl, by decide⟩

theorem readQuoted_flatMap {rounds : Nat} (text : Text) (enough : text.length < rounds) :
    readQuoted rounds (text.flatMap escapeChar ++ '"' :: rest) = some (text, rest) := by
  induction text generalizing rounds with
  | nil =>
      cases rounds with
      | zero => cases enough
      | succ rounds => rfl
  | cons char text ih =>
      cases rounds with
      | zero => cases enough
      | succ rounds =>
          obtain ⟨first, more, split, other⟩ := escapeChar_eq_cons char
          have reads : readChar (escapeChar char ++ (text.flatMap escapeChar ++ '"' :: rest)) =
              some (char, text.flatMap escapeChar ++ '"' :: rest) := readChar_escapeChar char
          have later := ih (Nat.lt_of_succ_lt_succ enough)
          rw [split, List.cons_append] at reads
          rw [List.flatMap_cons, List.append_assoc, split, List.cons_append]
          simp [readQuoted, other, reads, later]

/-- A text has no more characters than their escapes. -/
theorem length_le_flatMap (text : Text) : text.length ≤ (text.flatMap escapeChar).length := by
  induction text with
  | nil => exact Nat.le_refl _
  | cons char text ih =>
      obtain ⟨first, more, split, _⟩ := escapeChar_eq_cons char
      rw [List.flatMap_cons, List.length_append, split]
      simp only [List.length_cons]
      omega

end RoundTrip

end Doorito.Foundation.JsonString
