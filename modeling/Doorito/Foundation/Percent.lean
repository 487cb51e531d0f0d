import Doorito.Foundation.Utf8

/-! Percent-encoding. A character that is not left plain is written as the escapes of its
bytes; reading turns escapes back into bytes and a plus sign into a space. -/

set_option autoImplicit false

namespace Doorito.Foundation.Percent

def upperHexDigit (value : Nat) : Char := "0123456789ABCDEF".toList.getD value '0'

def hexValue? (digit : Char) : Option Nat :=
  if '0' ≤ digit ∧ digit ≤ '9' then some (digit.toNat - '0'.toNat)
  else if 'A' ≤ digit ∧ digit ≤ 'F' then some (digit.toNat - 'A'.toNat + 10)
  else if 'a' ≤ digit ∧ digit ≤ 'f' then some (digit.toNat - 'a'.toNat + 10)
  else none

def hexByte? (high low : Char) : Option UInt8 :=
  match hexValue? high, hexValue? low with
  | some first, some second => some (UInt8.ofNat (first * 16 + second))
  | _, _ => none

def escape (byte : UInt8) : Text :=
  ['%', upperHexDigit (byte.toNat / 16), upperHexDigit (byte.toNat % 16)]

def escapeChar (char : Char) : Text := (String.utf8EncodeChar char).flatMap escape

def quote (plain : Char → Bool) (text : Text) : Text :=
  text.flatMap fun char => if plain char then [char] else escapeChar char

def quotePlus (plain : Char → Bool) (text : Text) : Text :=
  text.flatMap fun char =>
    if char = ' ' then ['+'] else if plain char then [char] else escapeChar char

/-- The byte of an escape at the beginning. -/
def escapedByte? : Text → Option UInt8
  | percent :: high :: low :: _ => if percent = '%' then hexByte? high low else none
  | _ => none

def plusToSpace (char : Char) : Char := if char = '+' then ' ' else char

/-- What is read once so many characters have been passed over. -/
def unescapeAfter : Nat → Text → Bytes
  | _, [] => []
  | skip + 1, _ :: rest => unescapeAfter skip rest
  | 0, char :: rest =>
      match escapedByte? (char :: rest) with
      | some byte => byte :: unescapeAfter 2 rest
      | none => String.utf8EncodeChar (plusToSpace char) ++ unescapeAfter 0 rest

def unescape (text : Text) : Bytes := unescapeAfter 0 text

def unquotePlus (text : Text) : Text := Utf8.decode (unescape text)

/-- Quoting that leaves alone what the reader treats in a special way. -/
structure KeepsEscapes (plain : Char → Bool) : Prop where
  percent : plain '%' = true
  plus : plain '+' = true
  digits : ∀ char, hexValue? char ≠ none → plain char = true

/-- Somewhere in the text stands a percent sign before two hexadecimal digits. -/
def HasEscape (text : Text) : Prop :=
  ∃ front back byte, text = front ++ back ∧ escapedByte? back = some byte

/-! ## Escapes -/

section Escapes

variable {high low char : Char} {byte : UInt8} {rest : Text}

theorem escapedByte?_percent (high low : Char) (rest : Text) :
    escapedByte? ('%' :: high :: low :: rest) = hexByte? high low := by
  rw [escapedByte?, if_pos rfl]

theorem escapedByte?_of_ne (other : char ≠ '%') (rest : Text) :
    escapedByte? (char :: rest) = none := by
  cases rest with
  | nil => rfl
  | cons second rest =>
      cases rest with
      | nil => rfl
      | cons third rest => rw [escapedByte?, if_neg other]

theorem hexByte?_of_first (noDigit : hexValue? high = none) : hexByte? high low = none := by
  simp only [hexByte?, noDigit]

theorem hexByte?_of_second (noDigit : hexValue? low = none) : hexByte? high low = none := by
  rw [hexByte?, noDigit]
  cases hexValue? high <;> rfl

theorem hexValue?_range {digit : Char} (valued : hexValue? digit ≠ none) :
    ('0' ≤ digit ∧ digit ≤ '9') ∨ ('A' ≤ digit ∧ digit ≤ 'F') ∨ ('a' ≤ digit ∧ digit ≤ 'f') := by
  unfold hexValue? at valued
  split_ifs at valued with number upper lower
  · exact .inl number
  · exact .inr (.inl upper)
  · exact .inr (.inr lower)
  · exact absurd rfl valued

theorem hexValue?_upperHexDigit {value : Nat} (fits : value < 16) :
    hexValue? (upperHexDigit value) = some value := by
  have checked : ∀ digit < 16, hexValue? (upperHexDigit digit) = some digit := by decide
  exact checked value fits

theorem escapedByte?_escape (byte : UInt8) (rest : Text) :
    escapedByte? (escape byte ++ rest) = some byte := by
  have size := byte.toNat_lt
  have whole : byte.toNat / 16 * 16 + byte.toNat % 16 = byte.toNat := by omega
  simp only [escape, List.cons_append, List.nil_append, escapedByte?_percent, hexByte?]
  rw [hexValue?_upperHexDigit (by omega), hexValue?_upperHexDigit (by omega)]
  simp only [whole, UInt8.ofNat_toNat]

theorem exists_of_escapedByte? {text : Text} (found : escapedByte? text = some byte) :
    ∃ high low rest, text = '%' :: high :: low :: rest ∧ hexByte? high low = some byte := by
  match text with
  | percent :: high :: low :: rest =>
      by_cases same : percent = '%'
      · subst same
        exact ⟨high, low, rest, rfl, (escapedByte?_percent ..).symm.trans found⟩
      · rw [escapedByte?_of_ne same] at found
        cases found
  | [] => cases found
  | [_] => cases found
  | [_, _] => cases found

theorem unescape_escaped (valid : hexByte? high low = some byte) (rest : Text) :
    unescape ('%' :: high :: low :: rest) = byte :: unescape rest := by
  simp only [unescape, unescapeAfter, escapedByte?_percent, valid]

theorem unescape_char (unescaped : escapedByte? (char :: rest) = none) :
    unescape (char :: rest) = String.utf8EncodeChar (plusToSpace char) ++ unescape rest := by
  simp only [unescape, unescapeAfter, unescaped]

/-- A text is read escape by escape and character by character. -/
theorem escape_induction {motive : Text → Prop} (nil : motive [])
    (escaped : ∀ high low byte rest, hexByte? high low = some byte → motive rest →
      motive ('%' :: high :: low :: rest))
    (char : ∀ char rest, escapedByte? (char :: rest) = none → motive rest →
      motive (char :: rest))
    (text : Text) : motive text := by
  refine (measure List.length).wf.induction text fun text ih => ?_
  cases text with
  | nil => exact nil
  | cons first rest =>
      cases found : escapedByte? (first :: rest) with
      | none => exact char first rest found (ih rest (Nat.lt_succ_self _))
      | some byte =>
          obtain ⟨high, low, more, shape, valid⟩ := exists_of_escapedByte? found
          rw [shape] at ih ⊢
          have shorter : more.length < ('%' :: high :: low :: more).length := by
            simp only [List.length_cons]
            omega
          exact escaped high low byte more valid (ih more shorter)

theorem unescape_escapes (bytes : Bytes) (rest : Text) :
    unescape (bytes.flatMap escape ++ rest) = bytes ++ unescape rest := by
  induction bytes with
  | nil => rfl
  | cons byte more ih =>
      rw [List.flatMap_cons, List.append_assoc, List.cons_append, ← ih]
      have found := escapedByte?_escape byte []
      exact unescape_escaped ((escapedByte?_percent _ _ []).symm.trans found) _

end Escapes

/-! ## Reading what was written -/

section Quote

variable {plain : Char → Bool} {text : Text}

theorem quote_cons_of_plain {char : Char} (kept : plain char = true) (rest : Text) :
    quote plain (char :: rest) = char :: quote plain rest := by
  rw [quote, List.flatMap_cons, if_pos kept]
  rfl

theorem quote_cons_of_not_plain {char : Char} (escaped : plain char = false) (rest : Text) :
    quote plain (char :: rest) = escapeChar char ++ quote plain rest := by
  rw [quote, List.flatMap_cons, escaped, if_neg Bool.false_ne_true]
  rfl

theorem escapeChar_eq_cons (char : Char) : ∃ digits, escapeChar char = '%' :: digits := by
  obtain ⟨byte, bytes, shape⟩ := List.exists_cons_of_ne_nil (@String.utf8EncodeChar_ne_nil char)
  rw [escapeChar, shape]
  exact ⟨_, rfl⟩

/-- What is not plain begins with a percent sign, which is no digit. -/
theorem quote_no_digit (plain : Char → Bool) {char : Char} (noDigit : hexValue? char = none)
    (rest : Text) :
    ∃ first more, quote plain (char :: rest) = first :: more ∧ hexValue? first = none := by
  cases kept : plain char with
  | true => exact ⟨char, _, quote_cons_of_plain kept rest, noDigit⟩
  | false =>
      obtain ⟨digits, shape⟩ := escapeChar_eq_cons char
      rw [quote_cons_of_not_plain kept, shape]
      exact ⟨'%', _, rfl, by decide⟩

/-- Quoting does not complete an escape. -/
theorem escapedByte?_quote (keeps : KeepsEscapes plain)
    {char : Char} {rest : Text} (unescaped : escapedByte? (char :: rest) = none) :
    escapedByte? (char :: quote plain rest) = none := by
  by_cases percent : char = '%'
  · subst percent
    match rest with
    | [] => rfl
    | high :: rest =>
        cases first : hexValue? high with
        | none =>
            obtain ⟨start, more, shape, noDigit⟩ := quote_no_digit plain first rest
            rw [shape]
            cases more with
            | nil => rfl
            | cons next more => rw [escapedByte?_percent, hexByte?_of_first noDigit]
        | some value =>
            rw [quote_cons_of_plain (keeps.digits high (by simp [first]))]
            match rest with
            | [] => rfl
            | low :: rest =>
                cases second : hexValue? low with
                | none =>
                    obtain ⟨start, more, shape, noDigit⟩ := quote_no_digit plain second rest
                    rw [shape, escapedByte?_percent, hexByte?_of_second noDigit]
                | some other =>
                    rw [escapedByte?_percent, hexByte?, first, second] at unescaped
                    cases unescaped
  · exact escapedByte?_of_ne percent _

theorem unescape_quote (keeps : KeepsEscapes plain) (text : Text) :
    unescape (quote plain text) = unescape text := by
  induction text using escape_induction with
  | nil => rfl
  | escaped high low byte rest valid ih =>
      have both : hexValue? high ≠ none ∧ hexValue? low ≠ none := by
        constructor
        · intro noDigit
          rw [hexByte?_of_first noDigit] at valid
          cases valid
        · intro noDigit
          rw [hexByte?_of_second noDigit] at valid
          cases valid
      rw [quote_cons_of_plain keeps.percent, quote_cons_of_plain (keeps.digits high both.1),
        quote_cons_of_plain (keeps.digits low both.2), unescape_escaped valid,
        unescape_escaped valid, ih]
  | char char rest unescaped ih =>
      rw [unescape_char unescaped]
      cases kept : plain char with
      | true =>
          rw [quote_cons_of_plain kept, unescape_char (escapedByte?_quote keeps unescaped), ih]
      | false =>
          have other : char ≠ '+' := by
            intro same
            rw [same, keeps.plus] at kept
            cases kept
          rw [quote_cons_of_not_plain kept, escapeChar, unescape_escapes, ih, plusToSpace,
            if_neg other]

/-- Such quoting changes nothing for the reader. -/
theorem unquotePlus_quote (keeps : KeepsEscapes plain) (text : Text) :
    unquotePlus (quote plain text) = unquotePlus text := by
  rw [unquotePlus, unescape_quote keeps]
  rfl

/-- Reading undoes quoting that escapes percent and plus signs. -/
theorem unquotePlus_quotePlus (percent : plain '%' = false) (plus : plain '+' = false)
    (text : Text) : unquotePlus (quotePlus plain text) = text := by
  have bytes : unescape (quotePlus plain text) = Utf8.encode text := by
    induction text with
    | nil => rfl
    | cons char rest ih =>
        rw [quotePlus, List.flatMap_cons, Utf8.encode, List.flatMap_cons]
        by_cases space : char = ' '
        · rw [if_pos space, space, List.singleton_append,
            unescape_char (escapedByte?_of_ne (by decide) _)]
          exact congrArg _ ih
        · rw [if_neg space]
          cases kept : plain char with
          | true =>
              have other : char ≠ '%' ∧ char ≠ '+' := by
                constructor
                · intro same
                  rw [same, percent] at kept
                  cases kept
                · intro same
                  rw [same, plus] at kept
                  cases kept
              rw [if_pos rfl, List.singleton_append, unescape_char (escapedByte?_of_ne other.1 _),
                plusToSpace, if_neg other.2]
              exact congrArg _ ih
          | false =>
              rw [if_neg Bool.false_ne_true, escapeChar, unescape_escapes]
              exact congrArg _ ih
  rw [unquotePlus, bytes, Utf8.decode_encode]

theorem quote_of_plain (all : ∀ char ∈ text, plain char = true) : quote plain text = text := by
  induction text with
  | nil => rfl
  | cons char rest ih =>
      rw [List.forall_mem_cons] at all
      rw [quote_cons_of_plain all.1, ih all.2]

theorem mem_escapeChar {char digit : Char} (member : digit ∈ escapeChar char) :
    digit = '%' ∨ hexValue? digit ≠ none := by
  obtain ⟨byte, _, listed⟩ := List.mem_flatMap.mp member
  have size := byte.toNat_lt
  simp only [escape, List.mem_cons, List.not_mem_nil, or_false] at listed
  rcases listed with percent | high | low
  · exact .inl percent
  · refine .inr ?_
    rw [high, hexValue?_upperHexDigit (by omega)]
    exact Option.some_ne_none _
  · refine .inr ?_
    rw [low, hexValue?_upperHexDigit (by omega)]
    exact Option.some_ne_none _

/-- A written text is made of plain characters, percent signs and digits. -/
theorem mem_quote {char : Char} (member : char ∈ quote plain text) :
    plain char = true ∨ char = '%' ∨ hexValue? char ≠ none := by
  obtain ⟨source, _, listed⟩ := List.mem_flatMap.mp member
  split_ifs at listed with kept
  · exact .inl (List.mem_singleton.mp listed ▸ kept)
  · exact .inr (mem_escapeChar listed)

theorem mem_quotePlus {char : Char} (member : char ∈ quotePlus plain text) :
    char = '+' ∨ plain char = true ∨ char = '%' ∨ hexValue? char ≠ none := by
  obtain ⟨source, _, listed⟩ := List.mem_flatMap.mp member
  split_ifs at listed with space kept
  · exact .inl (List.mem_singleton.mp listed)
  · exact .inr (.inl (List.mem_singleton.mp listed ▸ kept))
  · exact .inr (.inr (mem_escapeChar listed))

theorem plain_of_mem_quote (keeps : KeepsEscapes plain) {char : Char}
    (member : char ∈ quote plain text) : plain char = true := by
  rcases mem_quote member with kept | same | digit
  · exact kept
  · exact same ▸ keeps.percent
  · exact keeps.digits char digit

/-- Quoting keeps the number of characters of a kind that is plain and not used in escapes. -/
theorem countP_quote {counted : Char → Bool} (isPlain : ∀ char, counted char → plain char)
    (percent : counted '%' = false) (digits : ∀ char, hexValue? char ≠ none → counted char = false)
    (text : Text) : (quote plain text).countP counted = text.countP counted := by
  induction text with
  | nil => rfl
  | cons char rest ih =>
      cases kept : plain char with
      | true => rw [quote_cons_of_plain kept, List.countP_cons, List.countP_cons, ih]
      | false =>
          have escapes : (escapeChar char).countP counted = 0 := by
            rw [List.countP_eq_zero]
            intro digit member
            rw [Bool.not_eq_true]
            rcases mem_escapeChar member with same | value
            · exact same ▸ percent
            · exact digits digit value
          have other : ¬ counted char = true := by
            intro counts
            rw [isPlain char counts] at kept
            cases kept
          rw [quote_cons_of_not_plain kept, List.countP_append, escapes,
            List.countP_cons_of_neg other, Nat.zero_add, ih]

theorem quote_append (front back : Text) :
    quote plain (front ++ back) = quote plain front ++ quote plain back :=
  List.flatMap_append

theorem quote_eq_nil_iff : quote plain text = [] ↔ text = [] := by
  cases text with
  | nil => exact ⟨fun _ => rfl, fun _ => rfl⟩
  | cons char rest =>
      refine ⟨fun empty => ?_, fun empty => by cases empty⟩
      cases kept : plain char with
      | true =>
          rw [quote_cons_of_plain kept] at empty
          cases empty
      | false =>
          obtain ⟨digits, shape⟩ := escapeChar_eq_cons char
          rw [quote_cons_of_not_plain kept, shape] at empty
          cases empty

/-- Quoting and cutting a text at the first character of a kind can change places, if the kind
does not tell what is escaped from its escape. -/
theorem span_quote {keep : Char → Bool}
    (escaped : ∀ char, plain char = false → keep char = keep '%')
    (digits : keep '%' = true → ∀ char, hexValue? char ≠ none → keep char = true)
    (text : Text) :
    (quote plain text).takeWhile keep = quote plain (text.takeWhile keep) ∧
      (quote plain text).dropWhile keep = quote plain (text.dropWhile keep) := by
  induction text with
  | nil => exact ⟨rfl, rfl⟩
  | cons char rest ih =>
      cases kept : plain char with
      | true =>
          rw [quote_cons_of_plain kept, List.takeWhile_cons, List.dropWhile_cons,
            List.takeWhile_cons, List.dropWhile_cons]
          split_ifs
          · rw [quote_cons_of_plain kept]
            exact ⟨congrArg _ ih.1, ih.2⟩
          · rw [quote_cons_of_plain kept]
            exact ⟨rfl, rfl⟩
      | false =>
          have first := escaped char kept
          rw [quote_cons_of_not_plain kept]
          cases passes : keep '%' with
          | true =>
              have all : ∀ digit ∈ escapeChar char, keep digit = true := by
                intro digit member
                rcases mem_escapeChar member with same | value
                · exact same ▸ passes
                · exact digits passes digit value
              rw [List.takeWhile_append_of_pos all, List.dropWhile_append_of_pos all,
                List.takeWhile_cons_of_pos (first.trans passes),
                List.dropWhile_cons_of_pos (first.trans passes), quote_cons_of_not_plain kept]
              exact ⟨congrArg _ ih.1, ih.2⟩
          | false =>
              have stops : ¬ keep '%' = true := Bool.not_eq_true _ ▸ passes
              have stopsHere : ¬ keep char = true := first ▸ stops
              obtain ⟨more, shape⟩ := escapeChar_eq_cons char
              rw [List.takeWhile_cons_of_neg stopsHere, List.dropWhile_cons_of_neg stopsHere,
                quote_cons_of_not_plain kept, shape, List.cons_append,
                List.takeWhile_cons_of_neg stops, List.dropWhile_cons_of_neg stops]
              exact ⟨rfl, rfl⟩

end Quote

/-- Searching for a character goes on after what does not contain it. -/
theorem span_ne_append {mark : Char} {front : Text} (free : mark ∉ front) (back : Text) :
    (front ++ back).takeWhile (· ≠ mark) = front ++ back.takeWhile (· ≠ mark) ∧
      (front ++ back).dropWhile (· ≠ mark) = back.dropWhile (· ≠ mark) := by
  have passes : ∀ char ∈ front, decide (char ≠ mark) = true := by
    intro char member
    rw [decide_eq_true_iff]
    intro same
    exact free (same ▸ member)
  exact ⟨List.takeWhile_append_of_pos passes, List.dropWhile_append_of_pos passes⟩

/-! ## Cutting a text

A character that belongs to no escape is a place where a text can be cut: both sides are read
on their own. -/

/-- The character is no percent sign, no digit and no plus sign. -/
def Cuts (char : Char) : Prop := hexValue? char = none ∧ char ≠ '%' ∧ char ≠ '+'

section Cutting

variable {cut : Char} (cuts : Cuts cut)
include cuts

theorem escapedByte?_append_cut {char : Char} {rest : Text}
    (unescaped : escapedByte? (char :: rest) = none) (after : Text) :
    escapedByte? (char :: (rest ++ cut :: after)) = none := by
  by_cases percent : char = '%'
  · subst percent
    match rest with
    | [] =>
        cases after with
        | nil => rfl
        | cons low after =>
            rw [List.nil_append, escapedByte?_percent, hexByte?_of_first cuts.1]
    | [high] =>
        rw [List.singleton_append, escapedByte?_percent, hexByte?_of_second cuts.1]
    | high :: low :: rest =>
        rw [escapedByte?_percent] at unescaped
        rw [List.cons_append, List.cons_append, escapedByte?_percent, unescaped]
  · exact escapedByte?_of_ne percent _

theorem unescape_append_cut (before after : Text) :
    unescape (before ++ cut :: after) =
      unescape before ++ String.utf8EncodeChar cut ++ unescape after := by
  induction before using escape_induction with
  | nil =>
      rw [List.nil_append, unescape_char (escapedByte?_of_ne cuts.2.1 _), plusToSpace,
        if_neg cuts.2.2]
      rfl
  | escaped high low byte rest valid ih =>
      rw [List.cons_append, List.cons_append, List.cons_append, unescape_escaped valid,
        unescape_escaped valid, ih]
      rfl
  | char char rest unescaped ih =>
      rw [List.cons_append, unescape_char unescaped,
        unescape_char (escapedByte?_append_cut cuts unescaped after), ih]
      simp only [List.append_assoc]

theorem unquotePlus_append_cut (before after : Text) :
    unquotePlus (before ++ cut :: after) = unquotePlus before ++ cut :: unquotePlus after := by
  rw [unquotePlus, unescape_append_cut cuts, Utf8.decode_append_encodeChar]
  rfl

theorem iterate_unquotePlus_append_cut (times : Nat) (before after : Text) :
    unquotePlus^[times] (before ++ cut :: after) =
      unquotePlus^[times] before ++ cut :: unquotePlus^[times] after := by
  induction times generalizing before after with
  | zero => rfl
  | succ times ih =>
      rw [Function.iterate_succ_apply, unquotePlus_append_cut cuts, ih]
      rfl

theorem not_mem_quotePlus {plain : Char → Bool} (escaped : plain cut = false) (text : Text) :
    cut ∉ quotePlus plain text := by
  intro member
  rcases mem_quotePlus member with plus | kept | percent | digit
  · exact cuts.2.2 plus
  · rw [escaped] at kept
    cases kept
  · exact cuts.2.1 percent
  · exact digit cuts.1

end Cutting

/-- A part of a text that is cut out of it. -/
inductive Part (part : Text) : Text → Prop where
  | whole : Part part part
  | before {cut : Char} (cuts : Cuts cut) {text : Text} (inside : Part part text) (after : Text) :
      Part part (text ++ cut :: after)
  | after {cut : Char} (cuts : Cuts cut) (before : Text) {text : Text} (inside : Part part text) :
      Part part (before ++ cut :: text)

/-- However often both are read, a part holds no more characters of a kind than the text. -/
theorem Part.countP_le {part text : Text} (cutOut : Part part text) (counted : Char → Bool)
    (times : Nat) :
    (unquotePlus^[times] part).countP counted ≤ (unquotePlus^[times] text).countP counted := by
  induction cutOut with
  | whole => exact Nat.le_refl _
  | before cuts inside after ih =>
      rw [iterate_unquotePlus_append_cut cuts, List.countP_append]
      omega
  | after cuts before inside ih =>
      rw [iterate_unquotePlus_append_cut cuts, List.countP_append, List.countP_cons]
      omega

/-! ## What reading leaves unchanged -/

theorem unquotePlus_eq_nil_iff {text : Text} : unquotePlus text = [] ↔ text = [] := by
  rw [unquotePlus, Utf8.decode_eq_nil_iff]
  constructor
  · intro empty
    induction text using escape_induction with
    | nil => rfl
    | escaped high low byte rest valid ih =>
        rw [unescape_escaped valid] at empty
        cases empty
    | char char rest unescaped ih =>
        rw [unescape_char unescaped] at empty
        exact absurd (List.append_eq_nil_iff.mp empty).1 String.utf8EncodeChar_ne_nil
  · intro empty
    rw [empty]
    rfl

theorem hasEscape_cons {char : Char} {rest : Text}
    (unescaped : escapedByte? (char :: rest) = none) (escape : HasEscape (char :: rest)) :
    HasEscape rest := by
  obtain ⟨front, back, byte, shape, found⟩ := escape
  cases front with
  | nil =>
      rw [List.nil_append] at shape
      rw [← shape, unescaped] at found
      cases found
  | cons first front => exact ⟨front, back, byte, (List.cons.inj shape).2, found⟩

/-- Reading makes a text no longer, and an escape makes it shorter. -/
theorem length_decode_append_unescape (pending : Bytes) (text : Text) :
    (Utf8.decode (pending ++ unescape text)).length ≤ pending.length + text.length ∧
      (HasEscape text →
        (Utf8.decode (pending ++ unescape text)).length < pending.length + text.length) := by
  induction text using escape_induction generalizing pending with
  | nil =>
      refine ⟨?_, ?_⟩
      · rw [unescape, unescapeAfter, List.append_nil]
        exact Utf8.length_decode pending
      · rintro ⟨front, back, byte, shape, found⟩
        rw [(List.append_eq_nil_iff.mp shape.symm).2] at found
        cases found
  | escaped high low byte rest valid ih =>
      have bound := (ih (pending ++ [byte])).1
      rw [List.append_assoc, List.singleton_append, List.length_append] at bound
      rw [unescape_escaped valid]
      simp only [List.length_cons, List.length_nil] at bound ⊢
      exact ⟨by omega, fun _ => by omega⟩
  | char char rest unescaped ih =>
      have before := Utf8.length_decode pending
      have later := ih []
      rw [List.nil_append, List.length_nil, Nat.zero_add] at later
      rw [unescape_char unescaped, ← List.append_assoc, Utf8.decode_append_encodeChar,
        List.length_append, List.length_cons, List.length_cons]
      refine ⟨by omega, fun escape => ?_⟩
      have shorter := later.2 (hasEscape_cons unescaped escape)
      omega

theorem length_unquotePlus (text : Text) : (unquotePlus text).length ≤ text.length := by
  have bound := (length_decode_append_unescape [] text).1
  rwa [List.nil_append, List.length_nil, Nat.zero_add] at bound

theorem length_iterate_unquotePlus (times : Nat) (text : Text) :
    (unquotePlus^[times] text).length ≤ text.length := by
  induction times with
  | zero => exact Nat.le_refl _
  | succ times ih =>
      rw [Function.iterate_succ_apply']
      exact (length_unquotePlus _).trans ih

theorem unquotePlus_of_not_hasEscape {text : Text} (plain : ¬ HasEscape text) :
    unquotePlus text = text.map plusToSpace := by
  induction text using escape_induction with
  | nil => rfl
  | escaped high low byte rest valid ih =>
      exact absurd ⟨[], _, byte, rfl, (escapedByte?_percent high low rest).trans valid⟩ plain
  | char char rest unescaped ih =>
      have restPlain : ¬ HasEscape rest := by
        rintro ⟨front, back, byte, shape, found⟩
        exact plain ⟨char :: front, back, byte, by rw [shape, List.cons_append], found⟩
      have first := Utf8.decode_append_encodeChar [] (plusToSpace char) (unescape rest)
      rw [List.nil_append] at first
      rw [unquotePlus, unescape_char unescaped, first, List.map_cons, ← ih restPlain]
      rfl

/-- Reading changes nothing exactly if there is no escape and no plus sign. -/
theorem unquotePlus_eq_self_iff {text : Text} :
    unquotePlus text = text ↔ ¬ HasEscape text ∧ '+' ∉ text := by
  constructor
  · intro same
    have plain : ¬ HasEscape text := by
      intro escape
      have shorter := (length_decode_append_unescape [] text).2 escape
      have lengths := congrArg List.length same
      rw [unquotePlus] at lengths
      rw [List.nil_append, List.length_nil, Nat.zero_add] at shorter
      omega
    refine ⟨plain, fun member => ?_⟩
    rw [unquotePlus_of_not_hasEscape plain] at same
    have kept := List.map_inj_left.mp (same.trans (List.map_id text).symm)
    exact absurd (kept '+' member) (by decide)
  · rintro ⟨plain, noPlus⟩
    rw [unquotePlus_of_not_hasEscape plain]
    have kept : ∀ char ∈ text, plusToSpace char = id char := by
      intro char member
      refine if_neg fun same => ?_
      exact noPlus (same ▸ member)
    exact (List.map_congr_left kept).trans (List.map_id text)

/-- A part of a text that always holds fewer characters of a kind, however often both are read,
is not written out as the text. -/
theorem unquotePlus_part_ne {part whole : Text} (counted : Char → Bool)
    (fewer : ∀ times, (unquotePlus^[times] part).countP counted <
      (unquotePlus^[times] whole).countP counted) :
    unquotePlus (unquotePlus part) ≠ unquotePlus whole := by
  intro same
  have many : ∀ times, times ≤ (unquotePlus^[times + 1] part).countP counted := by
    intro times
    induction times with
    | zero => exact Nat.zero_le _
    | succ times ih =>
        have more := fewer (times + 1)
        have again : unquotePlus^[times + 2] part = unquotePlus^[times + 1] whole := by
          rw [Function.iterate_succ_apply, Function.iterate_succ_apply, same,
            Function.iterate_succ_apply]
        rw [again]
        omega
  have bound := length_iterate_unquotePlus (part.length + 1 + 1) part
  have counts := many (part.length + 1)
  have within := List.countP_le_length (p := counted) (l := unquotePlus^[part.length + 1 + 1] part)
  omega

end Doorito.Foundation.Percent
