import Doorito.Foundation.Bytes

/-! UTF-8 decoding that replaces what it cannot decode. The decoder takes one byte at a time;
a character that is cut short becomes one replacement character, and the byte that cut it short
is read afresh. -/

set_option autoImplicit false

namespace Doorito.Foundation

abbrev Text := List Char

namespace Utf8

def replacement : Char := Char.ofNat 0xFFFD

/-- A character whose last bytes are missing: how many come after the next one, the number that
its bytes make up so far, and the bounds of the next byte. -/
structure Pending where
  more : Nat
  value : Nat
  low : Nat
  high : Nat
  low_ge : 0x80 ≤ low
  high_le : high ≤ 0xBF

/-- A lead byte whose next byte is any continuation byte. -/
def Pending.plain (more value : Nat) : Pending := ⟨more, value, 0x80, 0xBF, by decide, by decide⟩

/-- A byte between two characters. Some lead bytes restrict the next byte, so that no character
has two encodings and no surrogate has one. -/
def first (byte : Nat) : Text × Option Pending :=
  if byte ≤ 0x7F then ([Char.ofNat byte], none)
  else if 0xC2 ≤ byte ∧ byte ≤ 0xDF then ([], some (.plain 0 (byte - 0xC0)))
  else if byte = 0xE0 then ([], some ⟨1, 0, 0xA0, 0xBF, by decide, by decide⟩)
  else if byte = 0xED then ([], some ⟨1, 0xD, 0x80, 0x9F, by decide, by decide⟩)
  else if 0xE1 ≤ byte ∧ byte ≤ 0xEF then ([], some (.plain 1 (byte - 0xE0)))
  else if byte = 0xF0 then ([], some ⟨2, 0, 0x90, 0xBF, by decide, by decide⟩)
  else if byte = 0xF4 then ([], some ⟨2, 4, 0x80, 0x8F, by decide, by decide⟩)
  else if 0xF1 ≤ byte ∧ byte ≤ 0xF3 then ([], some (.plain 2 (byte - 0xF0)))
  else ([replacement], none)

/-- A byte within a character. -/
def next (pending : Pending) (byte : Nat) : Text × Option Pending :=
  if pending.low ≤ byte ∧ byte ≤ pending.high then
    let value := pending.value * 64 + (byte - 0x80)
    match pending.more with
    | 0 => ([Char.ofNat value], none)
    | more + 1 => ([], some (.plain more value))
  else (replacement :: (first byte).1, (first byte).2)

def step : Option Pending → Nat → Text × Option Pending
  | none, byte => first byte
  | some pending, byte => next pending byte

/-- What the end of the input leaves of a character. -/
def flush : Option Pending → Text
  | none => []
  | some _ => [replacement]

def decodeFrom : Option Pending → Bytes → Text
  | state, [] => flush state
  | state, byte :: rest => (step state byte.toNat).1 ++ decodeFrom (step state byte.toNat).2 rest

def decode (bytes : Bytes) : Text := decodeFrom none bytes

def encode (text : Text) : Bytes := text.flatMap String.utf8EncodeChar

/-! ## Lengths -/

theorem length_first (byte : Nat) :
    (first byte).1.length + (flush (first byte).2).length = 1 := by
  unfold first
  split_ifs <;> rfl

/-- A byte adds at most one character. -/
theorem length_step (state : Option Pending) (byte : Nat) :
    (step state byte).1.length + (flush (step state byte).2).length ≤ 1 + (flush state).length := by
  cases state with
  | none => exact (length_first byte).le
  | some pending =>
      have fresh := length_first byte
      simp only [step, next]
      split_ifs
      · cases pending.more <;> simp [flush]
      · have replaced : (flush (some pending)).length = 1 := rfl
        dsimp only
        rw [List.length_cons, replaced]
        omega

theorem length_decodeFrom (state : Option Pending) (bytes : Bytes) :
    (decodeFrom state bytes).length ≤ bytes.length + (flush state).length := by
  induction bytes generalizing state with
  | nil => simp [decodeFrom]
  | cons byte rest ih =>
      have bound := length_step state byte.toNat
      have later := ih (step state byte.toNat).2
      rw [decodeFrom, List.length_append, List.length_cons]
      omega

theorem length_decode (bytes : Bytes) : (decode bytes).length ≤ bytes.length :=
  length_decodeFrom none bytes

theorem decodeFrom_ne_nil {state : Option Pending} {bytes : Bytes}
    (given : flush state ≠ [] ∨ bytes ≠ []) : decodeFrom state bytes ≠ [] := by
  induction bytes generalizing state with
  | nil => exact given.resolve_right fun absent => absent rfl
  | cons byte rest ih =>
      rw [decodeFrom]
      intro empty
      obtain ⟨none, later⟩ := List.append_eq_nil_iff.mp empty
      have pendingNext : flush (step state byte.toNat).2 ≠ [] := by
        intro flushed
        cases state with
        | none =>
            have fresh := length_first byte.toNat
            rw [step] at none flushed
            rw [none, flushed] at fresh
            cases fresh
        | some pending =>
            simp only [step, next] at none flushed
            split_ifs at none flushed
            cases more : pending.more <;> simp [more, flush] at none flushed
      exact ih (.inl pendingNext) later

theorem decode_eq_nil_iff {bytes : Bytes} : decode bytes = [] ↔ bytes = [] := by
  constructor
  · intro empty
    by_contra given
    exact decodeFrom_ne_nil (.inr given) empty
  · intro empty
    rw [empty]
    rfl

/-! ## Encoded characters -/

theorem step_of_lead {byte : Nat} (lead : byte ≤ 0x7F ∨ 0xC0 ≤ byte) (state : Option Pending) :
    step state byte = (flush state ++ (first byte).1, (first byte).2) := by
  cases state with
  | none => rfl
  | some pending =>
      have low := pending.low_ge
      have high := pending.high_le
      rw [step, next, if_neg (by omega)]
      rfl

theorem next_last {pending : Pending} {byte : Nat} (last : pending.more = 0)
    (within : pending.low ≤ byte ∧ byte ≤ pending.high) :
    next pending byte = ([Char.ofNat (pending.value * 64 + (byte - 0x80))], none) := by
  simp only [next, if_pos within, last]

theorem next_more {pending : Pending} {byte more : Nat} (left : pending.more = more + 1)
    (within : pending.low ≤ byte ∧ byte ≤ pending.high) :
    next pending byte = ([], some (.plain more (pending.value * 64 + (byte - 0x80)))) := by
  simp only [next, if_pos within, left]

/-- The lead byte of three bytes: the second byte of every character is within its bounds. -/
theorem first_of_three (lead second : Nat) (small : lead < 16) (byte : second < 64)
    (long : lead = 0 → 32 ≤ second) (noSurrogate : lead = 13 → second < 32) :
    ∃ pending, first (lead + 224) = ([], some pending) ∧ pending.more = 1 ∧
      pending.value = lead ∧ pending.low ≤ second + 128 ∧ second + 128 ≤ pending.high := by
  rw [first, if_neg (by omega), if_neg (by omega)]
  by_cases zero : lead = 0
  · rw [if_pos (by omega)]
    have bound := long zero
    exact ⟨_, rfl, rfl, zero.symm, by dsimp only; omega⟩
  · by_cases surrogates : lead = 13
    · rw [if_neg (by omega), if_pos (by omega)]
      have bound := noSurrogate surrogates
      exact ⟨_, rfl, rfl, surrogates.symm, by dsimp only; omega⟩
    · rw [if_neg (by omega), if_neg (by omega), if_pos (by omega)]
      exact ⟨_, rfl, rfl, Nat.add_sub_cancel .., by dsimp only [Pending.plain]; omega⟩

theorem first_of_four (lead second : Nat) (small : lead ≤ 4) (byte : second < 64)
    (long : lead = 0 → 16 ≤ second) (within : lead = 4 → second < 16) :
    ∃ pending, first (lead + 240) = ([], some pending) ∧ pending.more = 2 ∧
      pending.value = lead ∧ pending.low ≤ second + 128 ∧ second + 128 ≤ pending.high := by
  rw [first, if_neg (by omega), if_neg (by omega), if_neg (by omega), if_neg (by omega),
    if_neg (by omega)]
  by_cases zero : lead = 0
  · rw [if_pos (by omega)]
    have bound := long zero
    exact ⟨_, rfl, rfl, zero.symm, by dsimp only; omega⟩
  · by_cases four : lead = 4
    · rw [if_neg (by omega), if_pos (by omega)]
      have bound := within four
      exact ⟨_, rfl, rfl, four.symm, by dsimp only; omega⟩
    · rw [if_neg (by omega), if_neg (by omega), if_pos (by omega)]
      exact ⟨_, rfl, rfl, Nat.add_sub_cancel .., by dsimp only [Pending.plain]; omega⟩

theorem decodeFrom_lead {byte : Nat} (fits : byte < 256) (lead : byte ≤ 0x7F ∨ 0xC0 ≤ byte)
    (state : Option Pending) (rest : Bytes) :
    decodeFrom state (UInt8.ofNat byte :: rest) =
      flush state ++ ((first byte).1 ++ decodeFrom (first byte).2 rest) := by
  have value : (UInt8.ofNat byte).toNat = byte := by
    rw [UInt8.toNat_ofNat', Nat.mod_eq_of_lt fits]
  rw [decodeFrom, value, step_of_lead lead, List.append_assoc]

section Tail

variable {pending : Pending} {tail more : Nat} (small : tail < 64)
include small

theorem plain_admits (more value : Nat) :
    (Pending.plain more value).low ≤ tail + 128 ∧ tail + 128 ≤ (Pending.plain more value).high := by
  dsimp only [Pending.plain]
  omega

theorem decodeFrom_last (last : pending.more = 0)
    (within : pending.low ≤ tail + 128 ∧ tail + 128 ≤ pending.high) (rest : Bytes) :
    decodeFrom (some pending) (UInt8.ofNat (tail + 128) :: rest) =
      Char.ofNat (pending.value * 64 + tail) :: decodeFrom none rest := by
  have value : (UInt8.ofNat (tail + 128)).toNat = tail + 128 := by
    rw [UInt8.toNat_ofNat', Nat.mod_eq_of_lt (by omega)]
  rw [decodeFrom, value, step, next_last last within, Nat.add_sub_cancel]
  rfl

theorem decodeFrom_more (left : pending.more = more + 1)
    (within : pending.low ≤ tail + 128 ∧ tail + 128 ≤ pending.high) (rest : Bytes) :
    decodeFrom (some pending) (UInt8.ofNat (tail + 128) :: rest) =
      decodeFrom (some (.plain more (pending.value * 64 + tail))) rest := by
  have value : (UInt8.ofNat (tail + 128)).toNat = tail + 128 := by
    rw [UInt8.toNat_ofNat', Nat.mod_eq_of_lt (by omega)]
  rw [decodeFrom, value, step, next_more left within, Nat.add_sub_cancel]
  rfl

end Tail

/-- The bytes of a character give the character, whatever is pending before them. -/
theorem decodeFrom_encodeChar (state : Option Pending) (char : Char) (rest : Bytes) :
    decodeFrom state (String.utf8EncodeChar char ++ rest) =
      flush state ++ char :: decodeFrom none rest := by
  have valid : char.toNat < 0xD800 ∨ 0xDFFF < char.toNat ∧ char.toNat < 0x110000 := char.valid
  have back : Char.ofNat char.toNat = char := Char.ofNat_toNat char
  have code : char.val.toNat = char.toNat := rfl
  generalize char.toNat = number at valid back code
  simp only [String.utf8EncodeChar, code]
  split_ifs with one two three
  · rw [List.singleton_append, decodeFrom_lead (by omega) (.inl one), first, if_pos one, back]
    rfl
  · rw [List.cons_append, List.singleton_append, decodeFrom_lead (by omega) (.inr (by omega)),
      first, if_neg (by omega), if_pos (by omega)]
    dsimp only
    rw [decodeFrom_last (by omega) rfl (plain_admits (by omega) _ _)]
    have whole : (number / 64 % 32 + 192 - 192) * 64 + number % 64 = number := by omega
    rw [Pending.plain, whole, back, List.nil_append]
  · obtain ⟨pending, lead, more, value, within⟩ :=
      first_of_three (number / 4096 % 16) (number / 64 % 64) (by omega) (by omega) (by omega)
        (by omega)
    simp only [List.cons_append, List.nil_append]
    rw [decodeFrom_lead (by omega) (.inr (by omega)), lead]
    dsimp only
    rw [decodeFrom_more (by omega) more within,
      decodeFrom_last (by omega) rfl (plain_admits (by omega) _ _)]
    have whole : (number / 4096 % 16 * 64 + number / 64 % 64) * 64 + number % 64 = number := by
      omega
    rw [Pending.plain, value, whole, back, List.nil_append]
  · obtain ⟨pending, lead, more, value, within⟩ :=
      first_of_four (number / 262144 % 8) (number / 4096 % 64) (by omega) (by omega) (by omega)
        (by omega)
    simp only [List.cons_append, List.nil_append]
    rw [decodeFrom_lead (by omega) (.inr (by omega)), lead]
    dsimp only
    rw [decodeFrom_more (by omega) more within,
      decodeFrom_more (by omega) rfl (plain_admits (by omega) _ _),
      decodeFrom_last (by omega) rfl (plain_admits (by omega) _ _)]
    have whole : ((number / 262144 % 8 * 64 + number / 4096 % 64) * 64 + number / 64 % 64) * 64 +
        number % 64 = number := by
      omega
    simp only [Pending.plain, value, whole, back, List.nil_append]

/-- Whatever comes before a character does not change what comes from there on. -/
theorem decode_append_encodeChar (before : Bytes) (char : Char) (after : Bytes) :
    decode (before ++ String.utf8EncodeChar char ++ after) =
      decode before ++ char :: decode after := by
  have general : ∀ state, decodeFrom state (before ++ (String.utf8EncodeChar char ++ after)) =
      decodeFrom state before ++ char :: decodeFrom none after := by
    induction before with
    | nil => exact fun state => decodeFrom_encodeChar state char after
    | cons byte rest ih =>
        intro state
        rw [List.cons_append, decodeFrom, decodeFrom, ih, List.append_assoc]
  rw [List.append_assoc]
  exact general none

theorem decode_encode (text : Text) : decode (encode text) = text := by
  induction text with
  | nil => rfl
  | cons char rest ih =>
      have first := decode_append_encodeChar [] char (encode rest)
      rw [List.nil_append, ih] at first
      exact first

/-! ## Strings -/

theorem toList_loop (bytes : ByteArray) (start : Nat) (before : Bytes) :
    ByteArray.toList.loop bytes start before = before.reverse ++ bytes.data.toList.drop start := by
  induction start, before using ByteArray.toList.loop.induct bytes with
  | case1 start before within ih =>
      have bound : start < bytes.data.toList.length := within
      have inside : start < bytes.data.size := within
      rw [ByteArray.toList.loop, if_pos within, ih, List.drop_eq_getElem_cons bound,
        List.reverse_cons, List.append_assoc, List.singleton_append]
      congr
      change bytes.data[start]! = _
      rw [getElem!_pos bytes.data start inside, Array.getElem_toList]
  | case2 start before outside =>
      have ends : bytes.data.toList.length ≤ start := Nat.le_of_not_lt outside
      rw [ByteArray.toList.loop, if_neg outside, List.drop_of_length_le ends, List.append_nil]

/-- The bytes of a string are those of its characters. -/
theorem toList_toUTF8 (text : Text) : (String.ofList text).toUTF8.toList = encode text := by
  rw [ByteArray.toList, toList_loop]
  simp [encode, List.utf8Encode]

end Utf8

end Doorito.Foundation
