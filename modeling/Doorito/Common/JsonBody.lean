import Doorito.Common.Models
import Doorito.Foundation.Decimal
import Doorito.Foundation.JsonString

/-! The text of a JSON value as `json.dumps` writes it, and a reader of such texts. What is
written of a value without fractions is read back as that value. -/

set_option autoImplicit false

namespace Doorito.Common

open Foundation

namespace Json

/-! ## Writing -/

def integer (value : Int) : Text :=
  if value < 0 then '-' :: Decimal.digits value.natAbs else Decimal.digits value.natAbs

mutual

/-- `json.dumps` with its defaults. The text of a number with a fraction is given. -/
def dumps (floatRepr : Int → Nat → Text) : Json → Text
  | .null => "null".toList
  | .bool true => "true".toList
  | .bool false => "false".toList
  | .number mantissa 0 => integer mantissa
  | .number mantissa (exponent + 1) => floatRepr mantissa (exponent + 1)
  | .string value => JsonString.quote value.toList
  | .array items => '[' :: dumpsItems floatRepr items
  | .object members => '{' :: dumpsMembers floatRepr members

/-- The items and the bracket that closes them. -/
def dumpsItems (floatRepr : Int → Nat → Text) : List Json → Text
  | [] => [']']
  | [item] => dumps floatRepr item ++ [']']
  | item :: next :: rest =>
      dumps floatRepr item ++ ',' :: ' ' :: dumpsItems floatRepr (next :: rest)

def dumpsMembers (floatRepr : Int → Nat → Text) : List (String × Json) → Text
  | [] => ['}']
  | [(name, value)] =>
      JsonString.quote name.toList ++ ':' :: ' ' :: (dumps floatRepr value ++ ['}'])
  | (name, value) :: next :: rest =>
      JsonString.quote name.toList ++ ':' :: ' ' :: (dumps floatRepr value ++
        ',' :: ' ' :: dumpsMembers floatRepr (next :: rest))

end

/-! ## Reading -/

def isSpace (char : Char) : Bool := char = ' ' || char = '\n' || char = '\r' || char = '\t'

def skipSpace (text : Text) : Text := text.dropWhile isSpace

def readWord (word : Text) (value : Json) (text : Text) : Option (Json × Text) :=
  if word.isPrefixOf text then some (value, text.drop word.length) else none

/-- The digits of a number with this sign. -/
def readMagnitude (sign : Int) (text : Text) : Option (Json × Text) :=
  (Decimal.readNat text).bind fun (whole, rest) =>
    match rest with
    | '.' :: rest =>
        let places := (rest.takeWhile Char.isDigit).length
        (Decimal.readNat rest).map fun (fraction, rest) =>
          (.number (sign * (whole * 10 ^ places + fraction)) places, rest)
    | _ => some (.number (sign * whole) 0, rest)

/-- A number without an exponent, which is not written here. -/
def readNumber : Text → Option (Json × Text)
  | '-' :: rest => readMagnitude (-1) rest
  | text => readMagnitude 1 text

def readString (text : Text) : Option (String × Text) :=
  match skipSpace text with
  | '"' :: rest =>
      (JsonString.readQuoted (rest.length + 1) rest).map fun (chars, rest) =>
        (String.ofList chars, rest)
  | _ => none

/-- What follows an item: a comma and more items, or the bracket that closes the list. -/
def readMore {Item : Type} (bracket : Char) (item : Item)
    (more : Text → Option (List Item × Text)) (text : Text) : Option (List Item × Text) :=
  match skipSpace text with
  | [] => none
  | first :: rest =>
      if first = ',' then (more rest).map fun (items, rest) => (item :: items, rest)
      else if first = bracket then some ([item], rest)
      else none

/-- The items of a list that has been opened, unless it is closed at once. -/
def readList {Item : Type} (bracket : Char) (items : Text → Option (List Item × Text))
    (text : Text) : Option (List Item × Text) :=
  if (skipSpace text).head? = some bracket then some ([], (skipSpace text).tail) else items text

mutual

/-- A value at the beginning of the text, and what follows it. No value is nested deeper than
the rounds. -/
def readValue : Nat → Text → Option (Json × Text)
  | 0, _ => none
  | rounds + 1, text =>
      match skipSpace text with
      | [] => none
      | first :: rest =>
          if first = '"' then
            (readString (first :: rest)).map fun (value, rest) => (.string value, rest)
          else if first = '[' then
            (readList ']' (fun text => readItems rounds text) rest).map fun (items, rest) =>
              (.array items, rest)
          else if first = '{' then
            (readList '}' (fun text => readMembers rounds text) rest).map fun (members, rest) =>
              (.object members, rest)
          else if first = 'n' then readWord "ull".toList .null rest
          else if first = 't' then readWord "rue".toList (.bool true) rest
          else if first = 'f' then readWord "alse".toList (.bool false) rest
          else readNumber (first :: rest)

def readItems : Nat → Text → Option (List Json × Text)
  | 0, _ => none
  | rounds + 1, text =>
      (readValue rounds text).bind fun (item, rest) =>
        readMore ']' item (fun text => readItems rounds text) rest

def readMembers : Nat → Text → Option (List (String × Json) × Text)
  | 0, _ => none
  | rounds + 1, text =>
      (readString text).bind fun (name, rest) =>
        if (skipSpace rest).head? = some ':' then
          (readValue rounds (skipSpace rest).tail).bind fun (value, rest) =>
            readMore '}' (name, value) (fun text => readMembers rounds text) rest
        else none

end

/-- The value of a text that holds nothing else. -/
def read (text : Text) : Option Json :=
  match readValue (text.length + 1) text with
  | none => none
  | some (value, rest) => if skipSpace rest = [] then some value else none

/-- All numbers in the value are whole. -/
inductive Integral : Json → Prop where
  | null : Integral .null
  | bool (value : Bool) : Integral (.bool value)
  | number (mantissa : Int) : Integral (.number mantissa 0)
  | string (value : String) : Integral (.string value)
  | array {items : List Json} (all : ∀ item ∈ items, Integral item) : Integral (.array items)
  | object {members : List (String × Json)} (all : ∀ member ∈ members, Integral member.2) :
      Integral (.object members)

/-! ## What is written is read -/

/-- What follows goes on with no digit and no point. -/
def Closes (rest : Text) : Prop := ∀ char ∈ rest.head?, char.isDigit = false ∧ char ≠ '.'

/-- The value is read back in as many rounds as its text has characters. -/
def ReadsBack (floatRepr : Int → Nat → Text) (json : Json) : Prop :=
  ∀ rounds rest, (dumps floatRepr json).length ≤ rounds → Closes rest →
    readValue rounds (dumps floatRepr json ++ rest) = some (json, rest)

section RoundTrip

variable {floatRepr : Int → Nat → Text} {json : Json} {first : Char} {rest : Text}

theorem closes_cons (noDigit : first.isDigit = false) (noPoint : first ≠ '.') :
    Closes (first :: rest) := by
  intro char same
  cases same
  exact ⟨noDigit, noPoint⟩

theorem Closes.endsNumber (closes : Closes rest) : Decimal.EndsNumber rest :=
  fun char same => (closes char same).1

theorem skipSpace_cons (visible : isSpace first = false) :
    skipSpace (first :: rest) = first :: rest := by
  simp [skipSpace, visible]

theorem skipSpace_space : skipSpace (' ' :: rest) = skipSpace rest := by
  simp [skipSpace, isSpace]

theorem ne_of_isDigit {mark : Char} (digit : first.isDigit = true)
    (other : mark.isDigit = false) : first ≠ mark := by
  rintro rfl
  rw [other] at digit
  cases digit

theorem not_isSpace_of_isDigit (digit : first.isDigit = true) : isSpace first = false := by
  simp [isSpace, ne_of_isDigit digit]

theorem digits_eq_cons (value : Nat) :
    ∃ first more, Decimal.digits value = first :: more ∧ first.isDigit = true := by
  cases written : Decimal.digits value with
  | nil => exact absurd written Decimal.digits_ne_nil
  | cons first more =>
      have member : first ∈ Decimal.digits value := written ▸ List.mem_cons_self
      exact ⟨first, more, rfl, Decimal.isDigit_of_mem_digits member⟩

theorem readMagnitude_digits (sign : Int) (value : Nat) (closes : Closes rest) :
    readMagnitude sign (Decimal.digits value ++ rest) = some (.number (sign * value) 0, rest) := by
  rw [readMagnitude, Decimal.readNat_digits closes.endsNumber, Option.bind_some]
  cases rest with
  | nil => rfl
  | cons first more =>
      have noPoint : first ≠ '.' := (closes first rfl).2
      simp [noPoint]

theorem readNumber_integer (mantissa : Int) (closes : Closes rest) :
    readNumber (integer mantissa ++ rest) = some (.number mantissa 0, rest) := by
  unfold integer
  split_ifs with negative
  · have signed : -1 * (mantissa.natAbs : Int) = mantissa := by omega
    change readMagnitude (-1) (Decimal.digits mantissa.natAbs ++ rest) = _
    rw [readMagnitude_digits _ _ closes, signed]
  · have signed : 1 * (mantissa.natAbs : Int) = mantissa := by omega
    have plain : readNumber (Decimal.digits mantissa.natAbs ++ rest) =
        readMagnitude 1 (Decimal.digits mantissa.natAbs ++ rest) := by
      obtain ⟨first, more, written, digit⟩ := digits_eq_cons mantissa.natAbs
      have unsigned : first ≠ '-' := ne_of_isDigit digit rfl
      rw [written, List.cons_append]
      simp [readNumber, unsigned]
    rw [plain, readMagnitude_digits _ _ closes, signed]

theorem readString_quote (value : String) :
    readString (JsonString.quote value.toList ++ rest) = some (value, rest) := by
  have shape : JsonString.quote value.toList ++ rest =
      '"' :: (value.toList.flatMap JsonString.escapeChar ++ '"' :: rest) := by
    simp [JsonString.quote]
  have enough : value.toList.length <
      (value.toList.flatMap JsonString.escapeChar ++ '"' :: rest).length + 1 := by
    have few := JsonString.length_le_flatMap value.toList
    rw [List.length_append]
    omega
  rw [shape, readString, skipSpace_cons rfl]
  change (JsonString.readQuoted _ _).map _ = _
  rw [JsonString.readQuoted_flatMap _ enough]
  change some (String.ofList value.toList, rest) = _
  rw [String.ofList_toList]

/-- No value begins with a space or ends a list. -/
theorem dumps_eq_cons (floatRepr : Int → Nat → Text) (integral : Integral json) :
    ∃ first more, dumps floatRepr json = first :: more ∧ isSpace first = false ∧
      first ≠ ']' := by
  cases integral with
  | null => exact ⟨_, _, rfl, rfl, by decide⟩
  | bool value => cases value <;> exact ⟨_, _, rfl, rfl, by decide⟩
  | number mantissa =>
      obtain ⟨first, more, written, digit⟩ := digits_eq_cons mantissa.natAbs
      simp only [dumps, integer]
      split_ifs
      · exact ⟨_, _, rfl, rfl, by decide⟩
      · exact ⟨first, more, written, not_isSpace_of_isDigit digit, ne_of_isDigit digit rfl⟩
  | string value => exact ⟨_, _, by rw [dumps]; rfl, rfl, by decide⟩
  | array _ => exact ⟨_, _, by rw [dumps], rfl, by decide⟩
  | object _ => exact ⟨_, _, by rw [dumps], rfl, by decide⟩

section Lists

variable {Item : Type} {bracket : Char} {item : Item} {more : Text → Option (List Item × Text)}

theorem readMore_bracket (visible : isSpace bracket = false) (other : bracket ≠ ',') :
    readMore bracket item more (bracket :: rest) = some ([item], rest) := by
  simp [readMore, skipSpace_cons visible, other]

theorem readMore_comma {items : List Item} {last : Text} (reads : more rest = some (items, last)) :
    readMore bracket item more (',' :: rest) = some (item :: items, last) := by
  have visible : isSpace ',' = false := rfl
  simp [readMore, skipSpace_cons visible, reads]

end Lists

theorem readValue_space (rounds : Nat) :
    readValue rounds (' ' :: rest) = readValue rounds rest := by
  cases rounds with
  | zero => rfl
  | succ rounds => rw [readValue, readValue, skipSpace_space]

theorem readItems_space (rounds : Nat) :
    readItems rounds (' ' :: rest) = readItems rounds rest := by
  cases rounds with
  | zero => rfl
  | succ rounds => rw [readItems, readItems, readValue_space]

theorem readMembers_space (rounds : Nat) :
    readMembers rounds (' ' :: rest) = readMembers rounds rest := by
  cases rounds with
  | zero => rfl
  | succ rounds => rw [readMembers, readMembers, readString, readString, skipSpace_space]

theorem length_dumps_pos (floatRepr : Int → Nat → Text) (integral : Integral json) :
    0 < (dumps floatRepr json).length := by
  obtain ⟨first, more, written, _⟩ := dumps_eq_cons floatRepr integral
  rw [written]
  exact Nat.succ_pos _

/-- Items that are read back one by one are read back as a list. -/
theorem readItems_dumpsItems {items : List Json} (nonempty : items ≠ [])
    (back : ∀ item ∈ items, ReadsBack floatRepr item) {rounds : Nat}
    (enough : (dumpsItems floatRepr items).length ≤ rounds) :
    readItems rounds (dumpsItems floatRepr items ++ rest) = some (items, rest) := by
  induction items generalizing rounds with
  | nil => exact absurd rfl nonempty
  | cons item others ih =>
      have first := back item List.mem_cons_self
      cases others with
      | nil =>
          rw [dumpsItems, List.length_append, List.length_singleton] at enough
          obtain ⟨left, rfl⟩ : ∃ left, rounds = left + 1 := ⟨rounds - 1, by omega⟩
          have reads := first left (']' :: rest) (by omega) (closes_cons rfl (by decide))
          rw [dumpsItems, List.append_assoc, List.singleton_append, readItems, reads,
            Option.bind_some]
          exact readMore_bracket rfl (by decide)
      | cons next others =>
          rw [dumpsItems, List.length_append, List.length_cons, List.length_cons] at enough
          obtain ⟨left, rfl⟩ : ∃ left, rounds = left + 1 := ⟨rounds - 1, by omega⟩
          have later : readItems left (dumpsItems floatRepr (next :: others) ++ rest) =
              some (next :: others, rest) :=
            ih (List.cons_ne_nil _ _)
              (fun other member => back other (List.mem_cons_of_mem _ member)) (by omega)
          have reads := first left (',' :: ' ' :: (dumpsItems floatRepr (next :: others) ++ rest))
            (by omega) (closes_cons rfl (by decide))
          rw [dumpsItems, List.append_assoc, List.cons_append, List.cons_append, readItems, reads,
            Option.bind_some]
          exact readMore_comma ((readItems_space left).trans later)

/-- The name of a member is read, and then its value. -/
theorem readMembers_member (name : String) {value : Json} {text : Text} {left : Nat}
    (reads : readValue left (dumps floatRepr value ++ text) = some (value, text)) :
    readMembers (left + 1)
        (JsonString.quote name.toList ++ ':' :: ' ' :: (dumps floatRepr value ++ text)) =
      readMore '}' (name, value) (fun text => readMembers left text) text := by
  have visible : isSpace ':' = false := rfl
  rw [readMembers, readString_quote, Option.bind_some]
  simp only [skipSpace_cons visible, List.head?_cons, if_true, List.tail_cons, readValue_space,
    reads, Option.bind_some]

theorem readMembers_dumpsMembers {members : List (String × Json)} (nonempty : members ≠ [])
    (back : ∀ member ∈ members, ReadsBack floatRepr member.2) {rounds : Nat}
    (enough : (dumpsMembers floatRepr members).length ≤ rounds) :
    readMembers rounds (dumpsMembers floatRepr members ++ rest) = some (members, rest) := by
  induction members generalizing rounds with
  | nil => exact absurd rfl nonempty
  | cons member others ih =>
      obtain ⟨name, value⟩ := member
      have first : ReadsBack floatRepr value := back (name, value) List.mem_cons_self
      cases others with
      | nil =>
          simp only [dumpsMembers, List.length_append, List.length_cons, List.length_nil] at enough
          obtain ⟨left, rfl⟩ : ∃ left, rounds = left + 1 := ⟨rounds - 1, by omega⟩
          have reads := first left ('}' :: rest) (by omega) (closes_cons rfl (by decide))
          simp only [dumpsMembers, List.append_assoc, List.cons_append, List.nil_append]
          rw [readMembers_member name reads]
          exact readMore_bracket rfl (by decide)
      | cons next others =>
          simp only [dumpsMembers, List.length_append, List.length_cons] at enough
          obtain ⟨left, rfl⟩ : ∃ left, rounds = left + 1 := ⟨rounds - 1, by omega⟩
          have later : readMembers left (dumpsMembers floatRepr (next :: others) ++ rest) =
              some (next :: others, rest) :=
            ih (List.cons_ne_nil _ _)
              (fun other member => back other (List.mem_cons_of_mem _ member)) (by omega)
          have reads := first left (',' :: ' ' :: (dumpsMembers floatRepr (next :: others) ++ rest))
            (by omega) (closes_cons rfl (by decide))
          simp only [dumpsMembers, List.append_assoc, List.cons_append]
          rw [readMembers_member name reads]
          exact readMore_comma ((readMembers_space left).trans later)

theorem readsBack_of_succ (integral : Integral json)
    (back : ∀ left rest, (dumps floatRepr json).length ≤ left + 1 → Closes rest →
      readValue (left + 1) (dumps floatRepr json ++ rest) = some (json, rest)) :
    ReadsBack floatRepr json := by
  intro rounds rest enough closes
  cases rounds with
  | zero => exact absurd (length_dumps_pos floatRepr integral) (by omega)
  | succ left => exact back left rest enough closes

/-- A number begins with none of the characters that other values begin with. -/
theorem readValue_integer (mantissa : Int) (left : Nat) (closes : Closes rest) :
    readValue (left + 1) (integer mantissa ++ rest) = some (.number mantissa 0, rest) := by
  have reads := readNumber_integer mantissa closes
  obtain ⟨first, more, written, digit⟩ : ∃ first more, integer mantissa = first :: more ∧
      (first.isDigit = true ∨ first = '-') := by
    unfold integer
    split_ifs
    · exact ⟨_, _, rfl, .inr rfl⟩
    · obtain ⟨first, more, written, digit⟩ := digits_eq_cons mantissa.natAbs
      exact ⟨first, more, written, .inl digit⟩
  have visible : isSpace first = false := by
    rcases digit with digit | rfl
    · exact not_isSpace_of_isDigit digit
    · rfl
  have other : ∀ mark : Char, mark.isDigit = false → mark ≠ '-' → first ≠ mark := by
    intro mark noDigit noSign
    rcases digit with digit | rfl
    · exact ne_of_isDigit digit noDigit
    · exact noSign.symm
  rw [written, List.cons_append] at reads ⊢
  simp only [readValue, skipSpace_cons visible]
  rw [if_neg (other _ rfl (by decide)), if_neg (other _ rfl (by decide)),
    if_neg (other _ rfl (by decide)), if_neg (other _ rfl (by decide)),
    if_neg (other _ rfl (by decide)), if_neg (other _ rfl (by decide)), reads]

/-- A list that has items is not closed at once. -/
theorem readList_of_visible {Item : Type} {bracket : Char}
    {items : Text → Option (List Item × Text)} (visible : isSpace first = false)
    (other : first ≠ bracket) :
    readList bracket items (first :: rest) = items (first :: rest) := by
  simp [readList, skipSpace_cons visible, other]

theorem dumpsItems_eq_cons (floatRepr : Int → Nat → Text) {item : Json} (others : List Json)
    (integral : Integral item) :
    ∃ first more, dumpsItems floatRepr (item :: others) = first :: more ∧
      isSpace first = false ∧ first ≠ ']' := by
  obtain ⟨first, more, written, shape⟩ := dumps_eq_cons floatRepr integral
  cases others with
  | nil => exact ⟨first, more ++ [']'], by rw [dumpsItems, written]; rfl, shape⟩
  | cons next others => exact ⟨first, _, by rw [dumpsItems, written]; rfl, shape⟩

theorem dumpsMembers_eq_cons (floatRepr : Int → Nat → Text) (member : String × Json)
    (others : List (String × Json)) :
    ∃ more, dumpsMembers floatRepr (member :: others) = '"' :: more := by
  cases others with
  | nil => exact ⟨_, by rw [dumpsMembers]; rfl⟩
  | cons next others => exact ⟨_, by rw [dumpsMembers]; rfl⟩

/-- What is written of a whole-numbered value is read back, whatever closes it. -/
theorem readsBack_of_integral (floatRepr : Int → Nat → Text) (integral : Integral json) :
    ReadsBack floatRepr json := by
  induction integral with
  | null => exact readsBack_of_succ .null fun _ _ _ _ => rfl
  | bool value => cases value <;> exact readsBack_of_succ (.bool _) fun _ _ _ _ => rfl
  | number mantissa =>
      exact readsBack_of_succ (.number _) fun left _ _ closes =>
        readValue_integer mantissa left closes
  | string value =>
      apply readsBack_of_succ (.string _)
      intro left rest _ _
      have reads : readString (JsonString.quote value.toList ++ rest) = some (value, rest) :=
        readString_quote value
      rw [JsonString.quote, List.cons_append, List.cons_append] at reads
      rw [dumps, JsonString.quote, List.cons_append, List.cons_append, readValue,
        skipSpace_cons rfl]
      change (readString _).map _ = _
      rw [reads, Option.map_some]
  | @array items all ih =>
      apply readsBack_of_succ (.array all)
      intro left rest enough _
      rw [dumps, List.length_cons] at enough
      rw [dumps, List.cons_append, readValue, skipSpace_cons rfl]
      change (readList ']' _ _).map _ = _
      cases items with
      | nil => rfl
      | cons item others =>
          have reads : readItems left (dumpsItems floatRepr (item :: others) ++ rest) =
              some (item :: others, rest) :=
            readItems_dumpsItems (List.cons_ne_nil _ _) ih (Nat.le_of_succ_le_succ enough)
          obtain ⟨first, more, written, visible, other⟩ :=
            dumpsItems_eq_cons floatRepr others (all item List.mem_cons_self)
          rw [written, List.cons_append] at reads ⊢
          rw [readList_of_visible visible other, reads, Option.map_some]
  | @object members all ih =>
      apply readsBack_of_succ (.object all)
      intro left rest enough _
      rw [dumps, List.length_cons] at enough
      rw [dumps, List.cons_append, readValue, skipSpace_cons rfl]
      change (readList '}' _ _).map _ = _
      cases members with
      | nil => rfl
      | cons member others =>
          have reads : readMembers left (dumpsMembers floatRepr (member :: others) ++ rest) =
              some (member :: others, rest) :=
            readMembers_dumpsMembers (List.cons_ne_nil _ _) ih (Nat.le_of_succ_le_succ enough)
          obtain ⟨more, written⟩ := dumpsMembers_eq_cons floatRepr member others
          rw [written, List.cons_append] at reads ⊢
          rw [readList_of_visible rfl (by decide), reads, Option.map_some]

theorem read_dumps (floatRepr : Int → Nat → Text) (integral : Integral json) :
    read (dumps floatRepr json) = some json := by
  have closes : Closes [] := fun _ none => by cases none
  have reads := readsBack_of_integral floatRepr integral
    ((dumps floatRepr json).length + 1) [] (Nat.le_succ _) closes
  rw [List.append_nil] at reads
  rw [read, reads]
  rfl

end RoundTrip

end Json

end Doorito.Common
