import Doorito.Foundation.Bytes
import Doorito.Foundation.Decimal
import Doorito.Foundation.Table

/-! Values and rows of the common app: keys, clock readings, JSON columns, the
outbox event and the webhook endpoint. -/

set_option autoImplicit false

namespace Doorito.Common

open Foundation

/-- Microseconds on the database clock, since the beginning of 1970. -/
abbrev Time := Int

def seconds (count : Int) : Time := count * 1000000

def hours (count : Int) : Time := seconds (count * 3600)

/-- Year, month and day of the proleptic Gregorian calendar, of a day counted from the
beginning of 1970. Years begin in March here, so that a leap day ends its year. -/
def civilDate (day : Int) : Int × Int × Int :=
  let shifted := day + 719468
  let dayOfEra := shifted % 146097
  let yearOfEra :=
    (dayOfEra - dayOfEra / 1460 + dayOfEra / 36524 - dayOfEra / 146096) / 365
  let dayOfYear := dayOfEra - (365 * yearOfEra + yearOfEra / 4 - yearOfEra / 100)
  let month := (5 * dayOfYear + 2) / 153
  let year := yearOfEra + 400 * (shifted / 146097)
  (if month < 10 then year else year + 1, if month < 10 then month + 3 else month - 9,
    dayOfYear - (153 * month + 2) / 5 + 1)

private def padded (width : Nat) (value : Int) : String :=
  let digits := toString value
  String.ofList (List.replicate (width - digits.length) '0') ++ digits

/-- `str` of an aware UTC datetime; microseconds only when there are some. -/
def timeStr (time : Time) : String :=
  let second := time / 1000000
  let (year, month, day) := civilDate (second / 86400)
  let fraction := time % 1000000
  padded 4 year ++ "-" ++ padded 2 month ++ "-" ++ padded 2 day ++ " " ++
    padded 2 (second / 3600 % 24) ++ ":" ++ padded 2 (second / 60 % 60) ++ ":" ++
    padded 2 (second % 60) ++ (if fraction = 0 then "" else "." ++ padded 6 fraction) ++ "+00:00"

example : timeStr 1709210096000700 = "2024-02-29 12:34:56.000700+00:00" := by decide +kernel

private theorem toList_padded (width value : Nat) :
    (padded width value).toList = Decimal.padded width value := by
  have digits : (toString (value : Int)).toList = Decimal.digits value := Nat.toList_repr
  rw [padded, String.toList_append, String.toList_ofList, ← String.length_toList, digits]
  rfl

/-- The characters of the text, from the fields of the datetime. -/
theorem toList_timeStr {time : Time} {year month day hour minute second microsecond : Nat}
    (date : civilDate (time / 1000000 / 86400) = (↑year, ↑month, ↑day))
    (isHour : time / 1000000 / 3600 % 24 = hour) (isMinute : time / 1000000 / 60 % 60 = minute)
    (isSecond : time / 1000000 % 60 = second) (fraction : time % 1000000 = microsecond) :
    (timeStr time).toList =
      Decimal.padded 4 year ++ '-' :: (Decimal.padded 2 month ++ '-' :: (Decimal.padded 2 day ++
        ' ' :: (Decimal.padded 2 hour ++ ':' :: (Decimal.padded 2 minute ++
        ':' :: (Decimal.padded 2 second ++
        ((if microsecond = 0 then [] else '.' :: Decimal.padded 6 microsecond) ++
          "+00:00".toList)))))) := by
  simp only [timeStr, date, isHour, isMinute, isSecond, fraction, String.toList_append,
    toList_padded, apply_ite String.toList, Int.natCast_eq_zero]
  simp

/-- A UUID as its 128-bit number. -/
structure Uuid where
  int : Nat
  fits : int < 2 ^ 128
deriving DecidableEq

namespace Uuid

theorem int_injective : Function.Injective Uuid.int := by
  intro left right same
  cases left
  cases right
  cases same
  rfl

instance : LE Uuid := ⟨fun left right => left.int ≤ right.int⟩

instance (left right : Uuid) : Decidable (left ≤ right) :=
  inferInstanceAs (Decidable (left.int ≤ right.int))

instance : Std.Total (fun left right : Uuid => left ≤ right) :=
  ⟨fun left right => Nat.le_total left.int right.int⟩

instance : IsTrans Uuid (fun left right => left ≤ right) :=
  ⟨fun _ _ _ first second => Nat.le_trans first second⟩

instance : Std.Antisymm (fun left right : Uuid => left ≤ right) :=
  ⟨fun _ _ below above => int_injective (Nat.le_antisymm below above)⟩

private def hyphenate (digits : List Char) : List Char :=
  digits.take 8 ++ '-' :: (digits.drop 8).take 4 ++ '-' :: (digits.drop 12).take 4 ++
    '-' :: (digits.drop 16).take 4 ++ '-' :: digits.drop 20

/-- The canonical text: 32 hexadecimal digits in five groups. -/
def str (key : Uuid) : String :=
  String.ofList (hyphenate (hexDigits (bigEndian 16 key.int)))

private theorem length_hyphenate {digits : List Char} (full : digits.length = 32) :
    (hyphenate digits).length = 36 := by
  simp only [hyphenate, List.length_append, List.length_cons, List.length_take,
    List.length_drop, full]
  decide

@[simp] theorem length_str (key : Uuid) : key.str.length = 36 := by
  rw [str, String.length_ofList]
  refine length_hyphenate ?_
  rw [length_hexDigits, length_bigEndian]

private theorem filter_hyphenate {digits : List Char} (plain : '-' ∉ digits) :
    (hyphenate digits).filter (· ≠ '-') = digits := by
  have keep : ∀ part : List Char, part ⊆ digits →
      part.filter (· ≠ '-') = part := by
    intro part sub
    rw [List.filter_eq_self]
    intro digit member
    have different : digit ≠ '-' := fun same => plain (same ▸ sub member)
    simpa using different
  have takeDrop : ∀ start count, (digits.drop start).take count ⊆ digits :=
    fun _ _ _ member => List.mem_of_mem_drop (List.mem_of_mem_take member)
  have join : ∀ start, (digits.drop start).take 4 ++ digits.drop (start + 4) =
      digits.drop start := by
    intro start
    rw [← List.drop_drop, List.take_append_drop]
  simp only [hyphenate, List.filter_append, List.filter_cons]
  rw [keep _ (List.take_subset _ _), keep _ (takeDrop 8 4), keep _ (takeDrop 12 4),
    keep _ (takeDrop 16 4), keep _ (List.drop_subset _ _)]
  simp only [ne_eq, not_true_eq_false, decide_false, Bool.false_eq_true, ↓reduceIte,
    List.append_assoc, join, List.take_append_drop]

theorem str_injective : Function.Injective str := by
  intro left right same
  have digits : hexDigits (bigEndian 16 left.int) = hexDigits (bigEndian 16 right.int) := by
    rw [← filter_hyphenate (hyphen_not_mem_hexDigits _),
      ← filter_hyphenate (hyphen_not_mem_hexDigits (bigEndian 16 right.int)),
      String.ofList_injective same]
  apply int_injective
  refine bigEndian_injective ?_ ?_ (hexDigits_injective digits)
  · exact left.fits
  · exact right.fits

end Uuid

/-- A value of a JSON column. A number is `mantissa / 10 ^ exponent`. -/
inductive Json where
  | null
  | bool (value : Bool)
  | number (mantissa : Int) (exponent : Nat)
  | string (value : String)
  | array (items : List Json)
  | object (members : List (String × Json))

namespace Json

/-- Python truth value. -/
def truthy : Json → Bool
  | .null => false
  | .bool value => value
  | .number mantissa _ => mantissa ≠ 0
  | .string value => value ≠ ""
  | .array items => !items.isEmpty
  | .object members => !members.isEmpty

/-- Python `text in value`; `none` is the TypeError of a value that is no
container. -/
def contains? (text : String) : Json → Option Bool
  | .string value => some (value.toList.tails.any text.toList.isPrefixOf)
  | .array items => some (items.any fun
      | .string item => item = text
      | _ => false)
  | .object members => some (members.any fun member => member.1 = text)
  | .null | .bool _ | .number _ _ => none

end Json

/-- Failures of a database statement: a constraint rejects the row, a value does not fit
its column, or a save that was to update one row found none. -/
inductive DbError where
  | integrityError
  | dataError
  | databaseError
deriving DecidableEq, Repr

def positiveIntegerMax : Nat := 2 ^ 31 - 1

inductive OutboxEvent.Status where
  | pending
  | delivered
  | failed
deriving DecidableEq, Repr

structure OutboxEvent where
  pk : Uuid
  aggregateType : String
  aggregateId : String
  eventType : String
  payload : Json
  status : OutboxEvent.Status
  idempotencyKey : String
  attempts : Nat
  maxAttempts : Nat
  nextAttemptAt : Option Time
  deliveredAt : Option Time
  errorMessage : String
  createdAt : Time
  updatedAt : Time

abbrev EventTable := Table OutboxEvent.pk

structure WebhookEndpoint where
  pk : Uuid
  url : String
  secret : String
  eventTypes : Json
  isActive : Bool

end Doorito.Common
