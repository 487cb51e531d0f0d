import Doorito.Foundation.Percent
import Mathlib.Data.List.TakeWhile

/-! Where an address leads. An address without a scheme and without an authority is a path, which
stays on the host that it is read on; otherwise its authority names the host. -/

set_option autoImplicit false

namespace Doorito.Foundation.Address

open Percent

def schemeChar (char : Char) : Bool := char.isAlphanum || "+-.".toList.contains char

/-- The name before the first colon, if it begins with a letter. -/
def scheme? (address : Text) : Option Text :=
  let name := address.takeWhile schemeChar
  if (address.dropWhile schemeChar).head? = some ':' ∧ name.head?.any Char.isAlpha then some name
  else none

def afterScheme (address : Text) : Text :=
  if (scheme? address).isSome then (address.dropWhile schemeChar).drop 1 else address

def authorityChar (char : Char) : Bool := char ≠ '/' && char ≠ '?' && char ≠ '#'

/-- What stands between two slashes and the path, query or fragment. -/
def authority? (address : Text) : Option Text :=
  match afterScheme address with
  | '/' :: '/' :: rest => some (rest.takeWhile authorityChar)
  | _ => none

/-! ## Hosts -/

def hostChar (char : Char) : Bool := char.isAlphanum || "-.:[]_".toList.contains char

def lower (text : Text) : Text := text.map Char.toLower

structure Host where
  name : Text
  chars : ∀ char ∈ name, hostChar char = true

def IsPath (address : Text) : Prop := scheme? address = none ∧ authority? address = none

def IsWebScheme (name : Text) : Prop := lower name = "http".toList ∨ lower name = "https".toList

/-- A path, or an address of the host itself. -/
def StaysOn (host : Host) (address : Text) : Prop :=
  IsPath address ∨
    (∀ name ∈ scheme? address, IsWebScheme name) ∧
      (authority? address).map lower = some (lower host.name)

instance (host : Host) (address : Text) : Decidable (StaysOn host address) :=
  inferInstanceAs (Decidable ((_ ∧ _) ∨ (∀ name ∈ scheme? address, _ ∨ _) ∧ _))

theorem hostChar_toLower (char : Char) : hostChar char.toLower = hostChar char := by
  by_cases upper : 65 ≤ char.toNat ∧ char.toNat ≤ 90
  · have checked : ∀ number ≤ 90, 65 ≤ number →
        hostChar (Char.ofNat number).toLower = hostChar (Char.ofNat number) := by decide
    rw [← Char.ofNat_toNat char]
    exact checked char.toNat upper.2 upper.1
  · have kept : char.toLower = char := by
      refine dif_neg fun bounds => upper ?_
      exact ⟨UInt32.le_iff_toNat_le.mp bounds.1, UInt32.le_iff_toNat_le.mp bounds.2⟩
    rw [kept]

/-- Only the characters of a host are written differently in one. -/
theorem hostChar_of_lower_eq {host : Host} {text : Text} (same : lower text = lower host.name) :
    ∀ char ∈ text, hostChar char = true := by
  intro char member
  have lowered : char.toLower ∈ lower host.name := same ▸ List.mem_map_of_mem member
  obtain ⟨other, listed, equal⟩ := List.mem_map.mp lowered
  rw [← hostChar_toLower, ← equal, hostChar_toLower]
  exact host.chars other listed

/-! ## Quoting -/

/-- Quoting that leaves alone what an address is divided by. -/
structure KeepsAddress (plain : Char → Bool) : Prop where
  slash : plain '/' = true
  question : plain '?' = true
  hash : plain '#' = true
  host : ∀ char, hostChar char = true → plain char = true
  scheme : ∀ char, schemeChar char = true → plain char = true

section Quote

variable {plain : Char → Bool} (keeps : KeepsAddress plain)
include keeps

omit keeps in
theorem quote_eq_cons_iff {char : Char} (kept : plain char = true) (other : char ≠ '%')
    {text rest : Text} :
    quote plain text = char :: rest ↔
      ∃ source, text = char :: source ∧ quote plain source = rest := by
  constructor
  · intro shape
    cases text with
    | nil => cases shape
    | cons first source =>
        cases keptFirst : plain first with
        | true =>
            rw [quote_cons_of_plain keptFirst, List.cons.injEq] at shape
            exact ⟨source, by rw [shape.1], shape.2⟩
        | false =>
            obtain ⟨digits, escaped⟩ := escapeChar_eq_cons first
            rw [quote_cons_of_not_plain keptFirst, escaped, List.cons_append,
              List.cons.injEq] at shape
            exact absurd shape.1.symm other
  · rintro ⟨source, shape, same⟩
    rw [shape, quote_cons_of_plain kept, same]

omit keeps in
theorem head?_quote_iff {char : Char} (kept : plain char = true) (other : char ≠ '%')
    {text : Text} : (quote plain text).head? = some char ↔ text.head? = some char := by
  rw [List.head?_eq_some_iff, List.head?_eq_some_iff]
  constructor
  · rintro ⟨rest, shape⟩
    obtain ⟨source, same, _⟩ := (quote_eq_cons_iff kept other).mp shape
    exact ⟨source, same⟩
  · rintro ⟨rest, shape⟩
    exact ⟨quote plain rest, (quote_eq_cons_iff kept other).mpr ⟨rest, shape, rfl⟩⟩

theorem span_schemeChar_quote (text : Text) :
    (quote plain text).takeWhile schemeChar = text.takeWhile schemeChar ∧
      (quote plain text).dropWhile schemeChar = quote plain (text.dropWhile schemeChar) := by
  have escaped : ∀ char, plain char = false → schemeChar char = schemeChar '%' := by
    intro char hidden
    cases passes : schemeChar char with
    | false => rfl
    | true =>
        rw [keeps.scheme char passes] at hidden
        cases hidden
  have cut := span_quote escaped (fun wrong => by cases wrong) text
  rw [cut.1, cut.2]
  refine ⟨quote_of_plain fun char member => keeps.scheme char ?_, rfl⟩
  exact List.mem_takeWhile_imp member

theorem scheme?_quote (text : Text) : scheme? (quote plain text) = scheme? text := by
  have colon : plain ':' = true := keeps.host ':' rfl
  simp only [scheme?, span_schemeChar_quote keeps, head?_quote_iff colon (by decide)]

theorem afterScheme_quote (text : Text) :
    afterScheme (quote plain text) = quote plain (afterScheme text) := by
  rw [afterScheme, scheme?_quote keeps, afterScheme]
  split_ifs with named
  · have colon : (text.dropWhile schemeChar).head? = some ':' := by
      rw [scheme?] at named
      split_ifs at named with held
      · exact held.1
      · cases named
    obtain ⟨rest, shape⟩ := List.head?_eq_some_iff.mp colon
    rw [(span_schemeChar_quote keeps text).2, shape,
      quote_cons_of_plain (keeps.host ':' rfl)]
    rfl
  · rfl

omit keeps in
theorem authority?_eq_some_iff {address authority : Text} :
    authority? address = some authority ↔
      ∃ rest, afterScheme address = '/' :: '/' :: rest ∧
        rest.takeWhile authorityChar = authority := by
  rw [authority?]
  split
  · rename_i rest shape
    rw [shape]
    simp only [Option.some.injEq, List.cons.injEq, true_and]
    constructor
    · intro same
      exact ⟨rest, rfl, same⟩
    · rintro ⟨_, rfl, taken⟩
      exact taken
  · rename_i other
    constructor
    · intro found
      cases found
    · rintro ⟨rest, shape, _⟩
      exact absurd shape (other rest)

omit keeps in
theorem authorityChar_eq_true_iff {char : Char} :
    authorityChar char = true ↔ char ≠ '/' ∧ char ≠ '?' ∧ char ≠ '#' := by
  rw [authorityChar, Bool.and_eq_true, Bool.and_eq_true, decide_eq_true_iff, decide_eq_true_iff,
    decide_eq_true_iff, and_assoc]

theorem authority?_quote (text : Text) :
    authority? (quote plain text) = (authority? text).map (quote plain) := by
  have escaped : ∀ char, plain char = false → authorityChar char = authorityChar '%' := by
    intro char hidden
    have ends : authorityChar '%' = true := rfl
    rw [ends, authorityChar_eq_true_iff]
    refine ⟨?_, ?_, ?_⟩
    · rintro rfl
      exact Bool.false_ne_true (hidden.symm.trans keeps.slash)
    · rintro rfl
      exact Bool.false_ne_true (hidden.symm.trans keeps.question)
    · rintro rfl
      exact Bool.false_ne_true (hidden.symm.trans keeps.hash)
  have digits : authorityChar '%' = true → ∀ char, hexValue? char ≠ none →
      authorityChar char = true := by
    intro _ char digit
    rw [authorityChar_eq_true_iff]
    refine ⟨?_, ?_, ?_⟩ <;> rintro rfl <;> exact digit rfl
  refine Option.ext fun authority => ?_
  rw [authority?_eq_some_iff, afterScheme_quote keeps, Option.map_eq_some_iff]
  simp only [authority?_eq_some_iff]
  constructor
  · rintro ⟨rest, shape, taken⟩
    obtain ⟨one, first, more⟩ := (quote_eq_cons_iff keeps.slash (by decide)).mp shape
    obtain ⟨two, second, same⟩ := (quote_eq_cons_iff keeps.slash (by decide)).mp more
    refine ⟨_, ⟨two, by rw [first, second], rfl⟩, ?_⟩
    rw [← taken, ← same, (span_quote escaped digits two).1]
  · rintro ⟨source, ⟨rest, shape, taken⟩, same⟩
    refine ⟨quote plain rest, ?_, ?_⟩
    · rw [shape, quote_cons_of_plain keeps.slash, quote_cons_of_plain keeps.slash]
    · rw [(span_quote escaped digits rest).1, taken, same]

theorem lower_quote_eq_host_iff {host : Host} (text : Text) :
    lower (quote plain text) = lower host.name ↔ lower text = lower host.name := by
  constructor
  · intro same
    have all : ∀ char ∈ text, plain char = true := by
      intro char member
      by_contra hidden
      have quoted : '%' ∈ quote plain text := by
        obtain ⟨digits, shape⟩ := escapeChar_eq_cons char
        refine List.mem_flatMap.mpr ⟨char, member, ?_⟩
        rw [if_neg hidden, shape]
        exact List.mem_cons_self
      exact absurd (hostChar_of_lower_eq same '%' quoted) (by decide)
    rw [← quote_of_plain all]
    exact same
  · intro same
    rw [quote_of_plain fun char member => keeps.host char (hostChar_of_lower_eq same char member)]
    exact same

/-- Quoting an address does not change whether it leads away from the host. -/
theorem staysOn_quote_iff {host : Host} (text : Text) :
    StaysOn host (quote plain text) ↔ StaysOn host text := by
  have authority : (authority? (quote plain text)).map lower = some (lower host.name) ↔
      (authority? text).map lower = some (lower host.name) := by
    rw [authority?_quote keeps, Option.map_map]
    cases authority? text with
    | none => exact Iff.rfl
    | some found =>
        simp only [Option.map_some, Option.some.injEq, Function.comp_apply]
        exact lower_quote_eq_host_iff keeps found
  rw [StaysOn, StaysOn, IsPath, IsPath, scheme?_quote keeps, authority]
  rw [authority?_quote keeps, Option.map_eq_none_iff]

end Quote

/-! ## Queries

A browser keeps the fragment of an address to itself, and escapes in the query what a query
cannot hold. -/

def withoutFragment (address : Text) : Text := address.takeWhile (· ≠ '#')

def queryOf (address : Text) : Text := (address.dropWhile (· ≠ '?')).drop 1

def queryPlain (char : Char) : Bool :=
  '!' ≤ char && char ≤ '~' && !"\"#<>'".toList.contains char

def sentQuery (address : Text) : Text := quote queryPlain (queryOf (withoutFragment address))

section Query

variable {front : Text}

theorem hash_not_mem_withoutFragment (address : Text) : '#' ∉ withoutFragment address := by
  intro member
  have passes := List.mem_takeWhile_imp (p := fun char => decide (char ≠ '#')) member
  exact of_decide_eq_true passes rfl

theorem withoutFragment_append (free : '#' ∉ front) (back : Text) :
    withoutFragment (front ++ back) = front ++ withoutFragment back :=
  (span_ne_append free back).1

theorem withoutFragment_of_not_mem (free : '#' ∉ front) : withoutFragment front = front := by
  have cut := withoutFragment_append free []
  have none : withoutFragment [] = [] := rfl
  rwa [none, List.append_nil] at cut

theorem withoutFragment_of_hash (free : '#' ∉ front) (fragment : Text) :
    withoutFragment (front ++ '#' :: fragment) = front := by
  have stops : withoutFragment ('#' :: fragment) = [] := rfl
  rw [withoutFragment_append free, stops, List.append_nil]

theorem queryOf_of_question (free : '?' ∉ front) (query : Text) :
    queryOf (front ++ '?' :: query) = query := by
  rw [queryOf, (span_ne_append free _).2]
  rfl

end Query

end Doorito.Foundation.Address
