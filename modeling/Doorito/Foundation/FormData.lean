import Doorito.Foundation.Percent

/-! Form data: one text for the names and values of a form, with an equals sign between a name
and its value and ampersands between the pairs. -/

set_option autoImplicit false

namespace Doorito.Foundation.FormData

open Percent

abbrev Fields := List (Text × Text)

/-- Where a name occurs more than once, its last value counts. -/
def get (fields : Fields) (name : Text) : Option Text :=
  (fields.reverse.find? fun field => field.1 = name).map (·.2)

def writeField (plain : Char → Bool) (field : Text × Text) : Text :=
  quotePlus plain field.1 ++ '=' :: quotePlus plain field.2

def urlencode (plain : Char → Bool) (fields : Fields) : Text :=
  ['&'].intercalate (fields.map (writeField plain))

/-- Without an equals sign the value is empty. -/
def readField (text : Text) : Text × Text :=
  (unquotePlus (text.takeWhile (· ≠ '=')), unquotePlus ((text.dropWhile (· ≠ '=')).drop 1))

def readFields (text : Text) : Fields := ((text.splitOn '&').filter (· ≠ [])).map readField

/-- Reading a query, which fails when there are more fields than the reader allows. -/
def parseQsl (maxNumFields : Nat) (text : Text) : Option Fields :=
  if text = [] then some []
  else if maxNumFields < 1 + text.count '&' then none
  else some (readFields text)

/-! ## The value of a name -/

section Get

variable {fields : Fields} {name value : Text}

theorem get_append (front back : Fields) (name : Text) :
    get (front ++ back) name = (get back name).or (get front name) := by
  rw [get, List.reverse_append, List.find?_append, Option.map_or]
  rfl

theorem get_singleton (field : Text × Text) (name : Text) :
    get [field] name = if field.1 = name then some field.2 else none := by
  simp only [get, List.reverse_singleton, List.find?_singleton, decide_eq_true_eq]
  split_ifs <;> rfl

theorem mem_of_get (found : get fields name = some value) : (name, value) ∈ fields := by
  obtain ⟨field, first, same⟩ := Option.map_eq_some_iff.mp found
  have named : field.1 = name := by simpa using List.find?_some first
  have member := List.mem_reverse.mp (List.mem_of_find?_eq_some first)
  rw [← named, ← same]
  exact member

end Get

/-! ## Fields -/

theorem cuts_ampersand : Cuts '&' := ⟨by decide, by decide, by decide⟩

theorem cuts_equals : Cuts '=' := ⟨by decide, by decide, by decide⟩

section NameAndValue

variable {name text : Text}

theorem readField_of_equals (free : '=' ∉ name) (value : Text) :
    readField (name ++ '=' :: value) = (unquotePlus name, unquotePlus value) := by
  have cut := span_ne_append free ('=' :: value)
  have stops : ('=' :: value).takeWhile (· ≠ '=') = [] := rfl
  rw [readField, cut.1, cut.2, stops, List.append_nil]
  rfl

theorem readField_without_equals (free : '=' ∉ text) : readField text = (unquotePlus text, []) := by
  have cut := span_ne_append free []
  rw [List.append_nil] at cut
  rw [readField, cut.1, cut.2, List.takeWhile_nil, List.append_nil]
  rfl

end NameAndValue

theorem readFields_append (front back : Text) :
    readFields (front ++ '&' :: back) = readFields front ++ readFields back := by
  rw [readFields, List.splitOn_append_cons_self, List.filter_append, List.map_append]
  rfl

theorem readFields_of_not_mem {text : Text} (single : '&' ∉ text) :
    readFields text = if text = [] then [] else [readField text] := by
  rw [readFields, List.splitOn_eq_singleton single, List.filter_singleton]
  by_cases empty : text = []
  · rw [if_pos empty, empty]
    rfl
  · rw [if_neg empty, decide_eq_true empty]
    rfl

theorem length_splitOn (text : Text) : (text.splitOn '&').length = 1 + text.count '&' := by
  induction text with
  | nil => rfl
  | cons char rest ih =>
      rw [List.splitOn_cons_eq_if_modifyHead, List.count_cons]
      split_ifs with same
      · rw [List.length_cons, ih]
        omega
      · rw [List.length_modifyHead, ih]
        omega

/-- A text is one pair, or a pair with more after it. -/
theorem field_induction {motive : Text → Prop} (single : ∀ text, '&' ∉ text → motive text)
    (more : ∀ first rest, '&' ∉ first → motive rest → motive (first ++ '&' :: rest))
    (text : Text) : motive text := by
  refine (measure List.length).wf.induction text fun text ih => ?_
  by_cases member : '&' ∈ text
  · obtain ⟨first, rest, shape, free⟩ := List.eq_append_cons_of_mem member
    rw [shape] at ih ⊢
    have shorter : rest.length < (first ++ '&' :: rest).length := by
      rw [List.length_append, List.length_cons]
      omega
    exact more first rest free (ih rest shorter)
  · exact single text member

/-- What is read as a value is empty or a part of the text. -/
theorem part_of_mem_readFields {text name value : Text}
    (member : (name, value) ∈ readFields text) (given : value ≠ []) :
    ∃ part, Part part text ∧ value = unquotePlus part := by
  have ofSingle : ∀ text, '&' ∉ text → (name, value) ∈ readFields text →
      ∃ part, Part part text ∧ value = unquotePlus part := by
    intro text single member
    rw [readFields_of_not_mem single] at member
    split_ifs at member
    · cases member
    · have read : (name, value) = readField text := List.mem_singleton.mp member
      by_cases equals : '=' ∈ text
      · obtain ⟨front, part, shape, free⟩ := List.eq_append_cons_of_mem equals
        rw [shape, readField_of_equals free] at read
        rw [shape]
        exact ⟨part, .after cuts_equals front .whole, congrArg Prod.snd read⟩
      · rw [readField_without_equals equals] at read
        exact absurd (congrArg Prod.snd read) given
  induction text using field_induction with
  | single text single => exact ofSingle text single member
  | more first rest free ih =>
      rw [readFields_append] at member
      rcases List.mem_append.mp member with here | later
      · obtain ⟨part, inside, read⟩ := ofSingle first free here
        exact ⟨part, .before cuts_ampersand inside rest, read⟩
      · obtain ⟨part, inside, read⟩ := ih later
        exact ⟨part, .after cuts_ampersand first inside, read⟩

/-! ## Reading what was quoted -/

section Quote

variable {plain : Char → Bool}

theorem count_quote {char : Char} (cuts : Cuts char) (kept : plain char = true) (text : Text) :
    (quote plain text).count char = text.count char := by
  refine countP_quote ?_ ?_ ?_ text
  · intro other same
    rw [eq_of_beq same]
    exact kept
  · exact beq_eq_false_iff_ne.mpr cuts.2.1.symm
  · intro other digit
    refine beq_eq_false_iff_ne.mpr fun same => ?_
    exact digit (same ▸ cuts.1)

theorem mem_quote_iff {char : Char} (cuts : Cuts char) (kept : plain char = true) {text : Text} :
    char ∈ quote plain text ↔ char ∈ text := by
  rw [← List.count_pos_iff, ← List.count_pos_iff, count_quote cuts kept]

/-- Quoting that keeps the marks of form data changes nothing for the reader. -/
structure KeepsFields (plain : Char → Bool) : Prop extends KeepsEscapes plain where
  ampersand : plain '&' = true
  equals : plain '=' = true

variable (keeps : KeepsFields plain)
include keeps

theorem readField_quote (text : Text) : readField (quote plain text) = readField text := by
  by_cases member : '=' ∈ text
  · obtain ⟨name, value, shape, free⟩ := List.eq_append_cons_of_mem member
    have quoted : '=' ∉ quote plain name := fun listed =>
      free ((mem_quote_iff cuts_equals keeps.equals).mp listed)
    rw [shape, quote_append, quote_cons_of_plain keeps.equals, readField_of_equals quoted,
      readField_of_equals free, unquotePlus_quote keeps.toKeepsEscapes,
      unquotePlus_quote keeps.toKeepsEscapes]
  · have quoted : '=' ∉ quote plain text := fun listed =>
      member ((mem_quote_iff cuts_equals keeps.equals).mp listed)
    rw [readField_without_equals quoted, readField_without_equals member,
      unquotePlus_quote keeps.toKeepsEscapes]

theorem readFields_quote (text : Text) : readFields (quote plain text) = readFields text := by
  induction text using field_induction with
  | single text single =>
      have quoted : '&' ∉ quote plain text := fun listed =>
        single ((mem_quote_iff cuts_ampersand keeps.ampersand).mp listed)
      simp only [readFields_of_not_mem quoted, readFields_of_not_mem single, quote_eq_nil_iff,
        readField_quote keeps]
  | more first rest free ih =>
      have quoted : '&' ∉ quote plain first := fun listed =>
        free ((mem_quote_iff cuts_ampersand keeps.ampersand).mp listed)
      rw [quote_append, quote_cons_of_plain keeps.ampersand, readFields_append, readFields_append,
        ih, readFields_of_not_mem quoted, readFields_of_not_mem free]
      simp only [quote_eq_nil_iff, readField_quote keeps]

theorem parseQsl_quote (maxNumFields : Nat) (text : Text) :
    parseQsl maxNumFields (quote plain text) = parseQsl maxNumFields text := by
  simp only [parseQsl, quote_eq_nil_iff, count_quote cuts_ampersand keeps.ampersand,
    readFields_quote keeps]

end Quote

/-! ## Reading what was written -/

section Write

variable {plain : Char → Bool}

/-- Quoting that escapes the marks of form data. -/
structure EscapesMarks (plain : Char → Bool) : Prop where
  percent : plain '%' = false
  plus : plain '+' = false
  ampersand : plain '&' = false
  equals : plain '=' = false

variable (escapes : EscapesMarks plain)
include escapes

theorem readField_writeField (field : Text × Text) :
    readField (writeField plain field) = field := by
  have free : '=' ∉ quotePlus plain field.1 := not_mem_quotePlus cuts_equals escapes.equals _
  rw [writeField, readField_of_equals free, unquotePlus_quotePlus escapes.percent escapes.plus,
    unquotePlus_quotePlus escapes.percent escapes.plus]

omit escapes in
theorem writeField_ne_nil (field : Text × Text) : writeField plain field ≠ [] :=
  List.append_ne_nil_of_right_ne_nil _ (List.cons_ne_nil _ _)

theorem not_mem_writeField (field : Text × Text) : '&' ∉ writeField plain field := by
  intro member
  rcases List.mem_append.mp member with name | value
  · exact not_mem_quotePlus cuts_ampersand escapes.ampersand _ name
  · rcases List.mem_cons.mp value with same | value
    · exact absurd same (by decide)
    · exact not_mem_quotePlus cuts_ampersand escapes.ampersand _ value

theorem parseQsl_urlencode {maxNumFields : Nat} {fields : Fields}
    (few : fields.length ≤ maxNumFields) :
    parseQsl maxNumFields (urlencode plain fields) = some fields := by
  cases fields with
  | nil => rfl
  | cons field rest =>
      have pieces : (urlencode plain (field :: rest)).splitOn '&' =
          (field :: rest).map (writeField plain) := by
        refine List.splitOn_intercalate '&' ?_ (List.cons_ne_nil _ _)
        intro piece member
        obtain ⟨source, _, same⟩ := List.mem_map.mp member
        exact same ▸ not_mem_writeField escapes source
      have count := length_splitOn (urlencode plain (field :: rest))
      rw [pieces, List.length_map] at count
      have given : urlencode plain (field :: rest) ≠ [] := by
        intro empty
        rw [empty, List.splitOn_nil, List.map_cons] at pieces
        exact writeField_ne_nil field (List.cons.inj pieces).1.symm
      have all : ((field :: rest).map (writeField plain)).filter (· ≠ []) =
          (field :: rest).map (writeField plain) := by
        refine List.filter_eq_self.mpr fun piece member => ?_
        obtain ⟨source, _, same⟩ := List.mem_map.mp member
        exact decide_eq_true (same ▸ writeField_ne_nil source)
      have read : ∀ field : Text × Text, (readField ∘ writeField plain) field = id field :=
        readField_writeField escapes
      rw [parseQsl, if_neg given, if_neg (by omega), readFields, pieces, all, List.map_map,
        List.map_congr_left fun field _ => read field, List.map_id]

end Write

end Doorito.Foundation.FormData
