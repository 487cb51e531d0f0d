import Doorito.Frontend.Registrations

/-! Whether a valid registration form can be saved. The form checks the email, and `save` makes
it the username, whose column is shorter and takes no name twice. -/

set_option autoImplicit false

namespace Doorito.Frontend

open Foundation Common Accounts

/-- The column of the username takes it. -/
def UsableName (table : UserTable) (username : String) : Prop :=
  username.length ≤ 150 ∧ username ∉ table.rows.map (·.username)

instance (table : UserTable) (username : String) : Decidable (UsableName table username) :=
  inferInstanceAs (Decidable (_ ∧ _))

/-- A valid form adds one user, after the rows that are there. -/
def SavesValid (rules : AuthRules) (form : Registration) (table : UserTable) : Prop :=
  ∀ email, form.clean rules = some email →
    ∃ grown user, register rules form table = (grown, .ok (some user)) ∧
      user.username = email ∧ user.email = email ∧ grown.rows = table.rows ++ [user]

/-- A form whose email is not usable as a username is answered with errors. -/
def RejectsUnusable (rules : AuthRules) (form : Registration) (table : UserTable) : Prop :=
  ∀ email, required (rules.cleanEmail form.email) = some email → ¬ UsableName table email →
    register rules form table = (table, .ok none)

section Form

variable {rules : AuthRules} {form : Registration} {table : UserTable} {email : String}

theorem clean_eq_some_iff :
    form.clean rules = some email ↔
      required (rules.cleanEmail form.email) = some email ∧ email.length ≤ 254 ∧
        ∃ password, required (rules.cleanPassword form.password1) = some password ∧
          required (rules.cleanPassword form.password2) = some password ∧
          rules.acceptsPassword email password = true := by
  unfold Registration.clean
  cases required (rules.cleanEmail form.email) with
  | none => simp
  | some cleaned =>
      cases required (rules.cleanPassword form.password1) with
      | none => simp
      | some first =>
          cases required (rules.cleanPassword form.password2) with
          | none => simp
          | some second =>
              simp only [Option.ite_none_right_eq_some, Option.some.injEq]
              constructor
              · intro checked
                obtain ⟨⟨fits, rfl, accepted⟩, rfl⟩ := checked
                exact ⟨rfl, fits, first, rfl, rfl, accepted⟩
              · intro checked
                obtain ⟨rfl, fits, password, rfl, rfl, accepted⟩ := checked
                exact ⟨⟨fits, rfl, accepted⟩, rfl⟩

theorem register_of_not_valid (invalid : form.clean rules = none) :
    register rules form table = (table, .ok none) := by
  simp only [register, invalid]

theorem fitsColumns_user_iff (valid : form.clean rules = some email)
    (encoded : form.encoded.length ≤ 128) :
    fitsColumns (form.user email) = true ↔ email.length ≤ 150 := by
  have short := (clean_eq_some_iff.mp valid).2.1
  rw [fitsColumns, Bool.and_eq_true, Bool.and_eq_true, decide_eq_true_iff, decide_eq_true_iff,
    decide_eq_true_iff]
  exact ⟨fun fits => fits.1.1, fun fits => ⟨⟨fits, short⟩, encoded⟩⟩

/-- What becomes of a valid form: the row is added, or the statement fails and changes nothing. -/
theorem register_of_valid (valid : form.clean rules = some email)
    (fresh : form.pk ∉ table.users.keys) (encoded : form.encoded.length ≤ 128) :
    (UsableName table email ∧ ∃ grown,
      register rules form table = (grown, .ok (some (form.user email))) ∧
        grown.rows = table.rows ++ [form.user email]) ∨
    (¬ UsableName table email ∧ ∃ error, register rules form table = (table, .error error)) := by
  have fits := fitsColumns_user_iff valid encoded
  simp only [register, valid]
  by_cases short : email.length ≤ 150
  · rw [if_pos (fits.mpr short)]
    cases inserted : table.insert? (form.user email) with
    | some grown =>
        obtain ⟨_, free, rows⟩ := UserTable.insert?_eq_some_iff.mp inserted
        exact .inl ⟨⟨short, free⟩, grown, rfl, rows⟩
    | none =>
        refine .inr ⟨?_, _, rfl⟩
        intro usable
        have added : table.insert? (form.user email) = some _ :=
          (dif_pos fresh).trans (dif_pos usable.2)
        rw [inserted] at added
        cases added
  · rw [if_neg (fun held => short (fits.mp held))]
    exact .inr ⟨fun usable => short usable.1, _, rfl⟩

end Form

/-- For every table and every submission: a valid form is saved as one new row, and an email
that cannot be a username is answered with errors, if and only if the form is not valid or its
email is at most 150 characters long and no username. -/
theorem valid_form_saved_iff (rules : AuthRules) (form : Registration) (table : UserTable)
    (fresh : form.pk ∉ table.users.keys) (encoded : form.encoded.length ≤ 128) :
    SavesValid rules form table ∧ RejectsUnusable rules form table ↔
      ∀ email, form.clean rules = some email → UsableName table email := by
  constructor
  · intro claimed email valid
    obtain ⟨_, _, saved, _⟩ := claimed.1 email valid
    rcases register_of_valid valid fresh encoded with ⟨usable, _⟩ | ⟨_, error, fails⟩
    · exact usable
    · rw [fails] at saved
      cases saved
  · intro usable
    constructor
    · intro email valid
      rcases register_of_valid valid fresh encoded with ⟨_, grown, saved, rows⟩ | ⟨not, _⟩
      · exact ⟨grown, form.user email, saved, rfl, rfl, rows⟩
      · exact absurd (usable email valid) not
    · intro email cleaned not
      apply register_of_not_valid
      rw [Option.eq_none_iff_forall_ne_some]
      intro other valid
      rw [(clean_eq_some_iff.mp valid).1] at cleaned
      cases cleaned
      exact not (usable email valid)

/-! ## One email registered twice -/

namespace Sample

def visitor : User := (registration "visitor@example.org").user "visitor@example.org"

def withVisitor : UserTable := ⟨⟨[visitor], List.nodup_singleton _⟩, List.nodup_singleton _⟩

def secondVisit : Registration := { registration "visitor@example.org" with pk := 3 }

end Sample

/-- The visitor is new. -/
theorem valid_form_saved_visitor :
    SavesValid Sample.rules (Sample.registration "visitor@example.org") Sample.withAdmin ∧
      RejectsUnusable Sample.rules (Sample.registration "visitor@example.org")
        Sample.withAdmin := by
  refine (valid_form_saved_iff _ _ _ (by decide) (by decide)).mpr ?_
  intro email valid
  obtain rfl : "visitor@example.org" = email :=
    Option.some.inj ((clean_eq_some_iff.mp valid).1.symm.trans rfl).symm
  decide

/-- The second registration is valid, and the insert fails on the username. -/
theorem valid_form_not_saved :
    ¬ ∀ (rules : AuthRules) (form : Registration) (table : UserTable),
      form.pk ∉ table.users.keys → form.encoded.length ≤ 128 →
        SavesValid rules form table ∧ RejectsUnusable rules form table := by
  intro saves
  have both := saves Sample.rules Sample.secondVisit Sample.withVisitor (by decide) (by decide)
  obtain ⟨_, _, saved, _⟩ := both.1 "visitor@example.org" (by decide)
  have answer := congrArg Prod.snd saved
  exact absurd answer nofun

end Doorito.Frontend
