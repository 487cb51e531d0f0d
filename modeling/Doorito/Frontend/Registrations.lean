import Doorito.Foundation.Machine
import Doorito.Frontend.Auth

/-! Whether an email stays the name of one account. The database keeps usernames apart, and
registration uses the email as one; an account whose username is something else leaves its
email free for anybody to register. -/

set_option autoImplicit false

namespace Doorito.Frontend

open Foundation Common Accounts

/-- Submissions of the registration form, accepted or not. -/
def registrations (rules : AuthRules) : Machine UserTable Registration where
  step table form := some (register rules form table).1

/-- No two users have one email; any number of them may have none. -/
def EmailsDistinct (table : UserTable) : Prop :=
  ((table.rows.map (·.email)).filter (· ≠ "")).Nodup

instance (table : UserTable) : Decidable (EmailsDistinct table) :=
  inferInstanceAs (Decidable (List.Nodup _))

/-- Emails are distinct in the later table, their lookup raises nothing there, and whoever
could log in still can. -/
structure KeepsAccounts (rules : AuthRules) (earlier later : UserTable) : Prop where
  distinct : EmailsDistinct later
  lookup : ∀ email, email ≠ "" → later.getByEmail email ≠ .error .multipleObjectsReturned
  logins : ∀ email password user, login rules email password earlier = .ok user →
    login rules email password later = .ok user

/-- A registration that is saved is for an email that no user has. -/
def SavesNewEmail (rules : AuthRules) (table : UserTable) (form : Registration) : Prop :=
  ∀ email, form.clean rules = some email → fitsColumns (form.user email) →
    form.pk ∉ table.users.keys → email ∉ table.rows.map (·.username) →
      email ∉ table.rows.map (·.email)

section Emails

variable {table grown : UserTable} {user : User}

theorem emailsDistinct_append (rows : grown.rows = table.rows ++ [user])
    (named : user.email ≠ "") :
    EmailsDistinct grown ↔ EmailsDistinct table ∧ user.email ∉ table.rows.map (·.email) := by
  have listed : (grown.rows.map (·.email)).filter (· ≠ "") =
      (table.rows.map (·.email)).filter (· ≠ "") ++ [user.email] := by
    rw [rows, List.map_append, List.filter_append]
    simp [named]
  rw [EmailsDistinct, listed, List.nodup_append]
  constructor
  · intro both
    refine ⟨both.1, ?_⟩
    intro taken
    have kept : user.email ∈ (table.rows.map (·.email)).filter (· ≠ "") :=
      List.mem_filter.mpr ⟨taken, by simpa using named⟩
    exact both.2.2 _ kept _ (List.mem_singleton_self _) rfl
  · intro both
    refine ⟨both.1, List.nodup_singleton _, ?_⟩
    intro email member other single same
    rw [List.mem_singleton.mp single] at same
    exact both.2 (same ▸ (List.mem_filter.mp member).1)

theorem EmailsDistinct.lookup (distinct : EmailsDistinct table) {email : String}
    (named : email ≠ "") : table.getByEmail email ≠ .error .multipleObjectsReturned := by
  unfold UserTable.getByEmail
  split
  · simp
  · simp
  · next first second rest found =>
    -- Two rows of one email would stand twice in the list of emails.
    have twice : ((first :: second :: rest).map (·.email)).Nodup := by
      rw [← found]
      have sub : (table.rows.filter (·.email = email)).map (·.email) =
          ((table.rows.map (·.email)).filter (· ≠ "")).filter (· = email) := by
        rw [List.filter_filter, List.filter_map]
        congr 1
        apply List.filter_congr
        intro user _
        by_cases same : user.email = email <;> simp [same, named]
      rw [sub]
      exact distinct.filter _
    have emails : ∀ user ∈ first :: second :: rest, user.email = email := by
      intro user member
      rw [← found] at member
      simpa using (List.mem_filter.mp member).2
    have same := (emails first List.mem_cons_self).trans
      (emails second (List.mem_cons_of_mem _ List.mem_cons_self)).symm
    simp [same] at twice

end Emails

section Login

variable {rules : AuthRules} {table grown : UserTable} {user : User}

theorem getByUsername_append (rows : grown.rows = table.rows ++ [user]) {username : String}
    {found : User} (lookup : table.getByUsername username = some found) :
    grown.getByUsername username = some found := by
  unfold UserTable.getByUsername at lookup ⊢
  rw [rows, List.find?_append, lookup]
  rfl

theorem getByEmail_append (rows : grown.rows = table.rows ++ [user]) {email : String}
    (other : user.email ≠ email) : grown.getByEmail email = table.getByEmail email := by
  apply UserTable.getByEmail_of_filter
  simp [rows, List.filter_append, other]

/-- The username under which an email logs in. -/
def LoginName (table : UserTable) (email username : String) : Prop :=
  (∃ user, table.getByEmail email = .ok user ∧ username = user.username) ∨
    (table.getByEmail email = .error .doesNotExist ∧ username = email)

theorem login_eq_ok_iff {email password : String} {found : User} :
    login rules email password table = .ok found ↔
      ∃ cleaned secret username, required (rules.cleanEmail email) = some cleaned ∧
        required (rules.cleanPassword password) = some secret ∧
        LoginName table cleaned username ∧
        authenticate rules username secret table = some found := by
  unfold login
  cases required (rules.cleanEmail email) with
  | none => simp
  | some cleaned =>
      cases required (rules.cleanPassword password) with
      | none =>
          cases lookup : table.getByEmail cleaned with
          | ok user => simp [lookup]
          | error error => cases error <;> simp [lookup]
      | some secret =>
          cases lookup : table.getByEmail cleaned with
          | ok user =>
              cases authenticated : authenticate rules user.username secret table with
              | none => simp [LoginName, lookup, authenticated]
              | some other => simp [LoginName, lookup, authenticated]
          | error error =>
              cases error with
              | doesNotExist =>
                  cases authenticated : authenticate rules cleaned secret table with
                  | none => simp [LoginName, lookup, authenticated]
                  | some other => simp [LoginName, lookup, authenticated]
              | multipleObjectsReturned => simp [LoginName, lookup]

theorem authenticate_append (rows : grown.rows = table.rows ++ [user])
    {username secret : String} {found : User}
    (authenticated : authenticate rules username secret table = some found) :
    authenticate rules username secret grown = some found := by
  obtain ⟨lookup, passes⟩ := Option.filter_eq_some_iff.mp authenticated
  exact Option.filter_eq_some_iff.mpr ⟨getByUsername_append rows lookup, passes⟩

/-- A new account under a new email changes nothing for the others. -/
theorem login_append (rows : grown.rows = table.rows ++ [user])
    (newEmail : user.email ∉ table.rows.map (·.email))
    (newName : user.email ∉ table.rows.map (·.username)) {email password : String}
    {found : User} (logged : login rules email password table = .ok found) :
    login rules email password grown = .ok found := by
  obtain ⟨cleaned, secret, username, cleans, cleansSecret, name, authenticated⟩ :=
    login_eq_ok_iff.mp logged
  have other : user.email ≠ cleaned := by
    intro same
    rcases name with ⟨holder, lookup, _⟩ | ⟨_, rfl⟩
    · have listed : holder ∈ table.rows.filter (·.email = cleaned) := by
        rw [UserTable.getByEmail_eq_ok lookup]
        exact List.mem_singleton_self _
      obtain ⟨member, holds⟩ := List.mem_filter.mp listed
      have holderEmail : holder.email = user.email := by simpa [same] using holds
      exact newEmail (holderEmail ▸ List.mem_map_of_mem member)
    · obtain ⟨lookup, _⟩ := Option.filter_eq_some_iff.mp authenticated
      obtain ⟨member, named⟩ := UserTable.getByUsername_eq_some lookup
      rw [same, ← named] at newName
      exact newName (List.mem_map_of_mem member)
  apply login_eq_ok_iff.mpr
  refine ⟨cleaned, secret, username, cleans, cleansSecret, ?_,
    authenticate_append rows authenticated⟩
  rw [LoginName, getByEmail_append rows other]
  exact name

end Login

section Step

variable {rules : AuthRules} {table next : UserTable} {form : Registration}

/-- A submission changes nothing, or it adds the user of a form that is valid. -/
theorem register_cases (rules : AuthRules) (form : Registration) (table : UserTable) :
    (register rules form table).1 = table ∨
      ∃ email, form.clean rules = some email ∧ fitsColumns (form.user email) ∧
        table.insert? (form.user email) = some (register rules form table).1 := by
  unfold register
  cases cleaned : form.clean rules with
  | none => exact .inl rfl
  | some email =>
      simp only
      split
      · next fits =>
        cases inserted : table.insert? (form.user email) with
        | none => exact .inl rfl
        | some grown => exact .inr ⟨email, rfl, fits, inserted⟩
      · exact .inl rfl

theorem email_ne_empty {email : String} (cleaned : form.clean rules = some email) :
    email ≠ "" := by
  unfold Registration.clean at cleaned
  split at cleaned
  · next first _ _ named _ _ =>
    split_ifs at cleaned
    obtain rfl : first = email := Option.some.inj cleaned
    simpa using (Option.filter_eq_some_iff.mp named).2
  · cases cleaned

theorem emailsDistinct_step (distinct : EmailsDistinct table)
    (condition : SavesNewEmail rules table form) :
    EmailsDistinct (register rules form table).1 := by
  rcases register_cases rules form table with same | ⟨email, cleaned, fits, inserted⟩
  · rw [same]
    exact distinct
  · obtain ⟨fresh, free, rows⟩ := UserTable.insert?_eq_some_iff.mp inserted
    exact (emailsDistinct_append rows (email_ne_empty cleaned)).mpr
      ⟨distinct, condition email cleaned fits fresh free⟩

theorem savesNewEmail_of_distinct (distinct : EmailsDistinct (register rules form table).1) :
    SavesNewEmail rules table form := by
  intro email cleaned fits fresh free
  obtain ⟨grown, inserted⟩ : ∃ grown, table.insert? (form.user email) = some grown :=
    ⟨_, (dif_pos fresh).trans (dif_pos free)⟩
  have registered : (register rules form table).1 = grown := by
    simp only [register, cleaned, fits, inserted, if_true]
  obtain ⟨_, _, rows⟩ := UserTable.insert?_eq_some_iff.mp inserted
  rw [registered] at distinct
  exact ((emailsDistinct_append rows (email_ne_empty cleaned)).mp distinct).2

theorem login_step (condition : SavesNewEmail rules table form) {email password : String}
    {found : User} (logged : login rules email password table = .ok found) :
    login rules email password (register rules form table).1 = .ok found := by
  rcases register_cases rules form table with same | ⟨registered, cleaned, fits, inserted⟩
  · rw [same]
    exact logged
  · obtain ⟨fresh, free, rows⟩ := UserTable.insert?_eq_some_iff.mp inserted
    exact login_append rows (condition registered cleaned fits fresh free) free logged

end Step

/-- From a table whose emails are distinct, and for every sequence of submissions: emails stay
distinct, no lookup of one raises, and whoever could log in still can, if and only if no
registration is saved for an email that a user already has. -/
theorem email_names_one_account_iff (rules : AuthRules) {start : UserTable}
    (distinct : EmailsDistinct start) (forms : List Registration) :
    (registrations rules).Along (KeepsAccounts rules) start forms ↔
      (registrations rules).Meets (SavesNewEmail rules) start forms := by
  constructor
  · intro along
    refine Machine.meets_of_along ?_ along
    intro table form next stepped keeps
    cases stepped
    exact savesNewEmail_of_distinct keeps.distinct
  · intro meets
    let related := fun earlier later : UserTable =>
      (EmailsDistinct earlier → EmailsDistinct later) ∧
        ∀ email password user, login rules email password earlier = .ok user →
          login rules email password later = .ok user
    have along := Machine.along_of_meets EmailsDistinct related
      (fun _ => ⟨id, fun _ _ _ => id⟩)
      (fun one two => ⟨two.1 ∘ one.1, fun _ _ _ => two.2 _ _ _ ∘ one.2 _ _ _⟩)
      ?_ distinct meets
    · refine along.mono ?_
      intro earlier later both
      obtain ⟨before, keeps, logins⟩ := both
      exact ⟨keeps before, fun _ => (keeps before).lookup, logins⟩
    · intro table form next before condition stepped
      cases stepped
      have after := emailsDistinct_step before condition
      exact ⟨after, fun _ => after, fun _ _ _ => login_step condition⟩

/-! ## A superuser and a visitor -/

namespace Sample

/-- Every email and every password is accepted, and a password is stored as it is. -/
def rules : AuthRules where
  cleanEmail := some
  cleanPassword := some
  acceptsPassword := fun _ _ => true
  checkPassword := fun password encoded => password = encoded

def admin : User := ⟨1, "admin", "admin@example.org", "secret", true⟩

def withAdmin : UserTable := ⟨⟨[admin], List.nodup_singleton _⟩, List.nodup_singleton _⟩

def registration (email : String) : Registration := ⟨email, "password", "password", 2, "password"⟩

end Sample

/-- The visitor registers an email of his own. -/
theorem email_names_one_account_visitor :
    (registrations Sample.rules).Along (KeepsAccounts Sample.rules) Sample.withAdmin
      [Sample.registration "visitor@example.org"] := by
  refine (email_names_one_account_iff Sample.rules ?_ _).mpr (.cons ?_ rfl trivial)
  · decide
  · intro email cleaned
    cases cleaned
    intro _ _ _
    decide

/-- The visitor registers the email of the superuser, who can then log in no longer. -/
theorem email_names_two_accounts :
    ¬ ∀ (rules : AuthRules) (start : UserTable), EmailsDistinct start →
      ∀ forms : List Registration,
        (registrations rules).Along (KeepsAccounts rules) start forms := by
  intro keeps
  have along := keeps Sample.rules Sample.withAdmin (by decide)
    [Sample.registration "admin@example.org"]
  have shut := (along [] [Sample.registration "admin@example.org"] [] _ _ rfl rfl rfl).logins
    "admin@example.org" "secret" Sample.admin (by decide)
  exact absurd shut (by decide)

end Doorito.Frontend
