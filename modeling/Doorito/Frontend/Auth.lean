import Doorito.Accounts.Users

/-! Login and registration (`frontend/forms/auth.py`, `frontend/views/auth.py`). Registration
makes the email the username, and login looks the username up by the email. -/

set_option autoImplicit false

namespace Doorito.Frontend

open Foundation Common Accounts

/-- What these forms take from Django and its settings: the cleaning of an email field and of
a password field, which give nothing for a value that they reject, the validators of a new
password, and the check of a password against an encoded one. -/
structure AuthRules where
  cleanEmail : String → Option String
  cleanPassword : String → Option String
  acceptsPassword : String → String → Bool
  checkPassword : String → String → Bool

/-- A required field: an empty value is rejected too. -/
def required (cleaned : Option String) : Option String := cleaned.filter (· ≠ "")

/-! ## Login -/

inductive LoginError where
  | invalid
  | raised (error : LookupError)
deriving DecidableEq, Repr

/-- `ModelBackend.authenticate`. -/
def authenticate (rules : AuthRules) (username password : String) (table : UserTable) :
    Option User :=
  (table.getByUsername username).filter fun user =>
    rules.checkPassword password user.password && user.isActive

/-- `FrontendLoginForm.clean`: the email is replaced by the username of its user, if there is
one, before the parent authenticates. -/
def login (rules : AuthRules) (email password : String) (table : UserTable) :
    Except LoginError User :=
  match required (rules.cleanEmail email) with
  | none => .error .invalid
  | some email =>
      let username : Except LoginError String :=
        match table.getByEmail email with
        | .ok user => .ok user.username
        | .error .doesNotExist => .ok email
        | .error .multipleObjectsReturned => .error (.raised .multipleObjectsReturned)
      match username, required (rules.cleanPassword password) with
      | .error error, _ => .error error
      | .ok _, none => .error .invalid
      | .ok username, some password =>
          match authenticate rules username password table with
          | some user => .ok user
          | none => .error .invalid

/-! ## Registration -/

/-- A submission of the registration form, with the key of the new row and the encoded
password that it gets. -/
structure Registration where
  email : String
  password1 : String
  password2 : String
  pk : Nat
  encoded : String

/-- The email of a form that is valid. Model validation passes over the username, which is
no field of the form. -/
def Registration.clean (rules : AuthRules) (form : Registration) : Option String :=
  match required (rules.cleanEmail form.email), required (rules.cleanPassword form.password1),
    required (rules.cleanPassword form.password2) with
  | some email, some password1, some password2 =>
      if email.length ≤ 254 ∧ password1 = password2 ∧ rules.acceptsPassword email password1 then
        some email
      else none
  | _, _, _ => none

/-- The row that `FrontendRegisterForm.save` writes. -/
def Registration.user (form : Registration) (email : String) : User :=
  { pk := form.pk
    username := email
    email
    password := form.encoded
    isActive := true }

def fitsColumns (user : User) : Bool :=
  user.username.length ≤ 150 && user.email.length ≤ 254 && user.password.length ≤ 128

/-- A POST to `register_view` by somebody who is not logged in; `none` is a form with errors. -/
def register (rules : AuthRules) (form : Registration) (table : UserTable) :
    UserTable × Except DbError (Option User) :=
  match form.clean rules with
  | none => (table, .ok none)
  | some email =>
      let user := form.user email
      if fitsColumns user then
        match table.insert? user with
        | some grown => (grown, .ok (some user))
        | none => (table, .error .integrityError)
      else (table, .error .dataError)

end Doorito.Frontend
