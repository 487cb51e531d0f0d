import Doorito.Foundation.Address
import Doorito.Foundation.FormData
import Doorito.Frontend.Auth
import Doorito.Frontend.Upload

/-! The views for login and registration and the redirect that leads to them
(`frontend/views/auth.py`, `frontend/decorators.py`), with what they take from Django for
addresses and redirects. -/

set_option autoImplicit false

namespace Doorito.Frontend

open Foundation Common Accounts FormData

/-! ## Addresses -/

/-- What `urllib.parse.quote` never escapes. -/
def alwaysSafe (char : Char) : Bool := char.isAlphanum || "_.-~".toList.contains char

/-- What `iri_to_uri` leaves as it is. -/
def uriPlain (char : Char) : Bool :=
  alwaysSafe char || "/#%[]=:;$&()+,!?*@'~".toList.contains char

def iriToUri (iri : Text) : Text := Percent.quote uriPlain iri

/-- What `escape_uri_path` leaves as it is. -/
def pathPlain (char : Char) : Bool :=
  alwaysSafe char || "/:@&+$,-_.!~*'()".toList.contains char

def escapeUriPath (path : Text) : Text := Percent.quote pathPlain path

/-- The path and the query of a request. -/
structure RequestPath where
  path : Text
  query : Text
  rooted : path.head? = some '/'

def RequestPath.getFullPath (request : RequestPath) : Text :=
  escapeUriPath request.path ++
    if request.query = [] then [] else '?' :: iriToUri request.query

/-! ## Redirects -/

def loginPath : Text := "/app/login/".toList

def dashboardPath : Text := "/app/".toList

/-- What the paths of the URL configuration are made of. -/
def routeChar (char : Char) : Bool := char.isAlphanum || "/-_.".toList.contains char

/-- The host of the request, the paths of the names that the URL configuration knows, the
addresses that a redirect response takes, which excludes foreign schemes and long addresses, and
those that it cannot take apart. -/
structure Site where
  host : Address.Host
  reverse : Text → Option Text
  accepts : Text → Bool
  raisesValueError : Text → Bool
  dashboard : reverse "frontend:dashboard".toList = some dashboardPath
  names : ∀ name path, reverse name = some path → '/' ∉ name ∧ '.' ∉ name
  routes : ∀ name path, reverse name = some path →
    (∀ char ∈ path, routeChar char = true) ∧ Address.IsPath path ∧ accepts path = true

inductive ViewError where
  | noReverseMatch
  | disallowedRedirect
  | valueError
  | tooManyFieldsSent
  | lookup (error : LookupError)
  | database (error : DbError)
deriving DecidableEq, Repr

/-- The exceptions that Django answers with a 400; the others end in a 500. -/
def ViewError.isBadRequest : ViewError → Bool
  | .disallowedRedirect | .tooManyFieldsSent => true
  | .noReverseMatch | .valueError | .lookup _ | .database _ => false

/-- A name is looked up first; what has neither a slash nor a dot can only be a name. -/
def resolveUrl (site : Site) (target : Text) : Except ViewError Text :=
  match site.reverse target with
  | some path => .ok path
  | none => if '/' ∈ target ∨ '.' ∈ target then .ok target else .error .noReverseMatch

/-- The views answer with a redirect or with their form, in which `next` is repeated. -/
inductive Answer where
  | redirect (location : Text)
  | page (next : Text)
  | methodNotAllowed
deriving DecidableEq, Repr

def Site.refusal (site : Site) (url : Text) : ViewError :=
  if site.raisesValueError url then .valueError else .disallowedRedirect

def redirect (site : Site) (target : Text) : Except ViewError Answer :=
  match resolveUrl site target with
  | .error error => .error error
  | .ok url =>
      if site.accepts url then .ok (.redirect (iriToUri url)) else .error (site.refusal url)

/-- The answer is a server error. -/
def isServerError : Except ViewError Answer → Bool
  | .ok _ => false
  | .error error => !error.isBadRequest

/-- `frontend_login_required`. -/
def loginAddress (fullPath : Text) : Text :=
  loginPath ++ '?' :: urlencode alwaysSafe [("next".toList, fullPath)]

def frontendLoginRequired (site : Site) (user : Option Nat) (request : RequestPath)
    (view : Except ViewError Answer) : Except ViewError Answer :=
  if user.isSome then view else redirect site (loginAddress request.getFullPath)

/-! ## Views -/

/-- A request, with what Django has read of its query and of its body. -/
structure PageRequest where
  method : Method
  query : Fields
  body : Fields

def PageRequest.posted (request : PageRequest) (name : String) : String :=
  String.ofList ((get request.body name.toList).getD [])

/-- The value of `next` that the views follow: an empty one counts as missing, and the one in
the query goes before the one in the form. -/
def PageRequest.nextUrl (request : PageRequest) : Option Text :=
  ((get request.query "next".toList).filter (· ≠ [])).or
    ((get request.body "next".toList).filter (· ≠ []))

/-- A checkbox that is sent is checked, unless its value says that it is not. -/
def PageRequest.rememberMe (request : PageRequest) : Bool :=
  match get request.body "remember_me".toList with
  | none => false
  | some value => value ≠ [] && Address.lower value ≠ "false".toList

/-- Who is logged in, and the seconds after which the session ends, if the view sets them. -/
structure Session where
  user : Option Nat
  expiry : Option Nat
deriving DecidableEq, Repr

/-- The session that is left when the view has logged somebody in: the session middleware saves
none for a server error, and the login has already deleted the one before. -/
def Session.afterLogin (session : Session) (answer : Except ViewError Answer) : Session :=
  if isServerError answer then ⟨none, none⟩ else session

def redirectNext (site : Site) (request : PageRequest) : Except ViewError Answer :=
  match request.nextUrl with
  | some next => redirect site next
  | none => redirect site "frontend:dashboard".toList

def formPage (request : PageRequest) : Answer :=
  .page ((get request.query "next".toList).getD [])

def loginView (site : Site) (rules : AuthRules) (request : PageRequest) (table : UserTable)
    (session : Session) : Session × Except ViewError Answer :=
  if request.method = .other then (session, .ok .methodNotAllowed)
  else if session.user.isSome then (session, redirect site "frontend:dashboard".toList)
  else if request.method = .post then
    match login rules (request.posted "username") (request.posted "password") table with
    | .ok user =>
        let started : Session :=
          { user := some user.pk, expiry := some (if request.rememberMe then 2592000 else 0) }
        let answer := redirectNext site request
        (started.afterLogin answer, answer)
    | .error .invalid => (session, .ok (formPage request))
    | .error (.raised error) => (session, .error (.lookup error))
  else (session, .ok (formPage request))

/-- The form of a registration, with what the world gives its new row. -/
def PageRequest.registration (request : PageRequest) (pk : Nat) (encoded : String) :
    Registration :=
  { email := request.posted "email"
    password1 := request.posted "password1"
    password2 := request.posted "password2"
    pk
    encoded }

def registerView (site : Site) (rules : AuthRules) (request : PageRequest) (pk : Nat)
    (encoded : String) (table : UserTable) (session : Session) :
    UserTable × Session × Except ViewError Answer :=
  if request.method = .other then (table, session, .ok .methodNotAllowed)
  else if session.user.isSome then
    (table, session, redirect site "frontend:dashboard".toList)
  else if request.method = .post then
    match register rules (request.registration pk encoded) table with
    | (grown, .ok (some user)) =>
        let started : Session := { session with user := some user.pk }
        let answer := redirectNext site request
        (grown, started.afterLogin answer, answer)
    | (left, .ok none) => (left, session, .ok (formPage request))
    | (left, .error error) => (left, session, .error (.database error))
  else (table, session, .ok (formPage request))

/-! ## Characters that are kept -/

theorem isAlphanum_of_hexValue? {char : Char} (digit : Percent.hexValue? char ≠ none) :
    char.isAlphanum = true := by
  rcases Percent.hexValue?_range digit with number | upper | lower
  · have isDigit : char.isDigit = true :=
      (Bool.and_eq_true ..).mpr ⟨decide_eq_true number.1, decide_eq_true number.2⟩
    exact (Bool.or_eq_true ..).mpr (.inr isDigit)
  · have below : 'F'.val ≤ 'Z'.val := by decide
    have isUpper : char.isUpper = true :=
      decide_eq_true ⟨upper.1, UInt32.le_trans upper.2 below⟩
    exact (Bool.or_eq_true ..).mpr (.inl ((Bool.or_eq_true ..).mpr (.inl isUpper)))
  · have below : 'f'.val ≤ 'z'.val := by decide
    have isLower : char.isLower = true := (Bool.and_eq_true ..).mpr
      ⟨decide_eq_true lower.1, decide_eq_true (UInt32.le_trans lower.2 below)⟩
    exact (Bool.or_eq_true ..).mpr (.inl ((Bool.or_eq_true ..).mpr (.inr isLower)))

theorem keepsEscapes_of_alwaysSafe {plain : Char → Bool}
    (safe : ∀ char, alwaysSafe char = true → plain char = true) (percent : plain '%' = true)
    (plus : plain '+' = true) : Percent.KeepsEscapes plain where
  percent
  plus
  digits char digit := safe char (by rw [alwaysSafe, isAlphanum_of_hexValue? digit, Bool.true_or])

theorem uriPlain_of_alwaysSafe (char : Char) (safe : alwaysSafe char = true) :
    uriPlain char = true := by
  rw [uriPlain, safe, Bool.true_or]

theorem keepsFields_uriPlain : KeepsFields uriPlain where
  toKeepsEscapes := keepsEscapes_of_alwaysSafe uriPlain_of_alwaysSafe rfl rfl
  ampersand := rfl
  equals := rfl

theorem uriPlain_of_listed (marks : List Char) (all : marks.all uriPlain = true)
    (char : Char) (member : (char.isAlphanum || marks.contains char) = true) :
    uriPlain char = true := by
  rcases (Bool.or_eq_true ..).mp member with plain | mark
  · exact uriPlain_of_alwaysSafe char (by rw [alwaysSafe, plain, Bool.true_or])
  · exact List.all_eq_true.mp all char (List.contains_iff_mem.mp mark)

theorem keepsAddress_uriPlain : Address.KeepsAddress uriPlain where
  slash := rfl
  question := rfl
  hash := rfl
  host := uriPlain_of_listed "-.:[]_".toList rfl
  scheme := uriPlain_of_listed "+-.".toList rfl

theorem iriToUri_of_routeChar {path : Text} (all : ∀ char ∈ path, routeChar char = true) :
    iriToUri path = path :=
  Percent.quote_of_plain fun char member =>
    uriPlain_of_listed "/-_.".toList rfl char (all char member)

end Doorito.Frontend
