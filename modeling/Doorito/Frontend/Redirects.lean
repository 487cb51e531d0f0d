import Doorito.Frontend.AuthViews
import Doorito.Frontend.Registrations

/-! Where a login or a registration leads. The views follow `next` as they find it. -/

set_option autoImplicit false

namespace Doorito.Frontend

open Foundation Common Accounts FormData

/-- The answer is a redirect to a path or to the site's own host. -/
def AnswersInside (site : Site) (answer : Except ViewError Answer) : Prop :=
  ∃ location, answer = .ok (.redirect location) ∧ Address.StaysOn site.host location

/-- The name of a page, or an address that a redirect takes and that stays on the host. -/
def SafeTarget (site : Site) (target : Text) : Prop :=
  (site.reverse target).isSome ∨
    ('/' ∈ target ∨ '.' ∈ target) ∧ site.accepts target = true ∧
      Address.StaysOn site.host target

/-! ## Redirects -/

section Redirect

variable {site : Site} {target path location : Text}

theorem redirect_of_reverse (named : site.reverse target = some path) :
    redirect site target = .ok (.redirect path) := by
  obtain ⟨plain, _, accepted⟩ := site.routes target path named
  simp only [redirect, resolveUrl, named, if_pos accepted, iriToUri_of_routeChar plain]

theorem reverse_of_mark (mark : '/' ∈ target ∨ '.' ∈ target) : site.reverse target = none := by
  rw [Option.eq_none_iff_forall_ne_some]
  intro path named
  obtain ⟨noSlash, noDot⟩ := site.names target path named
  exact mark.elim noSlash noDot

theorem redirect_of_mark (mark : '/' ∈ target ∨ '.' ∈ target) :
    redirect site target =
      if site.accepts target then .ok (.redirect (iriToUri target))
      else .error (site.refusal target) := by
  simp only [redirect, resolveUrl, reverse_of_mark mark, if_pos mark]

theorem redirect_of_word (unnamed : site.reverse target = none)
    (word : ¬ ('/' ∈ target ∨ '.' ∈ target)) :
    redirect site target = .error .noReverseMatch := by
  simp only [redirect, resolveUrl, unnamed, if_neg word]

theorem redirect_eq_ok_iff :
    redirect site target = .ok (.redirect location) ↔
      site.reverse target = some location ∨
        ('/' ∈ target ∨ '.' ∈ target) ∧ site.accepts target = true ∧
          iriToUri target = location := by
  cases named : site.reverse target with
  | some path =>
      have word : ¬ ('/' ∈ target ∨ '.' ∈ target) := by
        intro mark
        rw [reverse_of_mark mark] at named
        cases named
      rw [redirect_of_reverse named]
      simp only [word, false_and, or_false, Except.ok.injEq, Answer.redirect.injEq,
        Option.some.injEq]
  | none =>
      by_cases mark : '/' ∈ target ∨ '.' ∈ target
      · rw [redirect_of_mark mark]
        split_ifs with accepted
        · simp only [mark, accepted, true_and, false_or, Except.ok.injEq, Answer.redirect.injEq]
        · simp only [accepted, reduceCtorEq, false_or, false_and, and_false]
      · rw [redirect_of_word named mark]
        simp only [mark, reduceCtorEq, false_or, false_and]

theorem redirect_inside_iff (site : Site) (target : Text) :
    AnswersInside site (redirect site target) ↔ SafeTarget site target := by
  constructor
  · rintro ⟨location, answer, stays⟩
    rcases redirect_eq_ok_iff.mp answer with named | ⟨mark, accepted, written⟩
    · exact .inl (by rw [named]; rfl)
    · rw [← written, iriToUri, Address.staysOn_quote_iff keepsAddress_uriPlain] at stays
      exact .inr ⟨mark, accepted, stays⟩
  · rintro (named | ⟨mark, accepted, stays⟩)
    · obtain ⟨path, found⟩ := Option.isSome_iff_exists.mp named
      exact ⟨path, redirect_of_reverse found, .inl (site.routes target path found).2.1⟩
    · refine ⟨iriToUri target, redirect_eq_ok_iff.mpr (.inr ⟨mark, accepted, rfl⟩), ?_⟩
      rw [iriToUri, Address.staysOn_quote_iff keepsAddress_uriPlain]
      exact stays

end Redirect

/-! ## The two views -/

def LoginSucceeds (rules : AuthRules) (request : PageRequest) (table : UserTable)
    (session : Session) : Prop :=
  request.method = .post ∧ session.user = none ∧
    ∃ user, login rules (request.posted "username") (request.posted "password") table = .ok user

def RegisterSucceeds (rules : AuthRules) (request : PageRequest) (pk : Nat) (encoded : String)
    (table : UserTable) (session : Session) : Prop :=
  request.method = .post ∧ session.user = none ∧
    ∃ user, (register rules (request.registration pk encoded) table).2 = .ok (some user)

section Views

variable {site : Site} {rules : AuthRules} {request : PageRequest} {table : UserTable}
  {session : Session} {pk : Nat} {encoded : String}

theorem loginView_of_success (succeeds : LoginSucceeds rules request table session) :
    (loginView site rules request table session).2 = redirectNext site request := by
  obtain ⟨post, anonymous, user, valid⟩ := succeeds
  simp [loginView, post, anonymous, valid]

theorem registerView_of_success
    (succeeds : RegisterSucceeds rules request pk encoded table session) :
    (registerView site rules request pk encoded table session).2.2 =
      redirectNext site request := by
  obtain ⟨post, anonymous, user, saved⟩ := succeeds
  cases result : register rules (request.registration pk encoded) table with
  | mk grown answer =>
      rw [result] at saved
      cases saved
      simp [registerView, post, anonymous, result]

theorem redirectNext_inside_iff (site : Site) (request : PageRequest) :
    AnswersInside site (redirectNext site request) ↔
      ∀ next, request.nextUrl = some next → SafeTarget site next := by
  cases given : request.nextUrl with
  | some next =>
      simp only [redirectNext, given, Option.some.injEq, forall_eq']
      exact redirect_inside_iff site next
  | none =>
      simp only [redirectNext, given, reduceCtorEq, false_implies, implies_true, iff_true]
      exact ⟨_, redirect_of_reverse site.dashboard, .inl (site.routes _ _ site.dashboard).2.1⟩

end Views

/-- For every string in the query or in the form: the answer to a successful login or
registration is a redirect inside the site if and only if the string that is used is missing or
empty, names a page, or is an address that stays on the host. -/
theorem next_redirects_inside_iff (site : Site) (rules : AuthRules) (request : PageRequest)
    (pk : Nat) (encoded : String) (table : UserTable) (session : Session) :
    (LoginSucceeds rules request table session →
      (AnswersInside site (loginView site rules request table session).2 ↔
        ∀ next, request.nextUrl = some next → SafeTarget site next)) ∧
    (RegisterSucceeds rules request pk encoded table session →
      (AnswersInside site (registerView site rules request pk encoded table session).2.2 ↔
        ∀ next, request.nextUrl = some next → SafeTarget site next)) := by
  constructor
  · intro succeeds
    rw [loginView_of_success succeeds]
    exact redirectNext_inside_iff site request
  · intro succeeds
    rw [registerView_of_success succeeds]
    exact redirectNext_inside_iff site request

/-! ## Strings that lead away -/

namespace Sample

/-- The names of `frontend/urls.py`. -/
def urls : List (Text × Text) :=
  [("frontend:login".toList, loginPath), ("frontend:register".toList, "/app/register/".toList),
    ("frontend:logout".toList, "/app/logout/".toList),
    ("frontend:dashboard".toList, dashboardPath),
    ("frontend:upload".toList, "/app/upload/".toList)]

def reverse (name : Text) : Option Text := (urls.find? fun url => url.1 = name).map (·.2)

theorem mem_urls {name path : Text} (found : reverse name = some path) : (name, path) ∈ urls := by
  obtain ⟨url, first, same⟩ := Option.map_eq_some_iff.mp found
  have named : url.1 = name := by simpa using List.find?_some first
  rw [← named, ← same]
  exact List.mem_of_find?_eq_some first

/-- The schemes and the length that a redirect response takes. -/
def accepts (url : Text) : Bool :=
  (Address.scheme? url).all (fun scheme =>
    ["http".toList, "https".toList, "ftp".toList].contains (Address.lower scheme)) &&
      url.length ≤ 16384

def site : Site where
  host := ⟨"localhost:8000".toList, List.all_eq_true.mp rfl⟩
  reverse := reverse
  accepts := accepts
  raisesValueError := fun _ => false
  dashboard := rfl
  names := fun name path found => by
    have all : ∀ url ∈ urls, '/' ∉ url.1 ∧ '.' ∉ url.1 := by decide
    exact all (name, path) (mem_urls found)
  routes := fun name path found => by
    have all : ∀ url ∈ urls, url.2.all routeChar = true ∧
        (Address.scheme? url.2 = none ∧ Address.authority? url.2 = none) ∧
          accepts url.2 = true := by decide
    obtain ⟨plain, path, accepted⟩ := all (name, path) (mem_urls found)
    exact ⟨List.all_eq_true.mp plain, path, accepted⟩

/-- The superuser's login with a value of `next` in the query. -/
def loginWith (next : Text) : PageRequest where
  method := .post
  query := [("next".toList, next)]
  body := [("username".toList, "admin@example.org".toList),
    ("password".toList, "secret".toList)]

/-- The registration of a visitor with a value of `next` in the form. -/
def registerWith (next : Text) : PageRequest where
  method := .post
  query := []
  body := [("next".toList, next), ("email".toList, "visitor@example.org".toList),
    ("password1".toList, "password".toList), ("password2".toList, "password".toList)]

def anonymous : Session := ⟨none, none⟩

theorem loginWith_succeeds (next : Text) :
    LoginSucceeds rules (loginWith next) withAdmin anonymous := by
  have valid : login rules (String.ofList "admin@example.org".toList)
      (String.ofList "secret".toList) withAdmin = .ok admin := by decide
  exact ⟨rfl, rfl, admin, valid⟩

theorem registerWith_succeeds (next : Text) :
    RegisterSucceeds rules (registerWith next) 2 "password" withAdmin anonymous := by
  have same : (registerWith next).registration 2 "password" =
      registration (String.ofList "visitor@example.org".toList) := by
    rw [registration, ← @String.ofList_toList "password"]
    rfl
  have saved : (register rules (registration "visitor@example.org") withAdmin).2 =
      .ok (some ((registration "visitor@example.org").user "visitor@example.org")) := by decide
  rw [String.ofList_toList] at same
  rw [← same] at saved
  exact ⟨rfl, rfl, _, saved⟩

end Sample

theorem next_redirects_inside_upload :
    AnswersInside Sample.site (loginView Sample.site Sample.rules
      (Sample.loginWith "/app/upload/".toList) Sample.withAdmin Sample.anonymous).2 ∧
    AnswersInside Sample.site (registerView Sample.site Sample.rules
      (Sample.registerWith "frontend:upload".toList) 2 "password" Sample.withAdmin
      Sample.anonymous).2.2 := by
  constructor
  · have succeeds := Sample.loginWith_succeeds "/app/upload/".toList
    refine ((next_redirects_inside_iff _ _ _ 2 "password" _ _).1 succeeds).mpr ?_
    intro next used
    cases used
    exact .inr (by decide)
  · refine ((next_redirects_inside_iff _ _ _ _ _ _ _).2 (Sample.registerWith_succeeds _)).mpr ?_
    intro next used
    cases used
    exact .inl (by decide)

/-- A login leads to another host, a registration likewise, and a bare word ends a login in an
exception. -/
theorem next_redirects_outside :
    (LoginSucceeds Sample.rules (Sample.loginWith "https://evil.example/".toList)
        Sample.withAdmin Sample.anonymous ∧
      ¬ AnswersInside Sample.site (loginView Sample.site Sample.rules
        (Sample.loginWith "https://evil.example/".toList) Sample.withAdmin Sample.anonymous).2) ∧
    (RegisterSucceeds Sample.rules (Sample.registerWith "//evil.example/".toList) 2 "password"
        Sample.withAdmin Sample.anonymous ∧
      ¬ AnswersInside Sample.site (registerView Sample.site Sample.rules
        (Sample.registerWith "//evil.example/".toList) 2 "password" Sample.withAdmin
        Sample.anonymous).2.2) ∧
    LoginSucceeds Sample.rules (Sample.loginWith "profile".toList) Sample.withAdmin
        Sample.anonymous ∧
      (loginView Sample.site Sample.rules (Sample.loginWith "profile".toList) Sample.withAdmin
        Sample.anonymous).2 = .error .noReverseMatch := by
  refine ⟨⟨Sample.loginWith_succeeds _, ?_⟩, ⟨Sample.registerWith_succeeds _, ?_⟩,
    Sample.loginWith_succeeds _, by decide⟩
  · rw [loginView_of_success (Sample.loginWith_succeeds _), redirectNext_inside_iff]
    intro safe
    exact absurd (safe _ rfl) (by unfold SafeTarget; decide)
  · rw [registerView_of_success (Sample.registerWith_succeeds _), redirectNext_inside_iff]
    intro safe
    exact absurd (safe _ rfl) (by unfold SafeTarget; decide)

end Doorito.Frontend
