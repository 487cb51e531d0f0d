import Doorito.Frontend.RegistrationForms
import Doorito.Frontend.SignedIn

/-! Registering and logging in. Whatever is registered later, under whatever emails, the address
and the password of a registration log in as its user; only a user who has had the email before,
under another username, keeps everybody out. -/

set_option autoImplicit false

namespace Doorito.Frontend

open Foundation Common Accounts Portal Machine

/-- The form for the login is filled in as the one for the registration was. -/
structure SameCredentials (login registration : PageRequest) : Prop where
  posts : login.method = .post
  address : login.posted "username" = registration.posted "email"
  password : login.posted "password" = registration.posted "password1"

/-- The stored password is an encoding of the one that was posted. -/
def Encodes (rules : AuthRules) (registration : PageRequest) (encoded : String) : Prop :=
  ∀ secret, required (rules.cleanPassword (registration.posted "password1")) = some secret →
    rules.checkPassword secret encoded = true

section Table

variable {rules : AuthRules} {table grown final : UserTable} {user : User}

/-- Users who come later have other emails than one whose email is the username. -/
theorem filter_email_of_grow (named : user.email = user.username)
    (rows : grown.rows = table.rows ++ [user]) (grow : UsersGrow grown final) :
    final.rows.filter (·.email = user.email) =
      table.rows.filter (·.email = user.email) ++ [user] := by
  obtain ⟨more, finalRows, moreNamed⟩ := grow
  have none : more.filter (·.email = user.email) = [] := by
    rw [List.filter_eq_nil_iff]
    intro other member
    have distinct := final.usernames
    change (final.rows.map (·.username)).Nodup at distinct
    rw [finalRows, List.map_append, List.nodup_append] at distinct
    have earlier : user.username ∈ grown.rows.map (·.username) := by
      rw [rows, List.map_append]
      exact List.mem_append_right _ List.mem_cons_self
    have apart := distinct.2.2 _ earlier _ (List.mem_map_of_mem member)
    simp only [decide_eq_true_eq, moreNamed other member, named]
    exact fun same => apart same.symm
  rw [finalRows, rows, List.filter_append, List.filter_append, none, List.append_nil]
  simp

theorem getByEmail_of_grow_iff (named : user.email = user.username)
    (rows : grown.rows = table.rows ++ [user]) (grow : UsersGrow grown final) :
    (user.email ∉ table.rows.map (·.email) → final.getByEmail user.email = .ok user) ∧
      (user.email ∈ table.rows.map (·.email) →
        final.getByEmail user.email = .error .multipleObjectsReturned) := by
  have listed := filter_email_of_grow named rows grow
  unfold UserTable.getByEmail
  rw [listed]
  constructor
  · intro new
    have none : table.rows.filter (·.email = user.email) = [] := by
      rw [List.filter_eq_nil_iff]
      intro other member
      simp only [decide_eq_true_eq]
      exact fun same => new (same ▸ List.mem_map_of_mem member)
    rw [none]
    rfl
  · intro taken
    obtain ⟨other, member, same⟩ := List.mem_map.mp taken
    have kept : other ∈ table.rows.filter (·.email = user.email) :=
      List.mem_filter.mpr ⟨member, by simpa using same⟩
    cases found : table.rows.filter (·.email = user.email) with
    | nil =>
        rw [found] at kept
        cases kept
    | cons first rest => cases rest <;> rfl

theorem login_of_grow_iff {form : Registration} {email : String}
    (cleaned : form.clean rules = some email)
    (encodes : ∀ secret, required (rules.cleanPassword form.password1) = some secret →
      rules.checkPassword secret form.encoded = true)
    (rows : grown.rows = table.rows ++ [form.user email]) (grow : UsersGrow grown final) :
    (∃ user, login rules form.email form.password1 final = .ok user ∧ user.pk = form.pk) ↔
      email ∉ table.rows.map (·.email) := by
  have lookup := getByEmail_of_grow_iff rfl rows grow
  obtain ⟨cleansEmail, _, secret, cleansSecret, _⟩ := clean_eq_some_iff.mp cleaned
  constructor
  · intro logged taken
    obtain ⟨user, logged, _⟩ := logged
    obtain ⟨address, _, _, cleans, _, name, _⟩ := login_eq_ok_iff.mp logged
    obtain rfl := Option.some.inj (cleansEmail.symm.trans cleans)
    have several : final.getByEmail email = .error .multipleObjectsReturned := lookup.2 taken
    simp [LoginName, several] at name
  · intro new
    have found : final.getByEmail email = .ok (form.user email) := lookup.1 new
    have member : form.user email ∈ final.rows := by
      apply grow.subset
      rw [rows]
      exact List.mem_append_right _ List.mem_cons_self
    refine ⟨form.user email, login_eq_ok_iff.mpr ⟨email, secret, email, cleansEmail, cleansSecret,
      .inl ⟨_, found, rfl⟩, ?_⟩, rfl⟩
    exact Option.filter_eq_some_iff.mpr ⟨UserTable.getByUsername_of_mem member,
      (Bool.and_eq_true ..).mpr ⟨encodes secret cleansSecret, rfl⟩⟩

end Table

/-- Once a client has registered a user, and whatever all clients do from then on: a login with
the address and the password of the registration, whose redirect is no server error, signs in as
that user if and only if no user had the email when the registration was saved. -/
theorem registered_users_log_in_iff {Client : Type} [DecidableEq Client] {settings : Settings}
    {site : Site} {rules : AuthRules} {world final : SiteWorld Client} {client : Client}
    {registration : PageRequest} {pk : Nat} {encoded : String}
    {actions : List (SiteAction Client)}
    (succeeds : RegisterSucceeds rules registration pk encoded world.users
      (world.sessions client))
    (encodes : Encodes rules registration encoded)
    (ran : (website settings site rules).run world
      (.register client registration pk encoded :: actions) = some final)
    {request : PageRequest} (same : SameCredentials request registration)
    (redirects : isServerError (redirectNext site request) = false) {session : Session}
    (signedOut : session.user = none) :
    (loginView site rules request final.users session).1.user = some pk ↔
      ∀ email, (registration.registration pk encoded).clean rules = some email →
        email ∉ world.users.rows.map (·.email) := by
  obtain ⟨posts, anonymous, user, saved⟩ := succeeds
  obtain ⟨next, stepped, later⟩ := (website settings site rules).run_cons_eq_some_iff.mp ran
  obtain ⟨email, cleaned, rfl, inserted⟩ := register_saved saved
  obtain ⟨_, _, rows⟩ := UserTable.insert?_eq_some_iff.mp inserted
  simp only [website, registerView_saved posts anonymous saved, Option.some.injEq] at stepped
  subst stepped
  have grow := users_run later
  have logs := login_of_grow_iff cleaned encodes rows grow
  have view : (loginView site rules request final.users session).1.user = some pk ↔
      ∃ user, login rules (request.posted "username") (request.posted "password") final.users =
        .ok user ∧ user.pk = pk := by
    rw [user_loginView, ← exists_login_iff_posts]
    simp [signedOut, same.posts, redirects]
  rw [view, same.address, same.password]
  simp only [cleaned, Option.some.injEq, forall_eq']
  exact logs

/-! ## A visitor who comes back -/

namespace Sample

def visitorLogin : PageRequest where
  method := .post
  query := []
  body := [("username".toList, "visitor@example.org".toList),
    ("password".toList, "password".toList)]

/-- Between the visits, somebody else tries to register the same email. -/
def visits : List (SiteAction Nat) :=
  [.logout 0, .register 1 (registerWith []) 3 "password"]

end Sample

theorem registered_users_log_in_iff_visitor : ∃ final,
    (website Sample.settings Sample.site Sample.rules).run Sample.opening
      (.register 0 (Sample.registerWith []) 2 "password" :: Sample.visits) = some final ∧
    (loginView Sample.site Sample.rules Sample.visitorLogin final.users
      Sample.anonymous).1.user = some 2 := by
  obtain ⟨final, ran⟩ : ∃ final, (website Sample.settings Sample.site Sample.rules).run
      Sample.opening (.register 0 (Sample.registerWith []) 2 "password" :: Sample.visits) =
        some final := ⟨_, rfl⟩
  refine ⟨final, ran, (registered_users_log_in_iff (Sample.registerWith_succeeds []) ?_ ran
    ⟨rfl, rfl, rfl⟩ rfl rfl).mpr ?_⟩
  · intro secret cleans
    obtain ⟨is, _⟩ := Option.filter_eq_some_iff.mp cleans
    cases is
    decide
  · intro email cleaned
    obtain ⟨cleans, _⟩ := clean_eq_some_iff.mp cleaned
    obtain ⟨is, _⟩ := Option.filter_eq_some_iff.mp cleans
    cases is
    decide

end Doorito.Frontend
