import Doorito.Frontend.SiteWorld

/-! Who is signed in. A session names a user only after its client has posted the password of
that user or has registered the user, and it does so until the client logs out or the session
expires; nothing that other clients do changes it. -/

set_option autoImplicit false

namespace Doorito.Frontend

open Foundation Common Accounts Portal Machine

/-- The password is the one of the user, who may log in. -/
def PostsPassword (rules : AuthRules) (request : PageRequest) (user : User) : Prop :=
  ∃ secret, required (rules.cleanPassword (request.posted "password")) = some secret ∧
    rules.checkPassword secret user.password = true ∧ user.isActive = true

/-- The address stands for the user: it is the email of nobody else, or of nobody and the
username. -/
def PostsAddress (rules : AuthRules) (request : PageRequest) (table : UserTable) (user : User) :
    Prop :=
  ∃ address, required (rules.cleanEmail (request.posted "username")) = some address ∧
    LoginName table address user.username

section Site

variable {Client : Type} [DecidableEq Client]

/-- A request of the client, who is not signed in: a login with address and password of the
user, or a registration that is saved as the user, and no server error in the redirect. -/
def SignsIn (site : Site) (rules : AuthRules) (client : Client) (pk : Nat)
    (world : SiteWorld Client) : SiteAction Client → Prop
  | .login other request =>
      other = client ∧ request.method = .post ∧ (world.sessions client).user = none ∧
        isServerError (redirectNext site request) = false ∧
        ∃ user ∈ world.users.rows, user.pk = pk ∧
          PostsAddress rules request world.users user ∧ PostsPassword rules request user
  | .register other request new encoded =>
      other = client ∧ request.method = .post ∧ (world.sessions client).user = none ∧
        isServerError (redirectNext site request) = false ∧ new = pk ∧
        ∃ user, (register rules (request.registration new encoded) world.users).2 =
          .ok (some user)
  | _ => False

def SignsOut (client : Client) : SiteAction Client → Prop
  | .logout other | .expire other => other = client
  | _ => False

end Site

/-! ## The table of users -/

/-- Users are added at the end, each under its email. -/
def UsersGrow (earlier later : UserTable) : Prop :=
  ∃ more, later.rows = earlier.rows ++ more ∧ ∀ user ∈ more, user.email = user.username

theorem UsersGrow.refl (table : UserTable) : UsersGrow table table :=
  ⟨[], (List.append_nil _).symm, List.forall_mem_nil _⟩

theorem UsersGrow.trans {first second third : UserTable} (one : UsersGrow first second)
    (two : UsersGrow second third) : UsersGrow first third := by
  obtain ⟨some, rows, named⟩ := one
  obtain ⟨more, moreRows, moreNamed⟩ := two
  refine ⟨some ++ more, by rw [moreRows, rows, List.append_assoc], ?_⟩
  intro user member
  rcases List.mem_append.mp member with old | new
  · exact named user old
  · exact moreNamed user new

theorem UsersGrow.subset {earlier later : UserTable} (grow : UsersGrow earlier later) :
    earlier.rows ⊆ later.rows := by
  obtain ⟨more, rows, _⟩ := grow
  rw [rows]
  exact List.subset_append_left _ _

theorem UsersGrow.of_insert {table grown : UserTable} {user : User}
    (named : user.email = user.username) (inserted : table.insert? user = some grown) :
    UsersGrow table grown := by
  refine ⟨[user], (UserTable.insert?_eq_some_iff.mp inserted).2.2, ?_⟩
  intro other member
  rw [List.mem_singleton.mp member]
  exact named

theorem usersGrow_register (rules : AuthRules) (form : Registration) (table : UserTable) :
    UsersGrow table (register rules form table).1 := by
  rcases register_cases rules form table with same | ⟨email, _, _, inserted⟩
  · rw [same]
    exact .refl table
  · exact .of_insert rfl inserted

/-! ## The views -/

section Views

variable {site : Site} {rules : AuthRules} {request : PageRequest} {table : UserTable}
  {session : Session} {pk : Nat} {encoded : String}

theorem login_eq_ok_iff_posts {user : User} :
    login rules (request.posted "username") (request.posted "password") table = .ok user ↔
      user ∈ table.rows ∧ PostsAddress rules request table user ∧
        PostsPassword rules request user := by
  rw [login_eq_ok_iff]
  constructor
  · intro logged
    obtain ⟨address, secret, username, cleans, cleansSecret, name, authenticated⟩ := logged
    obtain ⟨found, passes⟩ := Option.filter_eq_some_iff.mp authenticated
    obtain ⟨member, rfl⟩ := UserTable.getByUsername_eq_some found
    have checked := (Bool.and_eq_true ..).mp passes
    exact ⟨member, ⟨address, cleans, name⟩, secret, cleansSecret, checked⟩
  · intro posts
    obtain ⟨member, ⟨address, cleans, name⟩, secret, cleansSecret, checked⟩ := posts
    refine ⟨address, secret, user.username, cleans, cleansSecret, name, ?_⟩
    exact Option.filter_eq_some_iff.mpr
      ⟨UserTable.getByUsername_of_mem member, (Bool.and_eq_true ..).mpr checked⟩

theorem exists_login_iff_posts :
    (∃ user, login rules (request.posted "username") (request.posted "password") table =
      .ok user ∧ user.pk = pk) ↔
    ∃ user ∈ table.rows, user.pk = pk ∧ PostsAddress rules request table user ∧
      PostsPassword rules request user := by
  simp only [login_eq_ok_iff_posts]
  exact exists_congr fun user => by tauto

theorem user_loginView :
    (loginView site rules request table session).1.user = some pk ↔
      session.user = some pk ∨ request.method = .post ∧ session.user = none ∧
        isServerError (redirectNext site request) = false ∧
        ∃ user ∈ table.rows, user.pk = pk ∧ PostsAddress rules request table user ∧
          PostsPassword rules request user := by
  rw [← exists_login_iff_posts]
  unfold loginView
  cases method : request.method with
  | other => simp
  | get => cases signed : session.user <;> simp [signed]
  | post =>
      cases signed : session.user with
      | some other => simp [signed]
      | none =>
          cases logged : login rules (request.posted "username") (request.posted "password")
              table with
          | ok user => cases failed : isServerError (redirectNext site request) <;>
              simp [Session.afterLogin, failed]
          | error error => cases error <;> simp [signed]

/-- A registration that is saved has added its user. -/
theorem register_saved {form : Registration} {user : User}
    (saved : (register rules form table).2 = .ok (some user)) :
    ∃ email, form.clean rules = some email ∧ user = form.user email ∧
      table.insert? user = some (register rules form table).1 := by
  unfold register at saved ⊢
  cases cleaned : form.clean rules with
  | none =>
      rw [cleaned] at saved
      cases saved
  | some email =>
      simp only [cleaned] at saved ⊢
      split at saved
      · next fits =>
        split at saved <;> cases saved
        next grown inserted =>
        exact ⟨email, rfl, rfl, by simp only [if_pos fits, inserted]⟩
      · cases saved

theorem user_registerView {wanted : Nat} :
    (registerView site rules request pk encoded table session).2.1.user = some wanted ↔
      session.user = some wanted ∨ request.method = .post ∧ session.user = none ∧
        isServerError (redirectNext site request) = false ∧ pk = wanted ∧
        ∃ user, (register rules (request.registration pk encoded) table).2 =
          .ok (some user) := by
  unfold registerView
  cases method : request.method with
  | other => simp
  | get => cases signed : session.user <;> simp [signed]
  | post =>
      cases signed : session.user with
      | some other => simp [signed]
      | none =>
          cases result : register rules (request.registration pk encoded) table with
          | mk left answer =>
              cases answer with
              | error error => simp [signed]
              | ok saved =>
                  cases saved with
                  | none => simp [signed]
                  | some user =>
                      have saved : (register rules (request.registration pk encoded) table).2 =
                          .ok (some user) := congrArg Prod.snd result
                      obtain ⟨email, _, rfl, _⟩ := register_saved saved
                      cases failed : isServerError (redirectNext site request) <;>
                        simp [Session.afterLogin, failed, Registration.user,
                          PageRequest.registration]

theorem table_registerView (site : Site) (rules : AuthRules) (request : PageRequest) (pk : Nat)
    (encoded : String) (table : UserTable) (session : Session) :
    (registerView site rules request pk encoded table session).1 = table ∨
      (registerView site rules request pk encoded table session).1 =
        (register rules (request.registration pk encoded) table).1 := by
  unfold registerView
  split_ifs
  · exact .inl rfl
  · exact .inl rfl
  · cases result : register rules (request.registration pk encoded) table with
    | mk left answer =>
        cases answer with
        | error error => exact .inr rfl
        | ok saved => cases saved <;> exact .inr rfl
  · exact .inl rfl

theorem registerView_saved {user : User} (posts : request.method = .post)
    (anonymous : session.user = none)
    (saved : (register rules (request.registration pk encoded) table).2 = .ok (some user)) :
    registerView site rules request pk encoded table session =
      ((register rules (request.registration pk encoded) table).1,
        { session with user := some user.pk : Session }.afterLogin (redirectNext site request),
        redirectNext site request) := by
  cases result : register rules (request.registration pk encoded) table with
  | mk left answer =>
      rw [result] at saved
      cases saved
      simp [registerView, posts, anonymous, result]

end Views

/-! ## Runs -/

section Runs

variable {Client : Type} [DecidableEq Client] {settings : Settings} {site : Site}
  {rules : AuthRules} {start world next : SiteWorld Client} {client : Client} {pk : Nat}

/-- The sessions of the others stay as they are. -/
theorem user_setSession {other : Client} {session : Session} :
    ((world.setSession other session).sessions client).user =
      if other = client then session.user else (world.sessions client).user := by
  by_cases same : other = client
  · subst same
    simp [SiteWorld.setSession]
  · simp [SiteWorld.setSession, same, Function.update_of_ne (Ne.symm same)]

theorem signedIn_step {action : SiteAction Client}
    (stepped : (website settings site rules).step world action = some next) :
    (next.sessions client).user = some pk ↔
      SignsIn site rules client pk world action ∨
        (world.sessions client).user = some pk ∧ ¬ SignsOut client action := by
  cases action with
  | login other request =>
      cases stepped
      rw [user_setSession]
      by_cases same : other = client
      · subst same
        simp only [if_true, user_loginView, SignsIn, SignsOut, true_and, not_false_eq_true,
          and_true]
        exact or_comm
      · simp [same, SignsIn, SignsOut]
  | register other request new encoded =>
      cases stepped
      change ((world.setSession other (registerView site rules request new encoded world.users
        (world.sessions other)).2.1).sessions client).user = some pk ↔ _
      rw [user_setSession]
      by_cases same : other = client
      · subst same
        simp only [if_true, user_registerView, SignsIn, SignsOut, true_and, not_false_eq_true,
          and_true]
        exact or_comm
      · simp [same, SignsIn, SignsOut]
  | logout other | expire other =>
      cases stepped
      rw [user_setSession]
      by_cases same : other = client <;> simp [same, SignsIn, SignsOut, logoutView]
  | post other request =>
      simp only [website] at stepped
      split at stepped <;> cases stepped <;> simp [SignsIn, SignsOut]
  | createFile number =>
      simp only [website] at stepped
      split at stepped
      · split at stepped <;> cases stepped
        simp [SiteWorld.setRequest, SignsIn, SignsOut]
      · cases stepped
  | finalize number =>
      simp only [website] at stepped
      split at stepped
      · split at stepped <;> cases stepped
        simp [SiteWorld.setRequest, SignsIn, SignsOut]
      · cases stepped

theorem users_step {action : SiteAction Client}
    (stepped : (website settings site rules).step world action = some next) :
    UsersGrow world.users next.users := by
  cases action with
  | login other request | logout other | expire other =>
      cases stepped
      exact .refl _
  | register other request new encoded =>
      cases stepped
      change UsersGrow world.users (registerView site rules request new encoded world.users
        (world.sessions other)).1
      rcases table_registerView site rules request new encoded world.users
        (world.sessions other) with same | registered
      · rw [same]
        exact .refl _
      · rw [registered]
        exact usersGrow_register ..
  | post other request =>
      simp only [website] at stepped
      split at stepped <;> cases stepped <;> exact .refl _
  | createFile number =>
      simp only [website] at stepped
      split at stepped
      · split at stepped <;> cases stepped
        exact .refl _
      · cases stepped
  | finalize number =>
      simp only [website] at stepped
      split at stepped
      · split at stepped <;> cases stepped
        exact .refl _
      · cases stepped

theorem users_run {actions : List (SiteAction Client)}
    (ran : (website settings site rules).run start actions = some next) :
    UsersGrow start.users next.users := by
  have step : ∀ (state : SiteWorld Client) action later, UsersGrow start.users state.users →
      (website settings site rules).step state action = some later →
        UsersGrow start.users later.users := by
    intro state action later before stepped
    exact before.trans (users_step stepped)
  exact run_preserves step (.refl _) ran

/-- A client is signed in as a user who is there. -/
theorem signsIn_known {action : SiteAction Client}
    (signs : SignsIn site rules client pk world action)
    (stepped : (website settings site rules).step world action = some next) :
    ∃ user ∈ next.users.rows, user.pk = pk := by
  cases action with
  | login other request =>
      obtain ⟨_, _, _, _, user, member, key, _⟩ := signs
      exact ⟨user, (users_step stepped).subset member, key⟩
  | register other request new encoded =>
      obtain ⟨rfl, posts, anonymous, _, rfl, user, saved⟩ := signs
      obtain ⟨email, _, rfl, inserted⟩ := register_saved saved
      obtain ⟨_, _, rows⟩ := UserTable.insert?_eq_some_iff.mp inserted
      simp only [website, registerView_saved posts anonymous saved, Option.some.injEq] at stepped
      subst stepped
      refine ⟨(request.registration new encoded).user email, ?_, rfl⟩
      rw [rows]
      exact List.mem_append_right _ List.mem_cons_self
  | logout | expire | post | createFile | finalize => exact signs.elim

theorem signedIn_known {actions : List (SiteAction Client)}
    (nobody : ∀ client, (start.sessions client).user = none)
    (ran : (website settings site rules).run start actions = some next)
    (signedIn : (next.sessions client).user = some pk) :
    ∃ user ∈ next.users.rows, user.pk = pk := by
  have step : ∀ state action later,
      (∀ pk, (state.sessions client).user = some pk → ∃ user ∈ state.users.rows, user.pk = pk) →
      (website settings site rules).step state action = some later →
        ∀ pk, (later.sessions client).user = some pk →
          ∃ user ∈ later.users.rows, user.pk = pk := by
    intro state action later known stepped pk signedIn
    rcases (signedIn_step stepped).mp signedIn with signs | ⟨before, _⟩
    · exact signsIn_known signs stepped
    · obtain ⟨user, member, key⟩ := known pk before
      exact ⟨user, (users_step stepped).subset member, key⟩
  refine run_preserves step ?_ ran pk signedIn
  intro other signed
  rw [nobody client] at signed
  cases signed

theorem signedIn_iff_since {actions : List (SiteAction Client)}
    (nobody : ∀ client, (start.sessions client).user = none)
    (ran : (website settings site rules).run start actions = some next) :
    (next.sessions client).user = some pk ↔
      (website settings site rules).Since (SignsIn site rules client pk) (SignsOut client) start
        actions := by
  refine run_since_iff (fun world => (world.sessions client).user = some pk) ?_
    (fun _ _ _ stepped => signedIn_step stepped) ran
  simp [nobody client]

end Runs

/-- In every run from a state in which nobody is signed in: a client is signed in as a user
exactly if the client, while not signed in, has posted the address and the password of that user
or has registered the user, with no server error for an answer, and has neither logged out nor
lost the session since. -/
theorem sessions_follow_credentials {Client : Type} [DecidableEq Client] {settings : Settings}
    {site : Site} {rules : AuthRules} {start final : SiteWorld Client}
    {actions : List (SiteAction Client)}
    (nobody : ∀ client, (start.sessions client).user = none)
    (ran : (website settings site rules).run start actions = some final) (client : Client)
    (pk : Nat) :
    ((final.sessions client).user = some pk ↔
        (website settings site rules).Since (SignsIn site rules client pk) (SignsOut client) start
          actions) ∧
      ((final.sessions client).user = some pk → ∃ user ∈ final.users.rows, user.pk = pk) :=
  ⟨signedIn_iff_since nobody ran, signedIn_known nobody ran⟩

/-! ## The superuser logs in -/

namespace Sample

/-- Clients are numbered, and none of them is signed in. -/
def opening : SiteWorld Nat := ⟨withAdmin, fun _ => anonymous, .empty, []⟩

def adminLogin : PageRequest := loginWith "/app/upload/".toList

theorem adminLogin_posts : ∃ user ∈ withAdmin.rows, user.pk = 1 ∧
    PostsAddress rules adminLogin withAdmin user ∧ PostsPassword rules adminLogin user := by
  have valid : login rules (adminLogin.posted "username") (adminLogin.posted "password")
      withAdmin = .ok admin := by decide
  obtain ⟨member, address, password⟩ := login_eq_ok_iff_posts.mp valid
  exact ⟨admin, member, rfl, address, password⟩

end Sample

/-- Another client logs out in between. -/
theorem sessions_follow_credentials_admin : ∃ final,
    (website Sample.settings Sample.site Sample.rules).run Sample.opening
      [.login 0 Sample.adminLogin, .logout 1] = some final ∧
    (final.sessions 0).user = some 1 := by
  let site : Machine (SiteWorld Nat) (SiteAction Nat) :=
    website Sample.settings Sample.site Sample.rules
  obtain ⟨final, ran⟩ : ∃ final, site.run Sample.opening
      [.login 0 Sample.adminLogin, .logout 1] = some final := ⟨_, rfl⟩
  refine ⟨final, ran, ((sessions_follow_credentials (fun _ => rfl) ran 0 1).1).mpr ?_⟩
  refine ⟨[], _, _, _, rfl, rfl, ⟨rfl, rfl, rfl, rfl, Sample.adminLogin_posts⟩, ?_⟩
  intro later member
  rw [List.mem_singleton.mp member]
  exact Nat.one_ne_zero

end Doorito.Frontend
