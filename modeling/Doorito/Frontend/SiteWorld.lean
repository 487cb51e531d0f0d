import Doorito.Foundation.Since
import Doorito.Frontend.Redirects
import Doorito.Frontend.UploadRequests
import Mathlib.Logic.Function.Basic

/-! The site as a machine. A request to the pages for login, registration and logout is one
step. A POST to the upload page is a step for each of its calls, which commit for themselves, so
other requests are served between them; one that takes no further step has died. -/

set_option autoImplicit false

namespace Doorito.Frontend

open Foundation Common Accounts Portal Machine

def logoutView (site : Site) : Session × Except ViewError Answer :=
  (⟨none, none⟩, redirect site "frontend:login".toList)

/-- A POST to the upload page that has created its batch. -/
structure OpenRequest where
  user : Nat
  batch : BatchInput
  remaining : List SubmittedFile
  results : List UploadFile

/-- `upload_view` up to the commit of its batch; nothing is left of a request that ends
before. -/
def UploadRequest.begin (request : UploadRequest) (state : UploadState) :
    Option (UploadState × OpenRequest) :=
  match request.user, request.method with
  | some user, .post =>
      if request.files = [] ∨ request.files.length > maxFilesPerRequest then none
      else
        match request.batch.createFails with
        | some _ => none
        | none =>
            match createBatch request.batch.createdAt request.batch.pk (some user) ""
                state.database with
            | .error _ => none
            | .ok database =>
                some ({ state with database }, ⟨user, request.batch, request.files, []⟩)
  | _, _ => none

/-- What clients have in their sessions, and the requests that are under way, in the order of
their first steps; one that has ended is `none`. -/
structure SiteWorld (Client : Type) where
  users : UserTable
  sessions : Client → Session
  uploads : UploadState
  requests : List (Option OpenRequest)

/-- `expire` is the end of a session that nobody has logged out of. -/
inductive SiteAction (Client : Type) where
  | login (client : Client) (request : PageRequest)
  | register (client : Client) (request : PageRequest) (pk : Nat) (encoded : String)
  | logout (client : Client)
  | expire (client : Client)
  | post (client : Client) (request : UploadRequest)
  | createFile (number : Nat)
  | finalize (number : Nat)

/-- The database fails the call, or the batch is gone. -/
def OpenRequest.finalize (request : OpenRequest) (state : UploadState) : UploadState :=
  match request.batch.finalizeFails with
  | some _ => state
  | none =>
      match finalizeBatch request.batch.finalizedAt request.batch.pk state.database with
      | .error _ => state
      | .ok database => { state with database }

/-- The next file of a request. -/
def OpenRequest.create (settings : Settings) (request : OpenRequest) (submitted : SubmittedFile)
    (rest : List SubmittedFile) (state : UploadState) : UploadState × Option OpenRequest :=
  match createUploadFile settings submitted.input (some request.user) submitted.file
      (some request.batch.pk) state with
  | (left, .error _) => (left, none)
  | (left, .ok upload) =>
      (left, some { request with
        remaining := rest
        results := request.results ++ [upload] })

section Site

variable {Client : Type} [DecidableEq Client]

def SiteWorld.setSession (world : SiteWorld Client) (client : Client) (session : Session) :
    SiteWorld Client :=
  { world with sessions := Function.update world.sessions client session }

def SiteWorld.setRequest (world : SiteWorld Client) (number : Nat) (uploads : UploadState)
    (request : Option OpenRequest) : SiteWorld Client :=
  { world with
    uploads
    requests := world.requests.set number request }

/-- The request comes with the user of its client's session. -/
def SiteWorld.received (world : SiteWorld Client) (client : Client) (request : UploadRequest) :
    UploadRequest :=
  { request with user := (world.sessions client).user }

def website (settings : Settings) (site : Site) (rules : AuthRules) :
    Machine (SiteWorld Client) (SiteAction Client) where
  step world
    | .login client request =>
        some (world.setSession client
          (loginView site rules request world.users (world.sessions client)).1)
    | .register client request pk encoded =>
        let (users, session, _) :=
          registerView site rules request pk encoded world.users (world.sessions client)
        some { world.setSession client session with users }
    | .logout client => some (world.setSession client (logoutView site).1)
    | .expire client => some (world.setSession client ⟨none, none⟩)
    | .post client request =>
        match (world.received client request).begin world.uploads with
        | none => some { world with requests := world.requests ++ [none] }
        | some (uploads, begun) =>
            some { world with
              uploads
              requests := world.requests ++ [some begun] }
    | .createFile number =>
        match world.requests[number]? with
        | some (some request) =>
            match request.remaining with
            | [] => none
            | submitted :: rest =>
                let (uploads, left) := request.create settings submitted rest world.uploads
                some (world.setRequest number uploads left)
        | _ => none
    | .finalize number =>
        match world.requests[number]? with
        | some (some request) =>
            if request.remaining = [] then
              some (world.setRequest number (request.finalize world.uploads) none)
            else none
        | _ => none

/-- What a step may do to the uploads and to the requests under way. -/
inductive UploadStep (settings : Settings) (world : SiteWorld Client) :
    SiteAction Client → UploadState → List (Option OpenRequest) → Prop where
  | same {action : SiteAction Client} :
      UploadStep settings world action world.uploads world.requests
  | ended {client : Client} {request : UploadRequest} :
      UploadStep settings world (.post client request) world.uploads (world.requests ++ [none])
  | begun {client : Client} {request : UploadRequest} {user : Nat} {opened : Database} :
      (world.sessions client).user = some user →
      createBatch request.batch.createdAt request.batch.pk (some user) ""
        world.uploads.database = .ok opened →
      UploadStep settings world (.post client request) { world.uploads with database := opened }
        (world.requests ++ [some ⟨user, request.batch, request.files, []⟩])
  | created {number : Nat} {request : OpenRequest} {submitted : SubmittedFile}
      {rest : List SubmittedFile} {left : UploadState} {upload : UploadFile} :
      world.requests[number]? = some (some request) → request.remaining = submitted :: rest →
      createUploadFile settings submitted.input (some request.user) submitted.file
        (some request.batch.pk) world.uploads = (left, .ok upload) →
      UploadStep settings world (.createFile number) left (world.requests.set number
        (some { request with remaining := rest, results := request.results ++ [upload] }))
  | raised {number : Nat} {request : OpenRequest} {submitted : SubmittedFile}
      {rest : List SubmittedFile} {left : UploadState} {error : UploadError} :
      world.requests[number]? = some (some request) → request.remaining = submitted :: rest →
      createUploadFile settings submitted.input (some request.user) submitted.file
        (some request.batch.pk) world.uploads = (left, .error error) →
      UploadStep settings world (.createFile number) left (world.requests.set number none)
  | finalized {number : Nat} {request : OpenRequest} :
      world.requests[number]? = some (some request) →
      UploadStep settings world (.finalize number) (request.finalize world.uploads)
        (world.requests.set number none)

theorem UploadRequest.begin_eq_some {request : UploadRequest} {state left : UploadState}
    {begun : OpenRequest} (begins : request.begin state = some (left, begun)) :
    ∃ user opened, request.user = some user ∧ request.method = .post ∧ request.files ≠ [] ∧
      request.files.length ≤ maxFilesPerRequest ∧ request.batch.createFails = none ∧
      createBatch request.batch.createdAt request.batch.pk (some user) "" state.database =
        .ok opened ∧
      left = { state with database := opened } ∧
      begun = ⟨user, request.batch, request.files, []⟩ := by
  unfold UploadRequest.begin at begins
  split at begins
  · next _ _ user signedIn posts =>
    split_ifs at begins with refused
    obtain ⟨nonempty, few⟩ := not_or.mp refused
    split at begins
    · cases begins
    · next noFault =>
      split at begins <;> cases begins
      next opened created =>
      exact ⟨user, opened, signedIn, posts, nonempty, not_lt.mp few, noFault, created, rfl, rfl⟩
  · cases begins

theorem UploadStep.of_step {settings : Settings} {site : Site} {rules : AuthRules}
    {world next : SiteWorld Client} {action : SiteAction Client}
    (stepped : (website settings site rules).step world action = some next) :
    UploadStep settings world action next.uploads next.requests := by
  cases action with
  | login | register | logout | expire =>
      cases stepped
      exact .same
  | post client request =>
      simp only [website] at stepped
      split at stepped <;> cases stepped
      · exact .ended
      · next begins =>
        obtain ⟨user, opened, signedIn, _, _, _, _, created, rfl, rfl⟩ :=
          UploadRequest.begin_eq_some begins
        exact .begun signedIn created
  | createFile number =>
      simp only [website] at stepped
      split at stepped
      · next found =>
        split at stepped
        · cases stepped
        · next request submitted rest remaining =>
          cases stepped
          simp only [SiteWorld.setRequest, OpenRequest.create]
          split
          · next raised => exact .raised found remaining raised
          · next created => exact .created found remaining created
      · cases stepped
  | finalize number =>
      simp only [website] at stepped
      split at stepped
      · next found =>
        split at stepped <;> cases stepped
        exact .finalized found
      · cases stepped

/-! ## A request that is served alone -/

/-- A request after its loop over the files. -/
def OpenRequest.looped (request : OpenRequest) :
    Except UploadError (List UploadFile) → Option OpenRequest
  | .error _ => none
  | .ok results => some { request with
      remaining := []
      results := request.results ++ results }

section Alone

variable (settings : Settings) (site : Site) (rules : AuthRules) (world : SiteWorld Client)

/-- The world with other uploads and with one more request. -/
def SiteWorld.serving (uploads : UploadState) (request : Option OpenRequest) :
    SiteWorld Client :=
  { world with
    uploads
    requests := world.requests ++ [request] }

theorem createFile_serving (uploads : UploadState) {request : OpenRequest}
    {submitted : SubmittedFile} {rest : List SubmittedFile}
    (remaining : request.remaining = submitted :: rest) :
    (website settings site rules).step (world.serving uploads (some request))
        (.createFile world.requests.length) =
      some (world.serving (request.create settings submitted rest uploads).1
        (request.create settings submitted rest uploads).2) := by
  simp [website, SiteWorld.serving, SiteWorld.setRequest, remaining]

theorem finalize_serving (uploads : UploadState) {request : OpenRequest}
    (remaining : request.remaining = []) :
    (website settings site rules).step (world.serving uploads (some request))
        (.finalize world.requests.length) =
      some (world.serving (request.finalize uploads) none) := by
  simp [website, SiteWorld.serving, SiteWorld.setRequest, remaining]

theorem createFiles_run (request : OpenRequest) (uploads : UploadState) :
    ∃ actions, (∀ action ∈ actions, action = .createFile world.requests.length) ∧
      let created := createFiles settings (some request.user) request.batch.pk request.remaining
        uploads
      (website settings site rules).run (world.serving uploads (some request)) actions =
        some (world.serving created.1 (request.looped created.2)) := by
  generalize files : request.remaining = remaining
  induction remaining generalizing request uploads with
  | nil =>
      refine ⟨[], List.forall_mem_nil _, ?_⟩
      simp [createFiles, OpenRequest.looped, ← files]
  | cons submitted rest ih =>
      have step := createFile_serving settings site rules world uploads files
      cases made : createUploadFile settings submitted.input (some request.user) submitted.file
          (some request.batch.pk) uploads with
      | mk left outcome =>
          cases outcome with
          | error error =>
              refine ⟨[.createFile world.requests.length], by simp, ?_⟩
              simp only [OpenRequest.create, made] at step
              simp [run_cons, step, createFiles, made, OpenRequest.looped]
          | ok upload =>
              simp only [OpenRequest.create, made] at step
              obtain ⟨actions, own, ran⟩ := ih { request with
                remaining := rest
                results := request.results ++ [upload] } left rfl
              refine ⟨.createFile world.requests.length :: actions, ?_, ?_⟩
              · intro action member
                rcases List.mem_cons.mp member with rfl | later
                · rfl
                · exact own action later
              · rw [run_cons, step, Option.bind_some, ran]
                cases looped : createFiles settings (some request.user) request.batch.pk rest
                    left with
                | mk last results =>
                    cases results <;> simp [createFiles, made, looped, OpenRequest.looped,
                      Except.map]

theorem uploadView_of_not_begun {request : UploadRequest} {state : UploadState}
    (rejected : request.begin state = none) : (uploadView settings request state).1 = state := by
  unfold uploadView
  split
  · rfl
  · rfl
  · rfl
  · next _ _ user signedIn posts =>
    split_ifs with empty many
    · rfl
    · rfl
    · simp only [UploadRequest.begin, signedIn, posts, empty, many, or_self, if_false] at rejected
      unfold uploadBatch
      cases fault : request.batch.createFails with
      | some error => rfl
      | none =>
          simp only [fault] at rejected
          simp only [signedIn]
          cases created : createBatch request.batch.createdAt request.batch.pk (some user) ""
              state.database with
          | error error => rfl
          | ok opened =>
              rw [created] at rejected
              cases rejected

/-- After its batch, the view creates the files and finalizes the batch. -/
theorem uploadView_of_begun {request : UploadRequest} {state left : UploadState}
    {begun : OpenRequest} (begins : request.begin state = some (left, begun)) :
    let created := createFiles settings (some begun.user) begun.batch.pk begun.remaining left
    (uploadView settings request state).1 =
      match begun.looped created.2 with
      | none => created.1
      | some looped => looped.finalize created.1 := by
  obtain ⟨user, opened, signedIn, posts, nonempty, few, noFault, created, rfl, rfl⟩ :=
    UploadRequest.begin_eq_some begins
  rw [uploadView_of_post signedIn posts nonempty few]
  simp only [uploadBatch, noFault, signedIn, created]
  cases looped : createFiles settings (some user) request.batch.pk request.files
      { state with database := opened } with
  | mk last results =>
      cases results with
      | error error => rfl
      | ok results =>
          simp only [OpenRequest.looped, OpenRequest.finalize]
          cases request.batch.finalizeFails with
          | some error => rfl
          | none =>
              cases finalizeBatch request.batch.finalizedAt request.batch.pk last.database <;> rfl

/-- A request that nobody interrupts does to the uploads what `upload_view` does. -/
theorem uploadView_run (client : Client) (request : UploadRequest) :
    ∃ actions, (∀ action ∈ actions, action = .createFile world.requests.length ∨
        action = .finalize world.requests.length) ∧
      (website settings site rules).run world (.post client request :: actions) =
        some (world.serving
          (uploadView settings (world.received client request) world.uploads).1 none) := by
  cases begins : (world.received client request).begin world.uploads with
  | none =>
      refine ⟨[], List.forall_mem_nil _, ?_⟩
      rw [uploadView_of_not_begun settings begins]
      simp [run_cons, website, begins, SiteWorld.serving]
  | some pair =>
      obtain ⟨left, begun⟩ := pair
      have posted : (website settings site rules).step world (.post client request) =
          some (world.serving left (some begun)) := by
        simp only [website, begins]
        rfl
      have view := uploadView_of_begun settings begins
      obtain ⟨actions, own, ran⟩ := createFiles_run settings site rules world begun left
      dsimp only at view ran
      cases looped : begun.looped (createFiles settings (some begun.user) begun.batch.pk
          begun.remaining left).2 with
      | none =>
          refine ⟨actions, fun action member => .inl (own action member), ?_⟩
          rw [looped] at view ran
          rw [run_cons, posted, Option.bind_some, ran, view]
      | some request =>
          refine ⟨actions ++ [.finalize world.requests.length], ?_, ?_⟩
          · intro action member
            rcases List.mem_append.mp member with creates | last
            · exact .inl (own action creates)
            · exact .inr (List.mem_singleton.mp last)
          · have remaining : request.remaining = [] := by
              unfold OpenRequest.looped at looped
              split at looped <;> cases looped
              rfl
            rw [looped] at view ran
            rw [run_cons, posted, Option.bind_some, run_append, ran, Option.bind_some, run_cons,
              finalize_serving settings site rules world _ remaining, view]
            rfl

end Alone

end Site

end Doorito.Frontend
