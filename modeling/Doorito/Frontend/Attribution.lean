import Doorito.Frontend.SignedIn

/-! Whose uploads they are. Every file and every batch names the user whose credentials the
client had presented that posted it, in whatever order requests are served: the user of a request
is read when it comes in, and it stays when its client logs out meanwhile. -/

set_option autoImplicit false

namespace Doorito.Frontend

open Foundation Common Accounts Portal Machine

section Site

variable {Client : Type} [DecidableEq Client]

/-- One of the actions is a POST of the request by a client that was signed in as the user. -/
def PostedBy (settings : Settings) (site : Site) (rules : AuthRules) (start : SiteWorld Client)
    (actions : List (SiteAction Client)) (user : Nat) (request : UploadRequest) : Prop :=
  ∃ before client after, actions = before ++ .post client request :: after ∧
    (website settings site rules).Since (SignsIn site rules client user) (SignsOut client) start
      before

/-- The row that a file of the request gets. -/
def FileOf (settings : Settings) (user : Nat) (request : UploadRequest) (file : UploadFile) :
    Prop :=
  ∃ submitted ∈ request.files, file = createdRow settings submitted.input (some user)
    submitted.file (some request.batch.pk)

/-- The batch is there, and the user has created it. -/
def OwnsBatch (database : Database) (user : Nat) (pk : Uuid) : Prop :=
  ∃ batch ∈ database.batches.rows, batch.pk = pk ∧ batch.createdBy = some user

variable (settings : Settings) (site : Site) (rules : AuthRules) (start : SiteWorld Client)

/-- What holds of the requests under way and of what they have added to the uploads. -/
structure AttributedUploads (past : List (SiteAction Client)) (world : SiteWorld Client) :
    Prop where
  requests : ∀ begun, some begun ∈ world.requests → ∃ request,
    PostedBy settings site rules start past begun.user request ∧ begun.batch = request.batch ∧
      begun.remaining ⊆ request.files ∧
      OwnsBatch world.uploads.database begun.user request.batch.pk
  files : ∀ file ∈ world.uploads.database.files.rows,
    file ∈ start.uploads.database.files.rows ∨ ∃ user request,
      PostedBy settings site rules start past user request ∧ FileOf settings user request file ∧
        OwnsBatch world.uploads.database user request.batch.pk
  batches : ∀ batch ∈ world.uploads.database.batches.rows,
    batch.pk ∈ start.uploads.database.batches.keys ∨ ∃ user request,
      PostedBy settings site rules start past user request ∧ batch.pk = request.batch.pk ∧
        batch.createdBy = some user

variable {settings site rules start} {past : List (SiteAction Client)}
  {world next : SiteWorld Client} {user : Nat} {request : UploadRequest}

theorem PostedBy.append (posted : PostedBy settings site rules start past user request)
    (more : List (SiteAction Client)) :
    PostedBy settings site rules start (past ++ more) user request := by
  obtain ⟨before, client, after, rfl, since⟩ := posted
  exact ⟨before, client, after ++ more, by simp, since⟩

theorem postedBy_last {client : Client}
    (nobody : ∀ client, (start.sessions client).user = none)
    (ran : (website settings site rules).run start past = some world)
    (signedIn : (world.sessions client).user = some user) :
    PostedBy settings site rules start (past ++ [.post client request]) user request :=
  ⟨past, client, [], rfl, (signedIn_iff_since nobody ran).mp signedIn⟩

/-- A finalized batch belongs to whom it has belonged to. -/
theorem OpenRequest.finalize_batches (begun : OpenRequest) (state : UploadState) :
    (begun.finalize state).database.files = state.database.files ∧
      ∃ change : UploadBatch → UploadBatch,
        (∀ batch, (change batch).pk = batch.pk ∧ (change batch).createdBy = batch.createdBy) ∧
          (begun.finalize state).database.batches.rows =
            state.database.batches.rows.map change := by
  unfold OpenRequest.finalize finalizeBatch
  split
  · exact ⟨rfl, id, fun _ => ⟨rfl, rfl⟩, (List.map_id _).symm⟩
  · split
    · exact ⟨rfl, id, fun _ => ⟨rfl, rfl⟩, (List.map_id _).symm⟩
    · next finalized =>
      split at finalized <;> cases finalized
      let status := finalStatus ((state.database.filesOf begun.batch.pk).map (·.status))
      refine ⟨rfl, fun batch => if batch.pk = begun.batch.pk then
        batch.finalized begun.batch.finalizedAt status else batch, ?_, ?_⟩
      · intro batch
        dsimp only
        split <;> exact ⟨rfl, rfl⟩
      · simp [Database.updateBatches, status]

theorem OwnsBatch.of_map {database grown : Database} {pk : Uuid}
    {change : UploadBatch → UploadBatch} (owns : OwnsBatch database user pk)
    (keeps : ∀ batch, (change batch).pk = batch.pk ∧ (change batch).createdBy = batch.createdBy)
    (rows : grown.batches.rows = database.batches.rows.map change) :
    OwnsBatch grown user pk := by
  obtain ⟨batch, member, key, creator⟩ := owns
  refine ⟨change batch, ?_, (keeps batch).1.trans key, (keeps batch).2.trans creator⟩
  rw [rows]
  exact List.mem_map_of_mem member

theorem OwnsBatch.of_rows {database grown : Database} {pk : Uuid}
    (owns : OwnsBatch database user pk)
    (rows : database.batches.rows ⊆ grown.batches.rows) : OwnsBatch grown user pk := by
  obtain ⟨batch, member, shape⟩ := owns
  exact ⟨batch, rows member, shape⟩

theorem uploadedBy_createdRow (input : UploadInput) (uploader : Option Nat) (file : UploadedFile)
    (batch : Option Uuid) :
    (createdRow settings input uploader file batch).uploadedBy = uploader := by
  unfold createdRow
  split <;> rfl

theorem mem_of_set_none {requests : List (Option OpenRequest)} {number : Nat}
    {begun : OpenRequest} (member : some begun ∈ requests.set number none) :
    some begun ∈ requests := by
  rcases List.mem_or_eq_of_mem_set member with old | same
  · exact old
  · cases same

namespace AttributedUploads

/-- A step that keeps the batches to their owners, and whose new requests, files and batches
are attributed. -/
theorem extend {action : SiteAction Client}
    (attributed : AttributedUploads settings site rules start past world)
    (kept : ∀ user pk, OwnsBatch world.uploads.database user pk →
      OwnsBatch next.uploads.database user pk)
    (requests : ∀ begun, some begun ∈ next.requests →
      (∃ old, some old ∈ world.requests ∧ begun.user = old.user ∧ begun.batch = old.batch ∧
        begun.remaining ⊆ old.remaining) ∨
      ∃ request, PostedBy settings site rules start (past ++ [action]) begun.user request ∧
        begun.batch = request.batch ∧ begun.remaining ⊆ request.files ∧
          OwnsBatch next.uploads.database begun.user request.batch.pk)
    (files : ∀ file ∈ next.uploads.database.files.rows,
      file ∈ world.uploads.database.files.rows ∨ ∃ user request,
        PostedBy settings site rules start past user request ∧
          FileOf settings user request file ∧
          OwnsBatch world.uploads.database user request.batch.pk)
    (batches : ∀ batch ∈ next.uploads.database.batches.rows,
      (∃ old ∈ world.uploads.database.batches.rows, batch.pk = old.pk ∧
        batch.createdBy = old.createdBy) ∨
      ∃ user request, PostedBy settings site rules start (past ++ [action]) user request ∧
        batch.pk = request.batch.pk ∧ batch.createdBy = some user) :
    AttributedUploads settings site rules start (past ++ [action]) next := by
  constructor
  · intro begun member
    rcases requests begun member with ⟨old, oldMember, user, batch, remaining⟩ | new
    · obtain ⟨request, posted, oldBatch, oldRemaining, owns⟩ :=
        attributed.requests old oldMember
      rw [user]
      exact ⟨request, posted.append _, batch.trans oldBatch,
        List.Subset.trans remaining oldRemaining, kept _ _ owns⟩
    · exact new
  · intro file member
    rcases files file member with old | ⟨user, request, posted, fileOf, owns⟩
    · rcases attributed.files file old with first | ⟨user, request, posted, fileOf, owns⟩
      · exact .inl first
      · exact .inr ⟨user, request, posted.append _, fileOf, kept _ _ owns⟩
    · exact .inr ⟨user, request, posted.append _, fileOf, kept _ _ owns⟩
  · intro batch member
    rcases batches batch member with ⟨old, oldMember, key, creator⟩ | new
    · rw [key, creator]
      rcases attributed.batches old oldMember with first | ⟨user, request, posted, shape⟩
      · exact .inl first
      · exact .inr ⟨user, request, posted.append _, shape⟩
    · exact .inr new

/-- A step that leaves the database and begins no request. -/
theorem extend_same {action : SiteAction Client}
    (attributed : AttributedUploads settings site rules start past world)
    (database : next.uploads.database = world.uploads.database)
    (requests : ∀ begun, some begun ∈ next.requests → some begun ∈ world.requests) :
    AttributedUploads settings site rules start (past ++ [action]) next := by
  apply attributed.extend
  · intro user pk owns
    rw [database]
    exact owns
  · intro begun member
    exact .inl ⟨begun, requests begun member, rfl, rfl, List.Subset.refl _⟩
  · intro file member
    rw [database] at member
    exact .inl member
  · intro batch member
    rw [database] at member
    exact .inl ⟨batch, member, rfl, rfl⟩

theorem of_begun {client : Client} {opened : Database}
    (attributed : AttributedUploads settings site rules start past world)
    (posted : PostedBy settings site rules start (past ++ [.post client request]) user request)
    (created : createBatch request.batch.createdAt request.batch.pk (some user) ""
      world.uploads.database = .ok opened)
    (uploads : next.uploads = { world.uploads with database := opened })
    (requests : next.requests =
      world.requests ++ [some ⟨user, request.batch, request.files, []⟩]) :
    AttributedUploads settings site rules start (past ++ [.post client request]) next := by
  obtain ⟨_, inserted⟩ := createBatch_eq_ok_iff.mp created
  obtain ⟨_, rows, files, _⟩ := Database.insertBatch?_eq_some inserted
  have owned : OwnsBatch next.uploads.database user request.batch.pk := by
    refine ⟨newBatch request.batch.createdAt request.batch.pk (some user) "", ?_, rfl, rfl⟩
    rw [uploads, rows]
    exact List.mem_append_right _ List.mem_cons_self
  apply attributed.extend
  · intro other pk owns
    apply owns.of_rows
    rw [uploads, rows]
    exact List.subset_append_left _ _
  · intro begun member
    rw [requests] at member
    rcases List.mem_append.mp member with old | new
    · exact .inl ⟨begun, old, rfl, rfl, List.Subset.refl _⟩
    · obtain rfl := Option.some.inj (List.mem_singleton.mp new)
      exact .inr ⟨request, posted, rfl, List.Subset.refl _, owned⟩
  · intro file member
    rw [uploads, files] at member
    exact .inl member
  · intro batch member
    rw [uploads, rows] at member
    rcases List.mem_append.mp member with old | new
    · exact .inl ⟨batch, old, rfl, rfl⟩
    · obtain rfl := List.mem_singleton.mp new
      exact .inr ⟨user, request, posted, rfl, rfl⟩

theorem of_created {action : SiteAction Client} {number : Nat} {begun : OpenRequest}
    {submitted : SubmittedFile} {rest : List SubmittedFile} {left : UploadState}
    {upload : UploadFile}
    (attributed : AttributedUploads settings site rules start past world)
    (found : world.requests[number]? = some (some begun))
    (remaining : begun.remaining = submitted :: rest)
    (created : createUploadFile settings submitted.input (some begun.user) submitted.file
      (some begun.batch.pk) world.uploads = (left, .ok upload))
    (uploads : next.uploads = left)
    (requests : next.requests = world.requests.set number
      (some { begun with remaining := rest, results := begun.results ++ [upload] })) :
    AttributedUploads settings site rules start (past ++ [action]) next := by
  obtain ⟨row, rows, batches⟩ := createUploadFile_eq_ok created
  have stored : some begun ∈ world.requests := List.mem_of_getElem? found
  obtain ⟨request, posted, batch, inside, owns⟩ := attributed.requests begun stored
  rw [remaining] at inside
  apply attributed.extend
  · intro other pk owns
    rw [uploads, OwnsBatch, batches]
    exact owns
  · intro later member
    rw [requests] at member
    rcases List.mem_or_eq_of_mem_set member with old | same
    · exact .inl ⟨later, old, rfl, rfl, List.Subset.refl _⟩
    · obtain rfl := Option.some.inj same
      exact .inl ⟨begun, stored, rfl, rfl, remaining ▸ List.subset_cons_self _ _⟩
  · intro file member
    rw [uploads, rows] at member
    rcases List.mem_append.mp member with old | new
    · exact .inl old
    · obtain rfl := List.mem_singleton.mp new
      rw [batch] at row
      exact .inr ⟨begun.user, request, posted, ⟨submitted, inside List.mem_cons_self, row⟩, owns⟩
  · intro other member
    rw [uploads, batches] at member
    exact .inl ⟨other, member, rfl, rfl⟩

theorem of_finalized {action : SiteAction Client} {number : Nat} {begun : OpenRequest}
    (attributed : AttributedUploads settings site rules start past world)
    (uploads : next.uploads = begun.finalize world.uploads)
    (requests : next.requests = world.requests.set number none) :
    AttributedUploads settings site rules start (past ++ [action]) next := by
  obtain ⟨files, change, keeps, rows⟩ := begun.finalize_batches world.uploads
  apply attributed.extend
  · intro other pk owns
    rw [uploads]
    exact owns.of_map keeps rows
  · intro later member
    exact .inl ⟨later, mem_of_set_none (requests ▸ member), rfl, rfl, List.Subset.refl _⟩
  · intro file member
    rw [uploads, files] at member
    exact .inl member
  · intro batch member
    rw [uploads, rows] at member
    obtain ⟨old, oldMember, rfl⟩ := List.mem_map.mp member
    exact .inl ⟨old, oldMember, keeps old⟩

theorem of_step {action : SiteAction Client}
    (nobody : ∀ client, (start.sessions client).user = none)
    (ran : (website settings site rules).run start past = some world)
    (attributed : AttributedUploads settings site rules start past world)
    (stepped : (website settings site rules).step world action = some next) :
    AttributedUploads settings site rules start (past ++ [action]) next := by
  have upload := UploadStep.of_step stepped
  generalize uploads : next.uploads = left at upload
  generalize listed : next.requests = requests at upload
  cases upload with
  | same => exact attributed.extend_same (congrArg _ uploads) fun _ member => listed ▸ member
  | ended =>
      apply attributed.extend_same (congrArg _ uploads)
      intro begun member
      simpa [listed] using member
  | begun signedIn created =>
      exact attributed.of_begun (postedBy_last nobody ran signedIn) created uploads listed
  | created found remaining created =>
      exact attributed.of_created found remaining created uploads listed
  | raised _ _ raised =>
      apply attributed.extend_same
      · rw [uploads, createUploadFile_of_error raised]
      · exact fun _ member => mem_of_set_none (listed ▸ member)
  | finalized _ => exact attributed.of_finalized uploads listed

theorem of_run {actions : List (SiteAction Client)}
    (nobody : ∀ client, (start.sessions client).user = none) (idle : start.requests = [])
    (ran : (website settings site rules).run start actions = some world) :
    AttributedUploads settings site rules start actions world := by
  refine run_induction (AttributedUploads settings site rules start) ?_
    (fun _ _ _ _ reached stepped ih => ih.of_step nobody reached stepped) ran
  refine ⟨?_, fun _ member => .inl member, fun _ member => .inl (Table.mem_keys_of_mem member)⟩
  intro begun member
  rw [idle] at member
  cases member

end AttributedUploads

end Site

/-- In every interleaving of requests of any clients, from a state in which nobody is signed in
and no request is under way: a file that was not there names a user who had signed in with
credentials in the client that posted it and had not signed out there before the POST, it is the
row of one of the posted files, and its batch belongs to the same user; so does every batch. -/
theorem uploads_are_attributed {Client : Type} [DecidableEq Client] {settings : Settings}
    {site : Site} {rules : AuthRules} {start final : SiteWorld Client}
    {actions : List (SiteAction Client)}
    (nobody : ∀ client, (start.sessions client).user = none) (idle : start.requests = [])
    (ran : (website settings site rules).run start actions = some final) :
    (∀ file ∈ final.uploads.database.files.rows,
      file ∈ start.uploads.database.files.rows ∨ ∃ user request,
        PostedBy settings site rules start actions user request ∧
          file.uploadedBy = some user ∧ FileOf settings user request file ∧
          OwnsBatch final.uploads.database user request.batch.pk) ∧
    ∀ batch ∈ final.uploads.database.batches.rows,
      batch.pk ∈ start.uploads.database.batches.keys ∨ ∃ user request,
        PostedBy settings site rules start actions user request ∧
          batch.pk = request.batch.pk ∧ batch.createdBy = some user := by
  have attributed := AttributedUploads.of_run nobody idle ran
  refine ⟨?_, attributed.batches⟩
  intro file member
  rcases attributed.files file member with first | ⟨user, request, posted, fileOf, owns⟩
  · exact .inl first
  · obtain ⟨submitted, listed, row⟩ := fileOf
    refine .inr ⟨user, request, posted, ?_, ⟨submitted, listed, row⟩, owns⟩
    rw [row, uploadedBy_createdRow]

/-! ## A superuser who logs out meanwhile -/

namespace Sample

def upload : UploadRequest := request [submitted 1 "a.csv" fun _ => false]

def uploadAmidLogout : List (SiteAction Nat) :=
  [.login 0 adminLogin, .post 0 upload, .logout 0, .createFile 0, .finalize 0]

end Sample

theorem uploads_are_attributed_amidLogout : ∃ final,
    (website Sample.settings Sample.site Sample.rules).run Sample.opening
      Sample.uploadAmidLogout = some final ∧
    final.uploads.database.files.rows.length = 1 ∧
    ∀ file ∈ final.uploads.database.files.rows, ∃ user request,
      PostedBy Sample.settings Sample.site Sample.rules Sample.opening Sample.uploadAmidLogout
        user request ∧ file.uploadedBy = some user := by
  obtain ⟨final, ran, one⟩ : ∃ final,
      (website Sample.settings Sample.site Sample.rules).run Sample.opening
        Sample.uploadAmidLogout = some final ∧
      final.uploads.database.files.rows.length = 1 := ⟨_, rfl, rfl⟩
  refine ⟨final, ran, one, ?_⟩
  intro file member
  rcases (uploads_are_attributed (fun _ => rfl) rfl ran).1 file member with
    first | ⟨user, request, posted, uploader, _⟩
  · cases first
  · exact ⟨user, request, posted, uploader⟩

end Doorito.Frontend
