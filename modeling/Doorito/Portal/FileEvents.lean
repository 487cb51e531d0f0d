import Doorito.Common.Receivers
import Doorito.Portal.ExpiryNotices

/-! What the requests of the portal say. Every event tells of one file, and it has been emitted
with the row of the file at hand: in the transaction that stored it, or by a sweep that found
it close to its expiry. A receiver reads this from the request. -/

set_option autoImplicit false

namespace Doorito.Portal

open Foundation Common Machine

/-- The object has the columns of the row. -/
structure TellsOf (body : Json) (upload : UploadFile) : Prop where
  fileId : body.member? "file_id" = some (.string upload.pk.str)
  originalFilename : body.member? "original_filename" = some (.string upload.originalFilename)
  contentType : body.member? "content_type" = some (.string upload.contentType)
  sizeBytes : body.member? "size_bytes" = some (.number upload.sizeBytes 0)
  sha256 : body.member? "sha256" = some (.string upload.sha256)

section Origins

variable (settings : Settings) (retentionHours : Int) (start : ExpiryWorld)
  (actions : List ExpiryAction) (upload : UploadFile)

/-- A call of a service has created the row, which is STORED. -/
def StoredIn : Prop :=
  ∃ earlier later call,
    (expiry settings retentionHours).Takes start actions earlier (.portal call) ∧
      (expiry settings retentionHours).step earlier (.portal call) = some later ∧
      upload ∈ later.files.rows ∧ upload.pk ∉ earlier.files.keys ∧ upload.status = .stored

/-- A sweep has found the row STORED and close to its expiry. -/
def FoundIn : Prop :=
  ∃ earlier now order,
    (expiry settings retentionHours).Takes start actions earlier (.beginSweep now order) ∧
      upload ∈ earlier.files.rows ∧
      upload.isExpiring (now - hours (settings.ttlHours - settings.notifyHours)) = true

/-- Where the payload of an event of this type comes from. -/
inductive Heralds (eventType : String) (payload : Json) : Prop where
  | stored (url : String) (is : eventType = "file.stored")
      (shape : payload = .object (upload.payload url))
      (origin : StoredIn settings retentionHours start actions upload)
  | expiring (url : String) (is : eventType = "file.expiring")
      (shape : payload = .object (upload.payload url ++
        [("expires_at", .string (timeStr (upload.createdAt + hours settings.ttlHours)))]))
      (origin : FoundIn settings retentionHours start actions upload)

end Origins

section Append

variable {settings : Settings} {retentionHours : Int} {start : ExpiryWorld}
  {actions : List ExpiryAction} {upload : UploadFile}

theorem FoundIn.append (found : FoundIn settings retentionHours start actions upload)
    (more : List ExpiryAction) :
    FoundIn settings retentionHours start (actions ++ more) upload := by
  obtain ⟨earlier, now, order, takes, row⟩ := found
  exact ⟨earlier, now, order, takes.append more, row⟩

theorem StoredIn.append (stored : StoredIn settings retentionHours start actions upload)
    (more : List ExpiryAction) :
    StoredIn settings retentionHours start (actions ++ more) upload := by
  obtain ⟨earlier, later, call, takes, row⟩ := stored
  exact ⟨earlier, later, call, takes.append more, row⟩

theorem Heralds.append {eventType : String} {payload : Json}
    (heralds : Heralds settings retentionHours start actions upload eventType payload)
    (more : List ExpiryAction) :
    Heralds settings retentionHours start (actions ++ more) upload eventType payload := by
  cases heralds with
  | stored url is shape origin => exact .stored url is shape (origin.append more)
  | expiring url is shape origin => exact .expiring url is shape (origin.append more)

end Append

/-! ## What is read -/

section Payload

variable {upload : UploadFile}

theorem tellsOf_payload (url : String) (more : List (String × Json)) :
    TellsOf (.object (upload.payload url ++ more)) upload := by
  constructor <;> simp [Json.member?, UploadFile.payload, List.lookup_cons]

theorem integral_payload (url : String) {more : List (String × Json)}
    (integral : ∀ member ∈ more, member.2.Integral) :
    (Json.object (upload.payload url ++ more)).Integral := by
  refine .object ?_
  intro member among
  rcases List.mem_append.mp among with column | other
  · simp only [UploadFile.payload, List.mem_cons, List.not_mem_nil, or_false] at column
    rcases column with rfl | rfl | rfl | rfl | rfl | rfl <;> constructor
  · exact integral member other

theorem member?_expires_at (url : String) (value : Json) :
    (Json.object (upload.payload url ++ [("expires_at", value)])).member? "expires_at" =
      some value := by
  simp [Json.member?, UploadFile.payload, List.lookup_cons]

end Payload

/-! ## Steps -/

/-- A call of another service emits an event with the row that it creates. -/
theorem portal_event_origin {state next : UploadState} {action : PortalAction}
    (stepped : portal.step state action = some next) (other : action.isSweep = false)
    {event : OutboxEvent} (member : event ∈ next.database.events.rows) :
    event ∈ state.database.events.rows ∨
      ∃ upload ∈ next.database.files.rows, upload.pk ∉ state.database.files.keys ∧
        upload.status = .stored ∧ event.eventType = "file.stored" ∧
        ∃ url, event.payload = .object (upload.payload url) := by
  have same : next.database.events = state.database.events →
      event ∈ state.database.events.rows := fun kept => kept ▸ member
  cases portal_steps_of_step stepped with
  | @uploaded settings input user file batch =>
      rcases createUploadFile_database settings input user file batch state with
        kept | ⟨_, _, inserted⟩ | ⟨upload, grown, events, status, _, inserted, announced, result⟩
      · exact .inl (same (by rw [kept]))
      · exact .inl (same (Database.insertFile?_eq_some inserted).2.2.2.2.2)
      · obtain ⟨fresh, files, _, _, _, before⟩ := Database.insertFile?_eq_some inserted
        rw [result] at member ⊢
        rw [announceStored_rows announced, before, List.mem_append, List.mem_singleton] at member
        refine member.imp_right ?_
        rintro rfl
        have row : upload ∈ grown.files.rows := files ▸ List.mem_append_right _ List.mem_cons_self
        exact ⟨upload, row, fresh, status, rfl, _, rfl⟩
  | started _ inserted => exact .inl (same (Database.insertFile?_eq_some inserted).2.2.2.2.2)
  | sessionCreated inserted =>
      obtain ⟨_, _, _, _, _, _, events⟩ := Database.insertSession?_eq_some inserted
      exact .inl (same events)
  | partRecorded => exact .inl (same recordUploadPart_frame.2)
  | completed _ _ => exact .inl (same events_writeCompletion)
  | marked => exact .inl member
  | notified => cases other
  | refused _ => exact .inl member

section Step

variable {settings : Settings} {retentionHours : Int} {start world next : ExpiryWorld}
  {actions : List ExpiryAction} {action : ExpiryAction}

/-- A step of the outbox is a step there; no other step comes near to its runs. -/
theorem step_runs (stepped : (expiry settings retentionHours).step world action = some next) :
    next.runs = world.runs ∨ ∃ step later, admits retentionHours step = true ∧
      Common.outbox.step world.outbox step = some later ∧ next = world.withOutbox later := by
  simp only [expiry] at stepped
  cases action with
  | outbox step =>
      simp only [ExpiryWorld.step] at stepped
      split_ifs at stepped with admitted
      obtain ⟨later, moved, rfl⟩ := Option.map_eq_some_iff.mp stepped
      exact .inr ⟨step, later, admitted, moved, rfl⟩
  | portal call =>
      obtain ⟨_, _, _, _, rfl⟩ := call_eq_some stepped
      exact .inl rfl
  | announce number input =>
      simp only [ExpiryWorld.step] at stepped
      split at stepped
      · split_ifs at stepped
        cases stepped
        left
        unfold ExpiryWorld.announceNext
        split <;> rfl
      · cases stepped
  | deleteBlob number raises =>
      simp only [ExpiryWorld.step] at stepped
      split at stepped
      · cases stepped
        left
        unfold ExpiryWorld.deleteNextBlob
        split <;> rfl
      · cases stepped
  | beginSweep _ _ | countExpired _ =>
      cases stepped
      exact .inl rfl
  | endSweep _ | selectExpired _ | readExpired _ _ | deleteFiles _ | endCleanup _ =>
      simp only [ExpiryWorld.step] at stepped
      split at stepped <;> cases stepped
      exact .inl rfl

/-- A sweep goes on with files that it had left, or it has begun in this step. -/
theorem step_announcing (stepped : (expiry settings retentionHours).step world action = some next)
    {sweep : Sweep} {rest : List UploadFile} (member : .announcing sweep rest ∈ next.sweeps) :
    (∃ passed, .announcing sweep (passed ++ rest) ∈ world.sweeps) ∨
      ∃ now order, action = .beginSweep now order ∧
        .announcing sweep rest = beginSweep settings now order world.files := by
  have kept : next.sweeps = world.sweeps →
      ∃ passed, .announcing sweep (passed ++ rest) ∈ world.sweeps :=
    fun same => ⟨[], same ▸ member⟩
  simp only [expiry] at stepped
  cases action with
  | beginSweep now order =>
      cases stepped
      rcases List.mem_append.mp member with old | new
      · exact .inl ⟨[], old⟩
      · exact .inr ⟨now, order, rfl, List.mem_singleton.mp new⟩
  | announce number input =>
      simp only [ExpiryWorld.step] at stepped
      split at stepped
      · next current upload left found =>
        split_ifs at stepped
        cases stepped
        have was : .announcing current (upload :: left) ∈ world.sweeps :=
          List.mem_of_getElem? found
        have goesOn : .announcing sweep rest ∈ world.sweeps.set number (current.goOn left) →
            ∃ passed, .announcing sweep (passed ++ rest) ∈ world.sweeps := by
          intro among
          rcases List.mem_or_eq_of_mem_set among with old | new
          · exact ⟨[], old⟩
          · simp only [Sweep.goOn] at new
            split_ifs at new
            cases new
            exact ⟨[upload], was⟩
        left
        unfold ExpiryWorld.announceNext at member
        split at member
        · exact goesOn member
        · exact goesOn member
        · rcases List.mem_or_eq_of_mem_set member with old | new
          · exact ⟨[], old⟩
          · cases new
      · cases stepped
  | endSweep number =>
      simp only [ExpiryWorld.step] at stepped
      split at stepped <;> cases stepped
      rcases List.mem_or_eq_of_mem_set member with old | new
      · exact .inl ⟨[], old⟩
      · cases new
  | portal call =>
      obtain ⟨_, _, _, _, rfl⟩ := call_eq_some stepped
      exact .inl (kept rfl)
  | outbox step =>
      simp only [ExpiryWorld.step] at stepped
      split_ifs at stepped
      obtain ⟨later, _, rfl⟩ := Option.map_eq_some_iff.mp stepped
      exact .inl (kept rfl)
  | deleteBlob number raises =>
      simp only [ExpiryWorld.step] at stepped
      split at stepped
      · cases stepped
        refine .inl (kept ?_)
        unfold ExpiryWorld.deleteNextBlob
        split <;> rfl
      · cases stepped
  | countExpired _ =>
      cases stepped
      exact .inl (kept rfl)
  | selectExpired _ | readExpired _ _ | deleteFiles _ | endCleanup _ =>
      simp only [ExpiryWorld.step] at stepped
      split at stepped <;> cases stepped
      exact .inl (kept rfl)

/-- Rows and objects come from emissions, and sweeps go through the files they have found. -/
structure HeraldInvariant (settings : Settings) (retentionHours : Int) (start : ExpiryWorld)
    (actions : List ExpiryAction) (world : ExpiryWorld) : Prop where
  issued : world.outbox.RowsIssued
  sweeps : ∀ sweep rest, .announcing sweep rest ∈ world.sweeps →
    sweep.ttlHours = settings.ttlHours ∧
      ∀ upload ∈ rest, FoundIn settings retentionHours start actions upload
  rows : ∀ event ∈ world.events.rows, ∃ upload,
    Heralds settings retentionHours start actions upload event.eventType event.payload
  objects : ∀ (run : Nat) (phase : RunPhase), world.runs[run]? = some phase →
    ∀ event ∈ phase.batch, ∃ upload,
      Heralds settings retentionHours start actions upload event.eventType event.payload

variable (ran : (expiry settings retentionHours).run start actions = some world)
  (stepped : (expiry settings retentionHours).step world action = some next)
  (invariant : HeraldInvariant settings retentionHours start actions world)

include ran stepped invariant

theorem sweeps_found {sweep : Sweep} {rest : List UploadFile}
    (member : .announcing sweep rest ∈ next.sweeps) :
    sweep.ttlHours = settings.ttlHours ∧
      ∀ upload ∈ rest, FoundIn settings retentionHours start (actions ++ [action]) upload := by
  rcases step_announcing stepped member with ⟨passed, was⟩ | ⟨now, order, rfl, shape⟩
  · obtain ⟨ttlHours, found⟩ := invariant.sweeps sweep _ was
    exact ⟨ttlHours, fun upload among =>
      (found upload (List.mem_append_right _ among)).append _⟩
  · simp only [beginSweep, Sweep.goOn] at shape
    split_ifs at shape
    obtain ⟨rfl, rfl⟩ := SweepPhase.announcing.inj shape
    refine ⟨rfl, ?_⟩
    intro upload among
    obtain ⟨row, expiring⟩ := List.mem_filter.mp ((order.perm _).mem_iff.mp among)
    exact ⟨world, now, order, takes_last ran, row, expiring⟩

theorem rows_heralded {event : OutboxEvent} (member : event ∈ next.events.rows) :
    ∃ upload, Heralds settings retentionHours start (actions ++ [action]) upload event.eventType
      event.payload := by
  have kept : event ∈ world.events.rows → ∃ upload,
      Heralds settings retentionHours start (actions ++ [action]) upload event.eventType
        event.payload := by
    intro old
    obtain ⟨upload, heralds⟩ := invariant.rows event old
    exact ⟨upload, heralds.append _⟩
  cases step_effect stepped with
  | called call is made =>
      subst is
      obtain ⟨other, _, state, moved, shape⟩ := call_eq_some made
      subst shape
      rcases portal_event_origin moved other member with
        old | ⟨upload, row, fresh, status, type, url, payload⟩
      · exact kept old
      · exact ⟨upload, .stored url type payload
          ⟨world, _, call, takes_last ran, stepped, row, fresh, status⟩⟩
  | delivered step later is admitted moved shape =>
      subst shape
      rcases step_row_origin moved member with
        old | ⟨_, _, _, rfl, _, _, _⟩ | ⟨_, _, _, _, old, _, oldMember, saves⟩ |
        ⟨_, _, old, _, oldMember, _, _, rfl⟩
      · exact kept old
      · cases admitted
      · obtain ⟨_, _, _, _, _, _, _, _, _, rfl⟩ := saves
        obtain ⟨upload, heralds⟩ := invariant.rows old oldMember
        exact ⟨upload, heralds.append _⟩
      · obtain ⟨upload, heralds⟩ := invariant.rows old oldMember
        exact ⟨upload, heralds.append _⟩
  | announced number input sweep upload rest is found fresh shape =>
      subst shape
      obtain ⟨ttlHours, files⟩ := invariant.sweeps sweep _ (List.mem_of_getElem? found)
      unfold ExpiryWorld.announceNext at member
      split at member
      · next grown announced =>
        have emitted := (announceExpiring_emitted announced).2
        rw [ttlHours] at emitted
        change event ∈ grown.rows at member
        rw [emitEvent_rows emitted, List.mem_append, List.mem_singleton] at member
        rcases member with old | rfl
        · exact kept old
        · exact ⟨upload, .expiring _ rfl rfl ((files upload List.mem_cons_self).append _)⟩
      · exact kept member
      · exact kept member
  | deleted number totalExpired batchPks is found files events => exact kept (events ▸ member)
  | quiet events => exact kept (events ▸ member)

omit ran in
theorem objects_heralded {run : Nat} {phase : RunPhase} (found : next.runs[run]? = some phase)
    {event : OutboxEvent} (member : event ∈ phase.batch) :
    ∃ upload, Heralds settings retentionHours start (actions ++ [action]) upload event.eventType
      event.payload := by
  have kept : (∃ upload, Heralds settings retentionHours start actions upload event.eventType
      event.payload) → ∃ upload,
      Heralds settings retentionHours start (actions ++ [action]) upload event.eventType
        event.payload := by
    rintro ⟨upload, heralds⟩
    exact ⟨upload, heralds.append _⟩
  rcases step_runs stepped with same | ⟨step, later, _, moved, shape⟩
  · exact kept (invariant.objects run phase (same ▸ found) event member)
  · subst shape
    rcases step_phase_origin moved found with
      same | rfl | ⟨_, _, _, _, _, rfl⟩ | ⟨batch, was, rfl⟩ | ⟨batch, _, _, was, rfl⟩
    · exact kept (invariant.objects run phase same event member)
    · cases member
    · simp only [RunPhase.batch] at member
      exact kept (invariant.rows event (mem_fetchPending member).1)
    · exact kept (invariant.objects run _ was event member)
    · exact kept (invariant.objects run _ was event member)

theorem HeraldInvariant.step :
    HeraldInvariant settings retentionHours start (actions ++ [action]) next :=
  ⟨step_rowsIssued invariant.issued stepped, fun _ _ => sweeps_found ran stepped invariant,
    fun _ => rows_heralded ran stepped invariant,
    fun _ _ found _ => objects_heralded stepped invariant found⟩

end Step

theorem heraldInvariant_of_run {settings : Settings} {retentionHours : Int} {state : UploadState}
    (empty : state.database.events.rows = []) {actions : List ExpiryAction} {world : ExpiryWorld}
    (ran : (expiry settings retentionHours).run (.init state) actions = some world) :
    HeraldInvariant settings retentionHours (.init state) actions world := by
  refine run_induction (HeraldInvariant settings retentionHours (.init state)) ?_
    (fun _ _ _ _ reached stepped invariant => invariant.step reached stepped) ran
  have none : ∀ event, event ∉ (ExpiryWorld.init state).events.rows := by
    intro event member
    change event ∈ state.database.events.rows at member
    rw [empty] at member
    cases member
  refine ⟨fun event member => absurd member (none event), nofun,
    fun event member => absurd member (none event), ?_⟩
  intro run phase found
  simp [ExpiryWorld.init] at found

/-- In every interleaving, a request about a file is read by its receiver as the row of the
file: the one that was stored with the event, or the one that a sweep has found close to its
expiry. The latter comes with the time of the expiry, to the microsecond. -/
theorem receivers_learn_of_files {settings : Settings} {retentionHours : Int}
    {state : UploadState} (empty : state.database.events.rows = [])
    {actions : List ExpiryAction} {world : ExpiryWorld}
    (ran : (expiry settings retentionHours).run (.init state) actions = some world)
    {run : Nat} {batch : List OutboxEvent} (was : world.runs[run]? = some (.fetched batch))
    {event : OutboxEvent} (member : event ∈ batch) {http : Http}
    {floatRepr : Int → Nat → Text} (writes : http.WritesJson floatRepr)
    (endpoint : WebhookEndpoint) :
    ∃ body upload, received endpoint.secret (webhookRequest http endpoint event) = some body ∧
      TellsOf body upload ∧
      (event.eventType = "file.stored" ∧
          StoredIn settings retentionHours (.init state) actions upload ∨
        event.eventType = "file.expiring" ∧
          FoundIn settings retentionHours (.init state) actions upload ∧
          ∃ text, body.member? "expires_at" = some (.string text) ∧
            (0 ≤ yearOf (upload.createdAt + hours settings.ttlHours) →
              readTime text.toList = some (upload.createdAt + hours settings.ttlHours))) := by
  obtain ⟨upload, heralds⟩ :=
    (heraldInvariant_of_run empty ran).objects run _ was event member
  refine ⟨event.payload, upload, ?_⟩
  cases heralds with
  | stored url is shape origin =>
      rw [← List.append_nil (upload.payload url)] at shape
      have integral : event.payload.Integral := shape ▸ integral_payload url nofun
      exact ⟨received_webhookRequest writes endpoint integral, shape ▸ tellsOf_payload url [],
        .inl ⟨is, origin⟩⟩
  | expiring url is shape origin =>
      have integral : event.payload.Integral := by
        rw [shape]
        refine integral_payload url ?_
        intro added among
        rw [List.mem_singleton.mp among]
        exact .string _
      exact ⟨received_webhookRequest writes endpoint integral, shape ▸ tellsOf_payload url _,
        .inr ⟨is, origin, _, shape ▸ member?_expires_at url _, readTime_timeStr⟩⟩

namespace Sample

def writing : Http :=
  { Common.Sample.answering 200 with
    dumps := fun json => String.ofList (json.dumps fun _ _ => "0.5".toList) }

def noticeFetched : List ExpiryAction :=
  sweep 0 (hours 24) ++ [.outbox (.beginFetch (hours 24) 20 .stored fun _ => false),
    .outbox (.commitFetch 0)]

def notice : OutboxEvent :=
  (storedFile.emission "file.expiring" (storedFile.payload storedFile.file ++
    [("expires_at", .string "1970-01-02 00:00:00+00:00")])).event (hours 24) (uuid 0)

end Sample

theorem receivers_learn_of_files_notice :
    ∃ body upload text,
      received Common.Sample.endpoint.secret
        (webhookRequest Sample.writing Common.Sample.endpoint Sample.notice) = some body ∧
      TellsOf body upload ∧ body.member? "expires_at" = some (.string text) := by
  obtain ⟨world, ran, was⟩ : ∃ world,
      (expiry Sample.defaults 168).run (.init Sample.oneStored) Sample.noticeFetched =
        some world ∧ world.runs[0]? = some (.fetched [Sample.notice]) := ⟨_, rfl, rfl⟩
  have writes : Sample.writing.WritesJson fun _ _ => "0.5".toList := fun _ => rfl
  obtain ⟨body, upload, read, tells, ⟨stored, _⟩ | ⟨_, _, text, expires, _⟩⟩ :=
    receivers_learn_of_files rfl ran was List.mem_cons_self writes Common.Sample.endpoint
  · exact absurd stored (by decide)
  · exact ⟨body, upload, text, read, tells, expires⟩

end Doorito.Portal
