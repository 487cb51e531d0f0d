import Doorito.Portal.ExpiryWorld
import Doorito.Portal.UploadOutcome

/-! What one step does to the files, the notices and the sweeps. -/

set_option autoImplicit false

namespace Doorito.Portal

open Foundation Common

/-! ## Calls of other services -/

section Portal

variable {state next : UploadState} {action : PortalAction}

/-- The row continues a row of the earlier table, which is STORED now only if it was, or if
it was UPLOADING. -/
def Continues (files : FileTable) (row : UploadFile) : Prop :=
  ∃ old ∈ files.rows, old.pk = row.pk ∧
    (old.status ≠ .uploading → row.status = old.status ∨ row.status = .failed)

theorem Continues.of_mem {files : FileTable} {row : UploadFile} (member : row ∈ files.rows) :
    Continues files row :=
  ⟨row, member, rfl, fun _ => .inl rfl⟩

theorem portal_file_origin (stepped : portal.step state action = some next) {row : UploadFile}
    (member : row ∈ next.database.files.rows) :
    Continues state.database.files row ∨ action.fileKey? = some row.pk := by
  cases portal_steps_of_step stepped with
  | @uploaded settings input user file batch =>
      cases created : createUploadFile settings input user file batch state with
      | mk left result =>
          rw [created] at member
          cases result with
          | error error =>
              rw [createUploadFile_of_error created] at member
              exact .inl (.of_mem member)
          | ok upload =>
              obtain ⟨rfl, files, _⟩ := createUploadFile_eq_ok created
              rw [files, List.mem_append, List.mem_singleton] at member
              rcases member with old | rfl
              · exact .inl (.of_mem old)
              · exact .inr (by rw [createdRow_pk]; rfl)
  | started _ inserted =>
      rw [(Database.insertFile?_eq_some inserted).2.1, List.mem_append,
        List.mem_singleton] at member
      rcases member with old | rfl
      · exact .inl (.of_mem old)
      · exact .inr rfl
  | sessionCreated inserted =>
      obtain ⟨_, _, _, files, _⟩ := Database.insertSession?_eq_some inserted
      exact .inl (.of_mem (files ▸ member))
  | @partRecorded now session arguments =>
      have files : (recordUploadPart now session arguments state.database).1.files =
          state.database.files := recordUploadPart_frame.1
      exact .inl (.of_mem (files ▸ member))
  | completed _ _ =>
      rw [files_writeCompletion, List.mem_map] at member
      obtain ⟨old, oldMember, rfl⟩ := member
      refine .inl ⟨old, oldMember, by simp [apply_ite UploadFile.pk], ?_⟩
      intro settled
      simp [settled]
  | marked =>
      simp only [Database.updateFiles, Table.rows_updateWhere, List.mem_map] at member
      obtain ⟨old, oldMember, rfl⟩ := member
      refine .inl ⟨old, oldMember, by simp [apply_ite UploadFile.pk], ?_⟩
      intro _
      split
      · exact .inr rfl
      · exact .inl rfl
  | notified => exact .inl (.of_mem member)
  | refused _ => exact .inl (.of_mem member)

/-- Other services emit `file.stored` events only. -/
theorem portal_events (stepped : portal.step state action = some next)
    (other : action.isSweep = false) :
    ∃ more, next.database.events.rows = state.database.events.rows ++ more ∧
      ∀ event ∈ more, event.eventType = "file.stored" ∧ action.eventKey? = some event.pk := by
  have same : next.database.events = state.database.events →
      ∃ more, next.database.events.rows = state.database.events.rows ++ more ∧
        ∀ event ∈ more, event.eventType = "file.stored" ∧ action.eventKey? = some event.pk := by
    intro kept
    exact ⟨[], by rw [kept, List.append_nil], fun event member => nomatch member⟩
  cases portal_steps_of_step stepped with
  | @uploaded settings input user file batch =>
      rcases createUploadFile_database settings input user file batch state with
        kept | ⟨_, _, inserted⟩ | ⟨upload, grown, events, _, _, inserted, announced, result⟩
      · exact same (by rw [kept])
      · exact same (Database.insertFile?_eq_some inserted).2.2.2.2.2
      · have events := (Database.insertFile?_eq_some inserted).2.2.2.2.2
        refine ⟨_, by rw [result, ← events]; exact announceStored_rows announced, ?_⟩
        intro event single
        rw [List.mem_singleton.mp single]
        exact ⟨rfl, rfl⟩
  | started _ inserted => exact same (Database.insertFile?_eq_some inserted).2.2.2.2.2
  | sessionCreated inserted =>
      obtain ⟨_, _, _, _, _, _, events⟩ := Database.insertSession?_eq_some inserted
      exact same events
  | partRecorded => exact same recordUploadPart_frame.2
  | completed _ _ => exact same events_writeCompletion
  | marked => exact same rfl
  | notified => cases other
  | refused _ => exact same rfl

end Portal

/-! ## Notices -/

theorem isNoticeOf_injective {file other : Uuid} {event : OutboxEvent}
    (first : IsNoticeOf file event) (second : IsNoticeOf other event) : file = other := by
  have same : "UploadFile:" ++ file.str = "UploadFile:" ++ other.str := first.2.symm.trans second.2
  exact Uuid.str_injective ((String.append_right_inj _).mp same)

section Emission

variable {input : SweepInput} {ttlHours : Int} {upload : UploadFile} {events grown : EventTable}

theorem isNoticeOf_emission (payload : List (String × Json)) (now : Time) (pk : Uuid) :
    IsNoticeOf upload.pk ((upload.emission "file.expiring" payload).event now pk) := by
  refine ⟨rfl, ?_⟩
  have name : "UploadFile" ++ ":" = "UploadFile:" := by decide
  rw [← name]
  rfl

theorem not_isNoticeOf_of_isUniqueIn {event : OutboxEvent} (unique : event.isUniqueIn events)
    (notice : IsNoticeOf upload.pk event) :
    ∀ old ∈ events.rows, ¬ IsNoticeOf upload.pk old := by
  intro old member same
  have taken : events.rows.any (fun stored => stored.eventType = event.eventType ∧
      stored.idempotencyKey = event.idempotencyKey) = true := by
    refine List.any_eq_true.mpr ⟨old, member, ?_⟩
    simp [same.1, same.2, notice.1, notice.2]
  rw [OutboxEvent.isUniqueIn, taken] at unique
  cases unique

/-- A notice that is emitted is the only one of its file in the table. -/
theorem announceExpiring_ok
    (announced : announceExpiring input ttlHours upload events = .ok grown) :
    ∃ event, grown.rows = events.rows ++ [event] ∧ IsNoticeOf upload.pk event ∧
      event.pk = input.eventPk upload.pk ∧
      ∀ old ∈ events.rows, ¬ IsNoticeOf upload.pk old := by
  obtain ⟨payload, emitted⟩ := announceExpiring_emits announced
  have notice : IsNoticeOf upload.pk ((upload.emission "file.expiring" payload).event input.now
      (input.eventPk upload.pk)) := isNoticeOf_emission _ _ _
  obtain ⟨_, unique, _⟩ := emitEvent_ok_iff.mp ⟨grown, emitted⟩
  exact ⟨_, emitEvent_rows emitted, notice, rfl, not_isNoticeOf_of_isUniqueIn unique notice⟩

theorem fitsColumns_emission (payload : List (String × Json)) (now : Time) (pk : Uuid) :
    ((upload.emission "file.expiring" payload).event now pk).fitsColumns = true := by
  have owner : "UploadFile".length = 10 := by decide
  have start : "UploadFile:".length = 11 := by decide
  have type : "file.expiring".length = 13 := by decide
  simp [OutboxEvent.fitsColumns, EmitArguments.event, EmitArguments.effectiveKey,
    UploadFile.emission, owner, start, type]

/-- Nothing but the idempotency constraint can refuse to announce a file that names a blob. -/
theorem announceExpiring_answers (input : SweepInput) (ttlHours : Int) (events : EventTable)
    (named : upload.file ≠ "") :
    (∃ grown, announceExpiring input ttlHours upload events = .ok grown) ∨
      announceExpiring input ttlHours upload events = .error (.database .integrityError) := by
  rw [announceExpiring_of_named input ttlHours named]
  simp only [emitEvent, fitsColumns_emission, if_true]
  split
  · split
    · next grown _ => exact .inl ⟨grown, rfl⟩
    · exact .inr rfl
  · exact .inr rfl

/-- The idempotency constraint refuses a notice only if there is one. -/
theorem announceExpiring_refused (fresh : input.eventPk upload.pk ∉ events.keys)
    (refused : announceExpiring input ttlHours upload events =
      .error (.database .integrityError)) :
    ∃ old ∈ events.rows, IsNoticeOf upload.pk old := by
  by_contra none
  push Not at none
  by_cases named : upload.file = ""
  · obtain ⟨text, other⟩ := announceExpiring_of_unnamed input ttlHours events named
    rw [other] at refused
    cases refused
  · rw [announceExpiring_of_named input ttlHours named] at refused
    generalize upload.payload (input.url upload.file) ++ _ = payload at refused
    let event := (upload.emission "file.expiring" payload).event input.now
      (input.eventPk upload.pk)
    have unique : event.isUniqueIn events := by
      rw [OutboxEvent.isUniqueIn, Bool.not_eq_true', List.any_eq_false]
      intro old member same
      have notice : IsNoticeOf upload.pk event := isNoticeOf_emission _ _ _
      obtain ⟨type, key⟩ := of_decide_eq_true same
      exact none old member ⟨type.trans notice.1, key.trans notice.2⟩
    have fits : event.fitsColumns = true := fitsColumns_emission _ _ _
    obtain ⟨table, emitted⟩ := emitEvent_ok_iff.mpr ⟨fits, unique, fresh⟩
    rw [mapError_eq_ok_iff.mpr emitted] at refused
    cases refused

end Emission

/-! ## Steps -/

/-- What a step does to the sweeps. -/
inductive SweepsMove (settings : Settings) (world next : ExpiryWorld) : Prop where
  | kept (sweeps : next.sweeps = world.sweeps)
  | begun (now : Time) (order : RowOrder UploadFile)
      (sweeps : next.sweeps = world.sweeps ++ [beginSweep settings now order world.files])
  | ended (number : Nat) (sweep : Sweep) (rest : List UploadFile)
      (found : world.sweeps[number]? = some (.announcing sweep rest))
      (sweeps : next.sweeps = world.sweeps.set number (.ended sweep rest))
  | passed (number : Nat) (sweep : Sweep) (upload : UploadFile) (rest : List UploadFile)
      (found : world.sweeps[number]? = some (.announcing sweep (upload :: rest)))
      (sweeps : next.sweeps = world.sweeps.set number (sweep.goOn rest))
      (done : upload.pk ∈ next.announced ∨ ∃ old ∈ world.events.rows, IsNoticeOf upload.pk old)

/-- What a step can be. A quiet step leaves events and files as they are. -/
inductive StepEffect (settings : Settings) (retentionHours : Int) (world : ExpiryWorld)
    (action : ExpiryAction) (next : ExpiryWorld) : Prop where
  | called (call : PortalAction) (is : action = .portal call) (made : world.call call = some next)
  | delivered (step : Action) (later : World) (is : action = .outbox step)
      (admitted : admits retentionHours step = true)
      (stepped : Common.outbox.step world.outbox step = some later)
      (shape : next = world.withOutbox later)
  | announced (number : Nat) (input : SweepInput) (sweep : Sweep) (upload : UploadFile)
      (rest : List UploadFile) (is : action = .announce number input)
      (found : world.sweeps[number]? = some (.announcing sweep (upload :: rest)))
      (fresh : input.eventPk upload.pk ∉ world.issued)
      (shape : next = world.announceNext number input sweep upload rest)
  | deleted (number totalExpired : Nat) (batchPks : List Uuid)
      (is : action = .deleteFiles number)
      (found : world.fileCleanups[number]? = some (.deleting totalExpired batchPks []))
      (files : next.files = world.files.deleteWhere (·.pk ∈ batchPks))
      (events : next.events = world.events) (issued : next.issued = world.issued)
      (issuedFiles : next.issuedFiles = world.issuedFiles)
      (announced : next.announced = world.announced) (sweeps : next.sweeps = world.sweeps)
  | quiet (events : next.events = world.events) (files : next.files = world.files)
      (issued : next.issued = world.issued) (issuedFiles : next.issuedFiles = world.issuedFiles)
      (announced : next.announced = world.announced) (sweeps : SweepsMove settings world next)

section Step

variable {settings : Settings} {retentionHours : Int} {world next : ExpiryWorld}
  {action : ExpiryAction}

theorem step_effect (stepped : (expiry settings retentionHours).step world action = some next) :
    StepEffect settings retentionHours world action next := by
  simp only [expiry] at stepped
  cases action with
  | portal call => exact .called call rfl stepped
  | outbox step =>
      simp only [ExpiryWorld.step] at stepped
      split_ifs at stepped with admitted
      obtain ⟨later, moved, rfl⟩ := Option.map_eq_some_iff.mp stepped
      exact .delivered step later rfl admitted moved rfl
  | beginSweep now order =>
      simp only [ExpiryWorld.step, Option.some.injEq] at stepped
      subst stepped
      exact .quiet rfl rfl rfl rfl rfl (.begun now order rfl)
  | announce number input =>
      simp only [ExpiryWorld.step] at stepped
      split at stepped
      · next sweep upload rest found =>
        split_ifs at stepped with fresh
        cases stepped
        exact .announced number input sweep upload rest rfl found fresh rfl
      · cases stepped
  | endSweep number =>
      simp only [ExpiryWorld.step] at stepped
      split at stepped <;> cases stepped
      next sweep rest found =>
      exact .quiet rfl rfl rfl rfl rfl (.ended number sweep rest found rfl)
  | countExpired now =>
      simp only [ExpiryWorld.step, Option.some.injEq] at stepped
      subst stepped
      exact .quiet rfl rfl rfl rfl rfl (.kept rfl)
  | selectExpired number =>
      simp only [ExpiryWorld.step] at stepped
      split at stepped <;> cases stepped
      exact .quiet rfl rfl rfl rfl rfl (.kept rfl)
  | readExpired number order =>
      simp only [ExpiryWorld.step] at stepped
      split at stepped <;> cases stepped
      exact .quiet rfl rfl rfl rfl rfl (.kept rfl)
  | deleteBlob number raises =>
      simp only [ExpiryWorld.step] at stepped
      split at stepped
      · cases stepped
        simp only [ExpiryWorld.deleteNextBlob]
        split <;> exact .quiet rfl rfl rfl rfl rfl (.kept rfl)
      · cases stepped
  | deleteFiles number =>
      simp only [ExpiryWorld.step] at stepped
      split at stepped
      · next totalExpired batchPks found =>
        cases stepped
        exact .deleted number totalExpired batchPks rfl found rfl rfl rfl rfl rfl rfl
      · cases stepped
  | endCleanup number =>
      simp only [ExpiryWorld.step] at stepped
      split at stepped <;> cases stepped
      exact .quiet rfl rfl rfl rfl rfl (.kept rfl)

/-- What the loop body of a sweep leaves of a file: its notice, or the notice that is there
already, or the end of the sweep. -/
inductive AnnounceEffect (world : ExpiryWorld) (number : Nat) (input : SweepInput) (sweep : Sweep)
    (upload : UploadFile) (rest : List UploadFile) (next : ExpiryWorld) : Prop where
  | emitted (event : OutboxEvent) (notice : IsNoticeOf upload.pk event)
      (key : event.pk = input.eventPk upload.pk)
      (first : ∀ old ∈ world.events.rows, ¬ IsNoticeOf upload.pk old)
      (events : next.events.rows = world.events.rows ++ [event])
      (issued : next.issued = input.eventPk upload.pk :: world.issued)
      (announced : next.announced = upload.pk :: world.announced)
      (sweeps : next.sweeps = world.sweeps.set number (sweep.goOn rest))
  | skipped (noticed : ∃ old ∈ world.events.rows, IsNoticeOf upload.pk old)
      (shape : next = world.setSweep number (sweep.goOn rest))
  | raised (shape : next = world.setSweep number (.ended sweep (upload :: rest)))

theorem announceNext_effect (number : Nat) (sweep : Sweep) (rest : List UploadFile)
    {input : SweepInput} {upload : UploadFile}
    (fresh : input.eventPk upload.pk ∉ world.events.keys) :
    AnnounceEffect world number input sweep upload rest
      (world.announceNext number input sweep upload rest) := by
  unfold ExpiryWorld.announceNext
  split
  · next events announced =>
    obtain ⟨event, rows, notice, key, first⟩ := announceExpiring_ok announced
    exact .emitted event notice key first rows rfl rfl rfl
  · next refused => exact .skipped (announceExpiring_refused fresh refused) rfl
  · exact .raised rfl

theorem call_eq_some {call : PortalAction} (made : world.call call = some next) :
    call.isSweep = false ∧ (∀ key ∈ call.fileKey?, key ∉ world.issuedFiles) ∧
      ∃ state, portal.step world.state call = some state ∧
        next = { world with
          state
          issued := call.eventKey?.toList ++ world.issued
          issuedFiles := call.fileKey?.toList ++ world.issuedFiles } := by
  unfold ExpiryWorld.call at made
  split_ifs at made with reuses
  push Not at reuses
  obtain ⟨state, stepped, shape⟩ := Option.map_eq_some_iff.mp made
  exact ⟨by simpa using reuses.1, reuses.2.1, state, stepped, shape.symm⟩

theorem announceNext_files {number : Nat} {input : SweepInput} {sweep : Sweep}
    {upload : UploadFile} {rest : List UploadFile} :
    (world.announceNext number input sweep upload rest).files = world.files ∧
      (world.announceNext number input sweep upload rest).issuedFiles = world.issuedFiles := by
  unfold ExpiryWorld.announceNext
  split <;> exact ⟨rfl, rfl⟩

theorem step_issuedFiles
    (stepped : (expiry settings retentionHours).step world action = some next) :
    world.issuedFiles ⊆ next.issuedFiles := by
  cases step_effect stepped with
  | called call is made =>
      obtain ⟨_, _, _, _, rfl⟩ := call_eq_some made
      exact List.subset_append_right _ _
  | delivered step later is admitted moved shape =>
      rw [shape]
      exact List.Subset.refl _
  | announced number input sweep upload rest is found fresh shape =>
      rw [shape, announceNext_files.2]
      exact List.Subset.refl _
  | deleted number totalExpired batchPks is found files events issued issuedFiles =>
      rw [issuedFiles]
      exact List.Subset.refl _
  | quiet events files issued issuedFiles => rw [issuedFiles]; exact List.Subset.refl _

/-- A row continues an earlier one, or its file is new. -/
theorem step_file_origin
    (stepped : (expiry settings retentionHours).step world action = some next)
    {row : UploadFile} (member : row ∈ next.files.rows) :
    Continues world.files row ∨ row.pk ∉ world.issuedFiles ∧ row.pk ∈ next.issuedFiles := by
  cases step_effect stepped with
  | called call is made =>
      obtain ⟨_, fresh, state, moved, rfl⟩ := call_eq_some made
      refine (portal_file_origin moved member).imp_right ?_
      intro created
      exact ⟨fresh _ created, by simp [created]⟩
  | delivered step later is admitted moved shape =>
      rw [shape] at member
      exact .inl (.of_mem member)
  | announced number input sweep upload rest is found fresh shape =>
      rw [shape, announceNext_files.1] at member
      exact .inl (.of_mem member)
  | deleted number totalExpired batchPks is found files =>
      rw [files] at member
      exact .inl (.of_mem (Table.mem_deleteWhere.mp member).1)
  | quiet events files =>
      rw [files] at member
      exact .inl (.of_mem member)

theorem not_mem_keys_of_fresh (issued : world.outbox.RowsIssued) {pk : Uuid}
    (fresh : pk ∉ world.issued) : pk ∉ world.events.keys := by
  intro listed
  obtain ⟨row, member, rfl⟩ := Table.mem_keys.mp listed
  exact fresh (issued row member)

/-- A notice stays in the table until an event cleanup deletes it. -/
theorem step_notice_fate (issued : world.outbox.RowsIssued)
    (stepped : (expiry settings retentionHours).step world action = some next)
    {file : Uuid} {event : OutboxEvent} (member : event ∈ world.events.rows)
    (notice : IsNoticeOf file event) :
    (∃ later ∈ next.events.rows, IsNoticeOf file later) ∨
    ∃ cleanup totalTerminal batchPks, action = .outbox (.cleanupDelete cleanup) ∧
      world.cleanups[cleanup]? = some (.selected totalTerminal batchPks) ∧
        event.pk ∈ batchPks := by
  cases step_effect stepped with
  | called call is made =>
      obtain ⟨other, _, state, moved, rfl⟩ := call_eq_some made
      obtain ⟨more, rows, _⟩ := portal_events moved other
      have stays : event ∈ state.database.events.rows := rows ▸ List.mem_append_left _ member
      exact .inl ⟨event, stays, notice⟩
  | delivered step later is admitted moved shape =>
      subst is shape
      rcases step_row_fate moved member with
        ⟨kept, keptMember, _, type, key⟩ | ⟨cleanup, totalTerminal, batchPks, rfl, found, chosen⟩
      · exact .inl ⟨kept, keptMember, type.trans notice.1, key.trans notice.2⟩
      · exact .inr ⟨cleanup, totalTerminal, batchPks, rfl, found, chosen⟩
  | announced number input sweep upload rest is found fresh shape =>
      left
      subst shape
      cases announceNext_effect number sweep rest (not_mem_keys_of_fresh issued fresh) with
      | emitted added _ _ _ events =>
          exact ⟨event, events ▸ List.mem_append_left _ member, notice⟩
      | skipped _ shape =>
          rw [shape]
          exact ⟨event, member, notice⟩
      | raised shape =>
          rw [shape]
          exact ⟨event, member, notice⟩
  | deleted number totalExpired batchPks is found files events =>
      exact .inl ⟨event, events ▸ member, notice⟩
  | quiet events => exact .inl ⟨event, events ▸ member, notice⟩

theorem step_rowsIssued (issued : world.outbox.RowsIssued)
    (stepped : (expiry settings retentionHours).step world action = some next) :
    next.outbox.RowsIssued := by
  intro row member
  cases step_effect stepped with
  | called call is made =>
      obtain ⟨other, _, state, moved, rfl⟩ := call_eq_some made
      obtain ⟨more, rows, stored⟩ := portal_events moved other
      change row ∈ state.database.events.rows at member
      change row.pk ∈ call.eventKey?.toList ++ world.issued
      rw [rows, List.mem_append] at member
      rcases member with old | new
      · exact List.mem_append_right _ (issued row old)
      · simp [(stored row new).2]
  | delivered step later is admitted moved shape =>
      subst shape
      exact Common.step_rowsIssued issued moved row member
  | announced number input sweep upload rest is found fresh shape =>
      subst shape
      cases announceNext_effect number sweep rest (not_mem_keys_of_fresh issued fresh) with
      | emitted event _ key _ events same =>
          change row ∈ (ExpiryWorld.events _).rows at member
          change row.pk ∈ ExpiryWorld.issued _
          rw [events, List.mem_append, List.mem_singleton] at member
          rw [same]
          rcases member with old | rfl
          · exact List.mem_cons_of_mem _ (issued row old)
          · exact key ▸ List.mem_cons_self
      | skipped _ shape =>
          rw [shape] at member ⊢
          exact issued row member
      | raised shape =>
          rw [shape] at member ⊢
          exact issued row member
  | deleted number totalExpired batchPks is found files events same =>
      change row ∈ next.events.rows at member
      change row.pk ∈ next.issued
      rw [events] at member
      rw [same]
      exact issued row member
  | quiet events files same =>
      change row ∈ next.events.rows at member
      change row.pk ∈ next.issued
      rw [events] at member
      rw [same]
      exact issued row member

theorem mem_set_or_eq {Item : Type} {items : List Item} {number : Nat} {was item : Item}
    (new : Item) (found : items[number]? = some was) (member : item ∈ items) :
    item ∈ items.set number new ∨ item = was := by
  obtain ⟨other, within⟩ := List.mem_iff_getElem?.mp member
  by_cases same : number = other
  · subst same
    exact .inr (Option.some.inj (within.symm.trans found))
  · left
    apply List.mem_iff_getElem?.mpr
    exact ⟨other, by rw [List.getElem?_set_ne same, within]⟩

theorem mem_set_of_getElem? {Item : Type} {items : List Item} {number : Nat} {was : Item}
    (new : Item) (found : items[number]? = some was) : new ∈ items.set number new := by
  obtain ⟨within, _⟩ := List.getElem?_eq_some_iff.mp found
  exact List.mem_set within new

/-- A step announces nothing, or the next file of a sweep, which has no notice yet. -/
theorem step_announced (issued : world.outbox.RowsIssued)
    (stepped : (expiry settings retentionHours).step world action = some next) :
    next.announced = world.announced ∨
    ∃ sweep upload rest, .announcing sweep (upload :: rest) ∈ world.sweeps ∧
      sweep.goOn rest ∈ next.sweeps ∧ next.announced = upload.pk :: world.announced ∧
      (∀ old ∈ world.events.rows, ¬ IsNoticeOf upload.pk old) ∧
      ∃ event ∈ next.events.rows, IsNoticeOf upload.pk event := by
  cases step_effect stepped with
  | called call is made =>
      obtain ⟨_, _, _, _, rfl⟩ := call_eq_some made
      exact .inl rfl
  | delivered step later is admitted moved shape => exact .inl (by rw [shape]; rfl)
  | announced number input sweep upload rest is found fresh shape =>
      subst shape
      cases announceNext_effect number sweep rest (not_mem_keys_of_fresh issued fresh) with
      | emitted event notice _ first events _ announced sweeps =>
          refine .inr ⟨sweep, upload, rest, List.mem_of_getElem? found, ?_, announced, first, event,
            ?_, notice⟩
          · rw [sweeps]
            exact mem_set_of_getElem? _ found
          · rw [events]
            exact List.mem_append_right _ List.mem_cons_self
      | skipped _ shape => exact .inl (by rw [shape]; rfl)
      | raised shape => exact .inl (by rw [shape]; rfl)
  | deleted number totalExpired batchPks is found files events same issuedFiles announced =>
      exact .inl announced
  | quiet events files same issuedFiles announced => exact .inl announced

theorem step_sweeps (issued : world.outbox.RowsIssued)
    (stepped : (expiry settings retentionHours).step world action = some next) :
    SweepsMove settings world next := by
  cases step_effect stepped with
  | called call is made =>
      obtain ⟨_, _, _, _, rfl⟩ := call_eq_some made
      exact .kept rfl
  | delivered step later is admitted moved shape => exact .kept (by rw [shape]; rfl)
  | announced number input sweep upload rest is found fresh shape =>
      subst shape
      cases announceNext_effect number sweep rest (not_mem_keys_of_fresh issued fresh) with
      | emitted event notice _ first events _ announced sweeps =>
          have listed : upload.pk ∈ ExpiryWorld.announced _ := announced ▸ List.mem_cons_self
          exact .passed number sweep upload rest found sweeps (.inl listed)
      | skipped noticed shape =>
          rw [shape]
          exact .passed number sweep upload rest found rfl (.inr noticed)
      | raised shape =>
          rw [shape]
          exact .ended number sweep (upload :: rest) found rfl
  | deleted number totalExpired batchPks is found files events same issuedFiles announced sweeps =>
      exact .kept sweeps
  | quiet events files same issuedFiles announced sweeps => exact sweeps

/-- Where the phase of a sweep comes from. -/
inductive SweepOrigin (settings : Settings) (world next : ExpiryWorld) (phase : SweepPhase) :
    Prop where
  | kept (member : phase ∈ world.sweeps)
  | ended (sweep : Sweep) (rest : List UploadFile)
      (was : .announcing sweep rest ∈ world.sweeps) (shape : phase = .ended sweep rest)
  | begun (now : Time) (order : RowOrder UploadFile)
      (shape : phase = beginSweep settings now order world.files)
  | passed (sweep : Sweep) (upload : UploadFile) (rest : List UploadFile)
      (was : .announcing sweep (upload :: rest) ∈ world.sweeps)
      (shape : phase = sweep.goOn rest)
      (done : upload.pk ∈ next.announced ∨ ∃ old ∈ world.events.rows, IsNoticeOf upload.pk old)

theorem step_sweep_origin (issued : world.outbox.RowsIssued)
    (stepped : (expiry settings retentionHours).step world action = some next)
    {phase : SweepPhase} (member : phase ∈ next.sweeps) :
    SweepOrigin settings world next phase := by
  cases step_sweeps issued stepped with
  | kept sweeps => exact .kept (sweeps ▸ member)
  | begun now order sweeps =>
      rw [sweeps, List.mem_append, List.mem_singleton] at member
      rcases member with old | new
      · exact .kept old
      · exact .begun now order new
  | ended number sweep rest found sweeps =>
      rw [sweeps] at member
      rcases List.mem_or_eq_of_mem_set member with old | new
      · exact .kept old
      · exact .ended sweep rest (List.mem_of_getElem? found) new
  | passed number sweep upload rest found sweeps done =>
      rw [sweeps] at member
      rcases List.mem_or_eq_of_mem_set member with old | new
      · exact .kept old
      · exact .passed sweep upload rest (List.mem_of_getElem? found) new done

/-- A sweep keeps what it began with, and gets no further files. -/
theorem step_sweep_fate (issued : world.outbox.RowsIssued)
    (stepped : (expiry settings retentionHours).step world action = some next)
    {phase : SweepPhase} (member : phase ∈ world.sweeps) :
    ∃ later ∈ next.sweeps, later.sweep = phase.sweep ∧ later.rest ⊆ phase.rest := by
  cases step_sweeps issued stepped with
  | kept sweeps => exact ⟨phase, sweeps ▸ member, rfl, List.Subset.refl _⟩
  | begun now order sweeps =>
      exact ⟨phase, sweeps ▸ List.mem_append_left _ member, rfl, List.Subset.refl _⟩
  | ended number sweep rest found sweeps =>
      rw [sweeps]
      rcases mem_set_or_eq (.ended sweep rest) found member with kept | rfl
      · exact ⟨phase, kept, rfl, List.Subset.refl _⟩
      · exact ⟨_, mem_set_of_getElem? _ found, rfl, List.Subset.refl _⟩
  | passed number sweep upload rest found sweeps done =>
      rw [sweeps]
      rcases mem_set_or_eq (sweep.goOn rest) found member with kept | rfl
      · exact ⟨phase, kept, rfl, List.Subset.refl _⟩
      · refine ⟨_, mem_set_of_getElem? _ found, SweepPhase.sweep_goOn sweep rest, ?_⟩
        rw [SweepPhase.rest_goOn]
        exact List.subset_cons_self _ _

end Step

end Doorito.Portal
