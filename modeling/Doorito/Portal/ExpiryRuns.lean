import Doorito.Portal.ExpiredFiles
import Doorito.Portal.ExpiryWorld

/-! Whole runs of the two tasks. A run that nothing interrupts is a run of its steps, one
after the other. -/

set_option autoImplicit false

namespace Doorito.Portal

open Foundation Common

variable {settings : Settings} {retentionHours : Int}

/-! ## The sweep -/

section Sweep

variable {input : SweepInput} {sweep : Sweep} {number : Nat}

/-- Every event of the sweep gets a key of its own. -/
structure KeysFresh (input : SweepInput) (uploads : List UploadFile) (issued : List Uuid) :
    Prop where
  fresh : ∀ upload ∈ uploads, input.eventPk upload.pk ∉ issued
  distinct : (uploads.map fun upload => input.eventPk upload.pk).Nodup

theorem KeysFresh.tail {upload : UploadFile} {rest : List UploadFile} {issued more : List Uuid}
    (keys : KeysFresh input (upload :: rest) issued)
    (sub : more ⊆ input.eventPk upload.pk :: issued) : KeysFresh input rest more := by
  obtain ⟨other, distinct⟩ := List.nodup_cons.mp keys.distinct
  refine ⟨?_, distinct⟩
  intro later member taken
  rcases List.mem_cons.mp (sub taken) with same | old
  · exact other (List.mem_map.mpr ⟨later, member, same⟩)
  · exact keys.fresh later (List.mem_cons_of_mem _ member) old

/-- The loop body goes on to the other files, or it ends the loop of the whole run too. -/
theorem announceNext_cases (world : ExpiryWorld) (upload : UploadFile) (rest : List UploadFile)
    (result : SweepResult) (next : ExpiryWorld)
    (shape : next = world.announceNext number input sweep upload rest) :
    (next.sweeps = world.sweeps.set number (sweep.goOn rest) ∧
      next.issued ⊆ input.eventPk upload.pk :: world.issued ∧
      next.state = (world.withEvents next.events).state ∧
      ∃ later, (announceAll input sweep.ttlHours (upload :: rest) result world.events).1 =
        (announceAll input sweep.ttlHours rest later next.events).1) ∨
    (next.state = world.state ∧
      (announceAll input sweep.ttlHours (upload :: rest) result world.events).1 =
        world.events) := by
  subst shape
  simp only [ExpiryWorld.announceNext, announceAll]
  cases announceExpiring input sweep.ttlHours upload world.events with
  | ok events => exact .inl ⟨rfl, List.Subset.refl _, rfl, _, rfl⟩
  | error error =>
      cases error with
      | database error =>
          cases error with
          | integrityError => exact .inl ⟨rfl, List.subset_cons_self _ _, rfl, _, rfl⟩
          | _ => exact .inr ⟨rfl, rfl⟩
      | _ => exact .inr ⟨rfl, rfl⟩

theorem announceAll_simulated {rest : List UploadFile} (result : SweepResult)
    {world : ExpiryWorld} (found : world.sweeps[number]? = some (sweep.goOn rest))
    (keys : KeysFresh input rest world.issued) :
    ∃ actions later, (expiry settings retentionHours).run world actions = some later ∧
      later.state = (world.withEvents
        (announceAll input sweep.ttlHours rest result world.events).1).state := by
  induction rest generalizing world result with
  | nil => exact ⟨[], world, rfl, rfl⟩
  | cons upload rest ih =>
      obtain ⟨within, phase⟩ := List.getElem?_eq_some_iff.mp found
      have stepped : (expiry settings retentionHours).step world (.announce number input) =
          some (world.announceNext number input sweep upload rest) := by
        have standing : world.sweeps[number]? = some (.announcing sweep (upload :: rest)) := found
        simp only [expiry, ExpiryWorld.step, standing, keys.fresh upload List.mem_cons_self,
          if_false]
      rcases announceNext_cases world upload rest result _ rfl with
        ⟨sweeps, issued, same, after, goesOn⟩ | ⟨same, stops⟩
      · obtain ⟨actions, later, ran, ends⟩ := ih after
          (by rw [sweeps, List.getElem?_set_self within]) (keys.tail issued)
        refine ⟨.announce number input :: actions, later, ?_, ?_⟩
        · rw [Machine.run_cons, stepped]
          exact ran
        · rw [ends, goesOn]
          simp only [ExpiryWorld.withEvents, same]
      · refine ⟨[.announce number input], world.announceNext number input sweep upload rest,
          ?_, ?_⟩
        · rw [Machine.run_cons, stepped]
          rfl
        · rw [same, stops]
          rfl

/-- A sweep that is not interrupted leaves what `notify_expiring_files` leaves. -/
theorem notifyExpiringFiles_simulated (world : ExpiryWorld)
    (keys : KeysFresh input (input.order.arrange (world.files.rows.filter
      (·.isExpiring (input.now - hours (settings.ttlHours - settings.notifyHours)))))
      world.issued) :
    ∃ actions later, (expiry settings retentionHours).run world actions = some later ∧
      later.state = { world.state with
        database := (notifyExpiringFiles settings input none none world.state.database).1 } := by
  let cutoff := input.now - hours (settings.ttlHours - settings.notifyHours)
  let begun : ExpiryWorld := { world with
    sweeps := world.sweeps ++ [beginSweep settings input.now input.order world.files] }
  have standing : begun.sweeps[world.sweeps.length]? =
      some (Sweep.goOn ⟨cutoff, settings.ttlHours, world.files⟩
        (input.order.arrange (world.files.rows.filter (·.isExpiring cutoff)))) := by
    simp only [begun, List.getElem?_concat_length]
    rfl
  obtain ⟨actions, later, ran, ends⟩ : ∃ actions later,
      (expiry settings retentionHours).run begun actions = some later ∧ later.state = _ :=
    announceAll_simulated ⟨0, 0⟩ standing keys
  refine ⟨.beginSweep input.now input.order :: actions, later, ?_, ends⟩
  rw [Machine.run_cons]
  exact ran

end Sweep

/-! ## The cleanup -/

section Cleanup

variable {number totalExpired : Nat} {batchPks : List Uuid}

theorem deleteBlobs_simulated (raises : Uuid → Bool) {rest : List UploadFile}
    {world : ExpiryWorld}
    (found : world.fileCleanups[number]? = some (.deleting totalExpired batchPks rest)) :
    ∃ actions later, (expiry settings retentionHours).run world actions = some later ∧
      later.state = { world.state with
        storage := (deleteBlobs raises rest world.state.storage).1 } ∧
      ((deleteBlobs raises rest world.state.storage).2 = true →
        later.fileCleanups[number]? = some (.deleting totalExpired batchPks [])) := by
  induction rest generalizing world with
  | nil => exact ⟨[], world, rfl, rfl, fun _ => found⟩
  | cons upload rest ih =>
      obtain ⟨within, _⟩ := List.getElem?_eq_some_iff.mp found
      have stepped : (expiry settings retentionHours).step world (.deleteBlob number raises) =
          some (world.deleteNextBlob number raises totalExpired batchPks upload rest) := by
        simp only [expiry, ExpiryWorld.step, found]
      cases outcome : deleteBlob raises upload world.state.storage with
      | none =>
          refine ⟨[.deleteBlob number raises],
            world.deleteNextBlob number raises totalExpired batchPks upload rest, ?_, ?_, ?_⟩
          · rw [Machine.run_cons, stepped]
            rfl
          · simp only [ExpiryWorld.deleteNextBlob, deleteBlobs, outcome]
            rfl
          · simp [deleteBlobs, outcome]
      | some storage =>
          have shape : world.deleteNextBlob number raises totalExpired batchPks upload rest =
              { world.setFileCleanup number (.deleting totalExpired batchPks rest) with
                state := { world.state with storage } } := by
            simp only [ExpiryWorld.deleteNextBlob, outcome]
          obtain ⟨actions, later, ran, ends, done⟩ : ∃ actions later,
              (expiry settings retentionHours).run (world.deleteNextBlob number raises totalExpired
                batchPks upload rest) actions = some later ∧ _ ∧ _ := by
            rw [shape]
            exact ih (List.getElem?_set_self within)
          refine ⟨.deleteBlob number raises :: actions, later, ?_, ?_, ?_⟩
          · rw [Machine.run_cons, stepped]
            exact ran
          · simp only [deleteBlobs, outcome]
            exact ends
          · simp only [deleteBlobs, outcome]
            exact done

/-- A cleanup that is not interrupted leaves what `cleanup_expired_upload_files_task` leaves. -/
theorem cleanupExpiredUploadFiles_simulated (world : ExpiryWorld) (input : CleanupInput) :
    ∃ actions later, (expiry settings retentionHours).run world actions = some later ∧
      later.state = (cleanupExpiredUploadFiles settings.ttlHours input world.state).1 := by
  let cutoff := input.now - hours settings.ttlHours
  let number := world.fileCleanups.length
  let phased (phase : FileCleanupPhase) : ExpiryWorld :=
    { world with fileCleanups := world.fileCleanups ++ [phase] }
  have standing : ∀ phase, (phased phase).fileCleanups[number]? = some phase := by
    intro phase
    simp [phased, number]
  have moves : ∀ old new, (phased old).setFileCleanup number new = phased new := by
    intro old new
    simp [phased, number, ExpiryWorld.setFileCleanup]
  by_cases nothing : world.files.count (·.isExpired cutoff) = 0
  · refine ⟨[.countExpired input.now], phased .ended, ?_, ?_⟩
    · simp only [Machine.run, expiry, ExpiryWorld.step, ExpiryWorld.startFileCleanup]
      rw [if_pos nothing]
      rfl
    · have same : world.state.database.files.count (·.isExpired cutoff) = 0 := nothing
      simp only [cleanupExpiredUploadFiles]
      rw [if_pos same]
  · let totalExpired := world.files.count (·.isExpired cutoff)
    let batchPks := selectExpired cutoff world.files
    let batch := input.order.arrange (world.files.rows.filter (·.pk ∈ batchPks))
    let loop := deleteBlobs input.raises batch world.state.storage
    have counted : (expiry settings retentionHours).step world (.countExpired input.now) =
        some (phased (.counted cutoff totalExpired)) := by
      simp only [expiry, ExpiryWorld.step, ExpiryWorld.startFileCleanup]
      rw [if_neg nothing]
    have selected : (expiry settings retentionHours).step
        (phased (.counted cutoff totalExpired)) (.selectExpired number) =
          some (phased (.selected totalExpired batchPks)) := by
      simp only [expiry, ExpiryWorld.step, standing, moves]
      rfl
    have read : (expiry settings retentionHours).step
        (phased (.selected totalExpired batchPks)) (.readExpired number input.order) =
          some (phased (.deleting totalExpired batchPks batch)) := by
      simp only [expiry, ExpiryWorld.step, standing, moves]
      rfl
    have whole : (cleanupExpiredUploadFiles settings.ttlHours input world.state).1 =
        if loop.2 then ⟨world.state.database.deleteFiles batchPks, loop.1⟩
        else { world.state with storage := loop.1 } := cleanup_of_expired nothing
    obtain ⟨actions, later, ran, ends, done⟩ : ∃ actions later,
        (expiry settings retentionHours).run (phased (.deleting totalExpired batchPks batch))
          actions = some later ∧ later.state = { world.state with storage := loop.1 } ∧
          (loop.2 = true →
            later.fileCleanups[number]? = some (.deleting totalExpired batchPks [])) :=
      deleteBlobs_simulated input.raises (standing _)
    have reached : (expiry settings retentionHours).run world (.countExpired input.now ::
        .selectExpired number :: .readExpired number input.order :: actions) = some later := by
      simp only [Machine.run_cons, counted, selected, read, Option.bind_some]
      exact ran
    cases through : loop.2 with
    | false => exact ⟨_, later, reached, by rw [ends, whole, through]; rfl⟩
    | true =>
        have deleted : (expiry settings retentionHours).step later (.deleteFiles number) =
            some { later.setFileCleanup number .ended with
              state := { later.state with
                database := later.state.database.deleteFiles batchPks } } := by
          simp only [expiry, ExpiryWorld.step, done through]
        refine ⟨_ ++ [.deleteFiles number], _, (Machine.run_append_eq_some_iff _).mpr
          ⟨later, reached, (Machine.run_cons_eq_some_iff _).mpr ⟨_, deleted, rfl⟩⟩, ?_⟩
        rw [whole, through, ends]
        rfl

end Cleanup

end Doorito.Portal
