import Doorito.Foundation.Selection
import Doorito.Portal.ExpiryNotices

/-! Which files the expiry sweep announces. Its query asks for STORED files that were created
before a cutoff, and for nothing that keeps out a file whose time to live is over. -/

set_option autoImplicit false

namespace Doorito.Portal

open Foundation Common

/-- The time at which the time to live of the file is over. -/
def UploadFile.expiryTime (ttlHours : Int) (upload : UploadFile) : Time :=
  upload.createdAt + hours ttlHours

/-- The files that the query of the sweep returns, in its order. -/
def expiringFiles (input : SweepInput) (ttlHours notifyHours : Int) (files : FileTable) :
    List UploadFile :=
  input.order.arrange
    (files.rows.filter (·.isExpiring (input.now - hours (ttlHours - notifyHours))))

def UploadFile.namesBlob (upload : UploadFile) : Bool := upload.file ≠ ""

/-- The files for which the loop comes to call `emit_event`. -/
def announceAttempts (input : SweepInput) (ttlHours : Int) :
    List UploadFile → EventTable → List UploadFile
  | [], _ => []
  | upload :: rest, events =>
      match upload.url input.url with
      | .error _ => []
      | .ok _ =>
          match announceExpiring input ttlHours upload events with
          | .ok grown => upload :: announceAttempts input ttlHours rest grown
          | .error (.database .integrityError) =>
              upload :: announceAttempts input ttlHours rest events
          | .error _ => [upload]

def notifyAttempts (settings : Settings) (input : SweepInput)
    (ttlHours notifyHours : Option Int) (database : Database) : List UploadFile :=
  let ttlHours := ttlHours.getD settings.ttlHours
  let notifyHours := notifyHours.getD settings.notifyHours
  announceAttempts input ttlHours (expiringFiles input ttlHours notifyHours database.files)
    database.events

/-- The files announced are the STORED files whose expiry is near and yet to come, and what
is emitted about a file gives its expiry time, which is yet to come. -/
structure AnnouncesAhead (settings : Settings) (input : SweepInput)
    (ttlHours notifyHours : Option Int) (database : Database) : Prop where
  attempted : ∀ upload ∈ database.files.rows,
    upload ∈ notifyAttempts settings input ttlHours notifyHours database ↔
      upload.status = .stored ∧
        input.now < upload.expiryTime (ttlHours.getD settings.ttlHours) ∧
        upload.expiryTime (ttlHours.getD settings.ttlHours) <
          input.now + hours (notifyHours.getD settings.notifyHours)
  emitted : ∀ event ∈ (notifyExpiringFiles settings input ttlHours notifyHours
      database).1.events.rows, event ∉ database.events.rows →
    ∃ upload ∈ database.files.rows,
      event.payload = .object (upload.payload (input.url upload.file) ++
        [("expires_at", .string
          (timeStr (upload.expiryTime (ttlHours.getD settings.ttlHours))))]) ∧
      input.now < upload.expiryTime (ttlHours.getD settings.ttlHours)

section Sweep

variable {input : SweepInput} {ttlHours notifyHours : Int} {files : FileTable}

/-- The cutoff of the query, put in terms of the expiry time. -/
theorem lt_cutoff_iff (upload : UploadFile) :
    upload.createdAt < input.now - hours (ttlHours - notifyHours) ↔
      upload.expiryTime ttlHours < input.now + hours notifyHours := by
  have offset : hours (ttlHours - notifyHours) = hours ttlHours - hours notifyHours := by
    simp only [hours, seconds, sub_mul]
  rw [offset, UploadFile.expiryTime, sub_sub_eq_add_sub, lt_sub_iff_add_lt]

theorem mem_expiringFiles_iff {upload : UploadFile} :
    upload ∈ expiringFiles input ttlHours notifyHours files ↔
      upload ∈ files.rows ∧ upload.status = .stored ∧
        upload.expiryTime ttlHours < input.now + hours notifyHours := by
  rw [expiringFiles, (input.order.perm _).mem_iff, List.mem_filter, UploadFile.isExpiring,
    decide_eq_true_eq, lt_cutoff_iff]

theorem nodup_expiringFiles : (expiringFiles input ttlHours notifyHours files).Nodup := by
  rw [expiringFiles, (input.order.perm _).nodup_iff]
  exact files.unique.of_map.filter _

/-- The loop comes to every file before the first that names no blob, whatever the
constraint on events refuses. -/
theorem announceAttempts_eq (uploads : List UploadFile) (events : EventTable) :
    announceAttempts input ttlHours uploads events =
      uploads.takeWhile (·.namesBlob) := by
  induction uploads generalizing events with
  | nil => rfl
  | cons upload rest ih =>
      by_cases named : upload.file = ""
      · simp [announceAttempts, UploadFile.url, UploadFile.namesBlob, named]
      · have names : upload.namesBlob = true := decide_eq_true named
        rw [announceAttempts, UploadFile.url, if_neg named, List.takeWhile_cons_of_pos names]
        rcases announceExpiring_answers input ttlHours events named with
          ⟨grown, announced⟩ | refused
        · simp only [announced, ih]
        · simp only [refused, ih]

/-- What the sweep adds to the events announces files that it has come to. -/
theorem announceAll_emitted {uploads : List UploadFile} (result : SweepResult)
    {events : EventTable} {event : OutboxEvent}
    (member : event ∈ (announceAll input ttlHours uploads result events).1.rows) :
    event ∈ events.rows ∨
      ∃ upload ∈ announceAttempts input ttlHours uploads events,
        event.payload = .object (upload.payload (input.url upload.file) ++
          [("expires_at", .string (timeStr (upload.expiryTime ttlHours)))]) := by
  induction uploads generalizing result events with
  | nil => exact .inl member
  | cons upload rest ih =>
      by_cases named : upload.file = ""
      · obtain ⟨text, refused⟩ := announceExpiring_of_unnamed input ttlHours events named
        simp only [announceAll, refused] at member
        exact .inl member
      · simp only [announceAttempts, UploadFile.url, if_neg named]
        rcases announceExpiring_answers input ttlHours events named with
          ⟨grown, announced⟩ | refused
        · simp only [announceAll, announced] at member ⊢
          rcases ih _ member with before | ⟨later, among, payload⟩
          · rw [emitEvent_rows (announceExpiring_emitted announced).2, List.mem_append,
              List.mem_singleton] at before
            rcases before with old | rfl
            · exact .inl old
            · exact .inr ⟨upload, List.mem_cons_self, rfl⟩
          · exact .inr ⟨later, List.mem_cons_of_mem _ among, payload⟩
        · simp only [announceAll, refused] at member ⊢
          rcases ih _ member with before | ⟨later, among, payload⟩
          · exact .inl before
          · exact .inr ⟨later, List.mem_cons_of_mem _ among, payload⟩

end Sweep

/-- The sweep announces exactly the files whose expiry is near and yet to come if and only if,
of the files that its query returns, the files before the first that names no blob are the
ones whose expiry is yet to come. -/
theorem expiring_files_announced_iff (settings : Settings) (input : SweepInput)
    (ttlHours notifyHours : Option Int) (database : Database) :
    AnnouncesAhead settings input ttlHours notifyHours database ↔
      (∀ upload ∈ (expiringFiles input (ttlHours.getD settings.ttlHours)
          (notifyHours.getD settings.notifyHours) database.files).takeWhile (·.namesBlob),
        input.now < upload.expiryTime (ttlHours.getD settings.ttlHours)) ∧
      ∀ upload ∈ (expiringFiles input (ttlHours.getD settings.ttlHours)
          (notifyHours.getD settings.notifyHours) database.files).dropWhile (·.namesBlob),
        upload.expiryTime (ttlHours.getD settings.ttlHours) ≤ input.now := by
  let ttl := ttlHours.getD settings.ttlHours
  let found := expiringFiles input ttl (notifyHours.getD settings.notifyHours) database.files
  have attempts : notifyAttempts settings input ttlHours notifyHours database =
      found.takeWhile (·.namesBlob) := announceAttempts_eq _ _
  have exactly : (∀ upload ∈ found, upload ∈ found.takeWhile (·.namesBlob) ↔
        input.now < upload.expiryTime ttl) ↔
      (∀ upload ∈ found.takeWhile (·.namesBlob), input.now < upload.expiryTime ttl) ∧
      ∀ upload ∈ found.dropWhile (·.namesBlob), upload.expiryTime ttl ≤ input.now := by
    simp only [← not_lt]
    exact mem_takeWhile_iff_iff nodup_expiringFiles
  refine Iff.trans ?_ exactly
  constructor
  · intro ahead upload member
    obtain ⟨row, stored, near⟩ := mem_expiringFiles_iff.mp member
    rw [← attempts, ahead.attempted upload row]
    exact ⟨fun window => window.2.1, fun still => ⟨stored, still, near⟩⟩
  · intro split
    refine ⟨?_, ?_⟩
    · intro upload row
      rw [attempts]
      constructor
      · intro member
        have among := (List.takeWhile_sublist _).subset member
        obtain ⟨_, stored, near⟩ := mem_expiringFiles_iff.mp among
        exact ⟨stored, (split upload among).mp member, near⟩
      · intro window
        obtain ⟨stored, still, near⟩ := window
        exact (split upload (mem_expiringFiles_iff.mpr ⟨row, stored, near⟩)).mpr still
    · intro event member new
      rcases announceAll_emitted _ member with old | ⟨upload, attempted, payload⟩
      · exact absurd old new
      · rw [announceAttempts_eq] at attempted
        have among := (List.takeWhile_sublist _).subset attempted
        exact ⟨upload, (mem_expiringFiles_iff.mp among).1, payload,
          (split upload among).mp attempted⟩

/-- One hour after its expiry time, a file that is not cleaned up is announced. -/
theorem overdue_file_announced :
    ¬ ∀ (settings : Settings) (input : SweepInput) (ttlHours notifyHours : Int)
      (database : Database), 0 ≤ notifyHours → notifyHours ≤ ttlHours →
      AnnouncesAhead settings input (some ttlHours) (some notifyHours) database := by
  intro claimed
  let input : SweepInput := ⟨hours 25, .stored, fun _ => Sample.uuid 0, id⟩
  have ahead := claimed Sample.defaults input 24 1 Sample.oneStored.database (by decide)
    (by decide)
  have announced : Sample.storedFile ∈
      notifyAttempts Sample.defaults input (some 24) (some 1) Sample.oneStored.database := by
    rw [notifyAttempts, announceAttempts_eq]
    exact List.mem_cons_self
  have window := (ahead.attempted Sample.storedFile List.mem_cons_self).mp announced
  exact absurd window.2.1 (by decide)

end Doorito.Portal
