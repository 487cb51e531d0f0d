import Doorito.Portal.SessionProperties
import Doorito.Foundation.Tiling

/-! What a completed session has received. Parts are stored under any numbers, offsets and
sizes, and the completion counts them; so it is the client that has to send the parts
that the file consists of. -/

set_option autoImplicit false

namespace Doorito.Portal

open Foundation Common

structure PartCall where
  now : Time
  arguments : PartArguments
deriving DecidableEq

def PartCall.part (session : Uuid) (call : PartCall) : UploadPart :=
  call.arguments.part call.now session

def PartCall.partNumber (call : PartCall) : Nat := call.arguments.partNumber

def UploadPart.segment (part : UploadPart) : Segment := ⟨part.offsetBytes, part.sizeBytes⟩

def PartCall.segment (call : PartCall) : Segment :=
  ⟨call.arguments.offsetBytes, call.arguments.sizeBytes⟩

/-- The calls one after the other, whichever of them raise. -/
def recordUploadParts (session : Uuid) (calls : List PartCall) (database : Database) :
    Database :=
  calls.foldl
    (fun database call => (recordUploadPart call.now session call.arguments database).1) database

/-- A call is accepted if it fits the columns and its number is new. -/
def accept (taken : List PartCall) (call : PartCall) : List PartCall :=
  if call.arguments.fitsColumns ∧ call.partNumber ∉ taken.map PartCall.partNumber then
    taken ++ [call]
  else taken

def accepted (calls : List PartCall) : List PartCall := calls.foldl accept []

/-- The calls describe a file of a number of parts and a size: the parts are numbered from
one, lie within the file and apart from each other, and add up to it. -/
structure Describe (calls : List PartCall) (count total : Nat) : Prop where
  numbers : ∀ call ∈ calls, 1 ≤ call.partNumber ∧ call.partNumber ≤ count
  apart : (calls.map PartCall.segment).Pairwise Segment.Apart
  inside : ∀ segment ∈ calls.map PartCall.segment, segment.Within total
  sizes : ((calls.map PartCall.segment).map Segment.size).sum = total

def Database.receivedParts (database : Database) (session : Uuid) : List UploadPart :=
  (database.partsOf session).filter fun part => part.status = .received

/-- All the expected parts of a file have been received: their numbers are exactly those
from one to their count, and their byte ranges tile the file. -/
structure Database.HoldsExpectedParts (database : Database) (session : Uuid)
    (count total : Nat) : Prop where
  numbers : ((database.receivedParts session).map (·.partNumber)).Perm (List.range' 1 count)
  tiles : Tiles ((database.receivedParts session).map UploadPart.segment) total
  sizes : ((database.receivedParts session).map (·.sizeBytes)).sum = total

/-- After the calls, the session expects a number of parts and has those that were accepted. -/
structure Database.HasRecorded (database : Database) (session : Uuid) (count : Nat)
    (calls : List PartCall) : Prop where
  row : ∃ row ∈ database.sessions.rows, row.pk = session ∧ row.totalParts = count
  parts : database.partsOf session = (accepted calls).map (PartCall.part session)

theorem accepted_append (calls : List PartCall) (call : PartCall) :
    accepted (calls ++ [call]) = accept (accepted calls) call := by
  simp [accepted]

theorem recordUploadParts_append (session : Uuid) (calls : List PartCall) (call : PartCall)
    (database : Database) :
    recordUploadParts session (calls ++ [call]) database =
      (recordUploadPart call.now session call.arguments
        (recordUploadParts session calls database)).1 := by
  simp [recordUploadParts]

theorem accepted_numbers_nodup (calls : List PartCall) :
    ((accepted calls).map PartCall.partNumber).Nodup := by
  induction calls using List.reverseRecOn with
  | nil => exact List.nodup_nil
  | append_singleton calls call ih =>
      rw [accepted_append, accept]
      split
      · next taken =>
        rw [List.map_append, List.map_singleton]
        exact List.nodup_append.mpr ⟨ih, List.nodup_singleton _, by
          intro number member other single same
          rw [List.mem_singleton.mp single] at same
          exact taken.2 (same ▸ member)⟩
      · exact ih

namespace Database

variable {database grown : Database} {session : Uuid}

theorem number_mem_partsOf {partNumber : Nat} :
    (session, partNumber) ∈ database.parts.keys ↔
      partNumber ∈ (database.partsOf session).map (·.partNumber) := by
  simp only [Table.mem_keys, UploadPart.key, List.mem_map, mem_partsOf, Prod.mk.injEq]
  constructor
  · intro stored
    obtain ⟨part, member, same, number⟩ := stored
    exact ⟨part, ⟨member, same⟩, number⟩
  · intro stored
    obtain ⟨part, ⟨member, same⟩, number⟩ := stored
    exact ⟨part, member, same, number⟩

theorem partsOf_append {part : UploadPart}
    (rows : grown.parts.rows = database.parts.rows ++ [part]) (key : part.session = session) :
    grown.partsOf session = database.partsOf session ++ [part] := by
  simp [partsOf, rows, key]

end Database

namespace Database.HasRecorded

variable {database : Database} {session : Uuid} {count : Nat} {calls : List PartCall}

theorem known (recorded : database.HasRecorded session count calls) :
    session ∈ database.sessions.keys := by
  obtain ⟨row, member, key, _⟩ := recorded.row
  exact key ▸ Table.mem_keys_of_mem member

theorem number_mem (recorded : database.HasRecorded session count calls) {partNumber : Nat} :
    (session, partNumber) ∈ database.parts.keys ↔
      partNumber ∈ (accepted calls).map PartCall.partNumber := by
  rw [number_mem_partsOf, recorded.parts, List.map_map]
  rfl

theorem of_count {sizeBytes : Nat} {counted : Database}
    (recorded : database.HasRecorded session count calls)
    (result : countPart session sizeBytes database = .ok counted) :
    counted.HasRecorded session count calls := by
  obtain ⟨_, rfl⟩ := countPart_eq_ok_iff.mp result
  obtain ⟨row, member, key, total⟩ := recorded.row
  refine ⟨⟨row.counted sizeBytes, ?_, key, total⟩, recorded.parts⟩
  rw [sessions_writeCount]
  exact List.mem_map.mpr ⟨row, member, if_pos key⟩

theorem of_insert {call : PartCall} {grown : Database}
    (recorded : database.HasRecorded session count calls)
    (result : insertPart call.now session call.arguments database = .ok grown) :
    grown.HasRecorded session count (calls ++ [call]) := by
  obtain ⟨fits, inserted⟩ := insertPart_eq_ok_iff.mp result
  obtain ⟨fresh, _, _, _, sessions, parts, _⟩ := insertPart?_eq_some inserted
  have isNew : call.partNumber ∉ (accepted calls).map PartCall.partNumber :=
    mt recorded.number_mem.mpr fresh
  refine ⟨sessions ▸ recorded.row, ?_⟩
  have appended : grown.partsOf session = database.partsOf session ++ [call.part session] :=
    partsOf_append parts rfl
  rw [appended, recorded.parts, accepted_append, accept, if_pos ⟨fits, isNew⟩, List.map_append]
  rfl

theorem of_rejection {call : PartCall} {error : SessionError}
    (recorded : database.HasRecorded session count calls)
    (result : insertPart call.now session call.arguments database = .error error) :
    database.HasRecorded session count (calls ++ [call]) := by
  refine ⟨recorded.row, ?_⟩
  rw [accepted_append, accept, if_neg, recorded.parts]
  intro taken
  have fresh : (session, call.partNumber) ∉ database.parts.keys :=
    mt recorded.number_mem.mp taken.2
  obtain ⟨grown, inserted⟩ := insertPart_of_fresh call.now taken.1 fresh recorded.known
  rw [inserted] at result
  cases result

theorem of_call (call : PartCall)
    (recorded : database.HasRecorded session count calls) :
    (recordUploadPart call.now session call.arguments database).1.HasRecorded session count
      (calls ++ [call]) := by
  unfold recordUploadPart
  cases inserted : insertPart call.now session call.arguments database with
  | error error => exact recorded.of_rejection inserted
  | ok grown =>
      have stored := recorded.of_insert inserted
      cases counted : countPart session call.arguments.sizeBytes grown with
      | error error => simpa [counted] using stored
      | ok result => simpa [counted] using stored.of_count counted

theorem of_calls (calls : List PartCall)
    (created : database.HasRecorded session count []) :
    (recordUploadParts session calls database).HasRecorded session count calls := by
  induction calls using List.reverseRecOn with
  | nil => exact created
  | append_singleton calls call ih =>
      rw [recordUploadParts_append]
      exact ih.of_call call

theorem receivedParts_eq (recorded : database.HasRecorded session count calls) :
    database.receivedParts session = (accepted calls).map (PartCall.part session) := by
  rw [receivedParts, recorded.parts, List.filter_eq_self]
  intro part member
  obtain ⟨call, _, rfl⟩ := List.mem_map.mp member
  rfl

theorem receivedCount_eq (recorded : database.HasRecorded session count calls) :
    database.receivedCount session = (accepted calls).length := by
  have received := congrArg List.length recorded.receivedParts_eq
  rw [List.length_map] at received
  rw [← received, receivedParts, receivedCount, List.countP_eq_length_filter]

/-- With enough accepted calls, the parts are the expected ones exactly if the calls
describe the file. -/
theorem holdsExpectedParts_iff {total : Nat}
    (recorded : database.HasRecorded session count calls)
    (enough : count ≤ (accepted calls).length) :
    database.HoldsExpectedParts session count total ↔ Describe (accepted calls) count total := by
  have numbers : (database.receivedParts session).map (·.partNumber) =
      (accepted calls).map PartCall.partNumber := by
    rw [recorded.receivedParts_eq, List.map_map]
    rfl
  have segments : (database.receivedParts session).map UploadPart.segment =
      (accepted calls).map PartCall.segment := by
    rw [recorded.receivedParts_eq, List.map_map]
    rfl
  have sizes : (database.receivedParts session).map (·.sizeBytes) =
      ((accepted calls).map PartCall.segment).map Segment.size := by
    rw [recorded.receivedParts_eq, List.map_map, List.map_map]
    rfl
  constructor
  · intro holds
    obtain ⟨apart, inside, sum⟩ := tiles_iff.mp (segments ▸ holds.tiles)
    refine ⟨?_, apart, inside, sum⟩
    intro call member
    have listed : call.partNumber ∈ List.range' 1 count := by
      rw [← holds.numbers.mem_iff, numbers]
      exact List.mem_map_of_mem member
    rw [List.mem_range'_1] at listed
    omega
  · intro describe
    have distinct := accepted_numbers_nodup calls
    refine ⟨?_, ?_, ?_⟩
    · rw [numbers]
      apply (List.perm_ext_iff_of_nodup distinct List.nodup_range').mpr
      intro number
      rw [mem_iff_of_enough distinct ?_ (by simpa using enough), List.mem_range'_1]
      · omega
      · intro other member
        obtain ⟨call, callMember, rfl⟩ := List.mem_map.mp member
        exact describe.numbers call callMember
    · rw [segments]
      exact tiles_iff.mpr ⟨describe.apart, describe.inside, describe.sizes⟩
    · rw [sizes]
      exact describe.sizes

theorem of_creation {created : Database} {now : Time} {file : Uuid} {totalSizeBytes : Nat}
    {chunkSizeBytes : Option Nat}
    (made : createUploadSession now session file totalSizeBytes chunkSizeBytes database =
      .ok created) :
    created.HasRecorded session
      (totalParts totalSizeBytes (chunkSizeBytes.getD defaultChunkSizeBytes)) [] := by
  obtain ⟨_, _, inserted⟩ := createUploadSession_eq_ok_iff.mp made
  obtain ⟨fresh, _, _, _, sessions, parts, _⟩ := insertSession?_eq_some inserted
  let row := newSession now session file totalSizeBytes
    (chunkSizeBytes.getD defaultChunkSizeBytes)
  refine ⟨⟨row, ?_, rfl, rfl⟩, ?_⟩
  · rw [sessions]
    exact List.mem_append_right _ List.mem_cons_self
  · change created.partsOf session = []
    rw [partsOf, parts, List.filter_eq_nil_iff]
    intro part member
    -- A part that was there before belongs to a session that was there before.
    have known := database.partSession part member
    simp only [decide_eq_true_eq]
    intro same
    exact fresh (same ▸ known)

theorem completes {completion : Time} (recorded : database.HasRecorded session count calls)
    (enough : count ≤ (accepted calls).length) :
    ∃ final, completeUploadSession completion session database = .ok final ∧
      ∀ total, final.HoldsExpectedParts session count total ↔
        Describe (accepted calls) count total := by
  obtain ⟨row, member, key, total⟩ := recorded.row
  have received : row.totalParts ≤ database.receivedCount session := by
    rw [total, recorded.receivedCount_eq]
    exact enough
  refine ⟨_, completeUploadSession_of_enough member key received, ?_⟩
  intro total
  rw [← recorded.holdsExpectedParts_iff enough]
  exact ⟨fun holds => ⟨holds.numbers, holds.tiles, holds.sizes⟩,
    fun holds => ⟨holds.numbers, holds.tiles, holds.sizes⟩⟩

theorem enough_of_completes {completion : Time} {final : Database}
    (recorded : database.HasRecorded session count calls)
    (completed : completeUploadSession completion session database = .ok final) :
    count ≤ (accepted calls).length := by
  obtain ⟨row, member, key, total⟩ := recorded.row
  obtain ⟨found, stored, enough, _⟩ := completeUploadSession_eq_ok_iff.mp completed
  obtain ⟨foundMember, foundKey⟩ := Table.get?_eq_some_iff.mp stored
  obtain rfl : found = row := Table.eq_of_key_eq foundMember member (foundKey.trans key.symm)
  rw [total, recorded.receivedCount_eq] at enough
  exact enough

end Database.HasRecorded

/-- For a new session and any calls that record its parts: a completion that returns has
received exactly the expected parts if and only if too few calls were accepted for it to
return, or the accepted calls describe the file. -/
theorem completion_is_sound_iff {before created : Database} {now completion : Time}
    {session file : Uuid} {totalSizeBytes : Nat} {chunkSizeBytes : Option Nat}
    (made : createUploadSession now session file totalSizeBytes chunkSizeBytes before =
      .ok created) (calls : List PartCall) :
    let count := totalParts totalSizeBytes (chunkSizeBytes.getD defaultChunkSizeBytes)
    (∀ final, completeUploadSession completion session
        (recordUploadParts session calls created) = .ok final →
      final.HoldsExpectedParts session count totalSizeBytes) ↔
    (accepted calls).length < count ∨ Describe (accepted calls) count totalSizeBytes := by
  intro count
  have recorded := (Database.HasRecorded.of_creation made).of_calls calls
  constructor
  · intro sound
    by_cases enough : count ≤ (accepted calls).length
    · obtain ⟨final, completed, holds⟩ := recorded.completes enough
      exact .inr ((holds totalSizeBytes).mp (sound final completed))
    · exact .inl (not_le.mp enough)
  · intro conditions final completed
    have enough := recorded.enough_of_completes completed
    have describe := conditions.resolve_left (not_lt.mpr enough)
    obtain ⟨same, completedToo, holds⟩ := recorded.completes enough
    obtain rfl : final = same := Except.ok.inj (completed.symm.trans completedToo)
    exact (holds totalSizeBytes).mpr describe

/-- Two chunks that arrive in the wrong order, the second of them twice. -/
theorem completion_is_sound_twoChunks : ∃ created,
    createUploadSession 0 (Sample.uuid 1) Sample.file.pk 1000 (some 500) Sample.fileStarted =
      .ok created ∧
    ∀ final, completeUploadSession 0 (Sample.uuid 1)
        (recordUploadParts (Sample.uuid 1)
          [⟨0, 2, 500, 500, ""⟩, ⟨0, 2, 0, 1, ""⟩, ⟨0, 1, 0, 500, ""⟩] created) = .ok final →
      final.HoldsExpectedParts (Sample.uuid 1) (totalParts 1000 500) 1000 := by
  obtain ⟨created, made⟩ := Sample.twoChunks_created
  refine ⟨created, made, (completion_is_sound_iff made _).mpr (.inr ?_)⟩
  simp only [Option.getD_some, Sample.totalParts_twoChunks]
  exact ⟨by decide, by decide, by decide, by decide⟩

/-- Parts 1 and 7 of a file of two chunks both hold its first chunk. -/
theorem completion_is_unsound :
    ¬ ∀ (before created : Database) (now completion : Time) (session file : Uuid)
      (totalSizeBytes : Nat) (chunkSizeBytes : Option Nat),
      1 ≤ totalSizeBytes → 1 ≤ chunkSizeBytes.getD defaultChunkSizeBytes →
      createUploadSession now session file totalSizeBytes chunkSizeBytes before = .ok created →
      let chunk := chunkSizeBytes.getD defaultChunkSizeBytes
      let count := totalParts totalSizeBytes chunk
      count = (totalSizeBytes + chunk - 1) / chunk →
      ∀ (calls : List PartCall) (final : Database),
        completeUploadSession completion session (recordUploadParts session calls created) =
          .ok final →
        final.HoldsExpectedParts session count totalSizeBytes := by
  intro sound
  obtain ⟨created, made⟩ := Sample.twoChunks_created
  let calls : List PartCall := [⟨0, 1, 0, 500, ""⟩, ⟨0, 7, 0, 500, ""⟩]
  have recorded := (Database.HasRecorded.of_creation made).of_calls calls
  simp only [Option.getD_some, Sample.totalParts_twoChunks] at recorded
  obtain ⟨final, completed, holds⟩ := recorded.completes (by decide)
  have expected := sound _ _ 0 0 _ _ 1000 (some 500) (by decide) (by decide) made
    Sample.totalParts_twoChunks calls final completed
  simp only [Option.getD_some, Sample.totalParts_twoChunks] at expected
  have describe := (holds 1000).mp expected
  have numbers := describe.numbers ⟨0, 7, 0, 500, ""⟩ (by decide)
  exact absurd numbers.2 (by decide)

end Doorito.Portal
