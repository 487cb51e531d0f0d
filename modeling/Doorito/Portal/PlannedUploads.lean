import Doorito.Foundation.Cutting
import Doorito.Foundation.History
import Doorito.Portal.Completion
import Doorito.Portal.PartCounts
import Doorito.Portal.ProgressCounters

/-! Chunked uploads by clients that keep to the plan: they cut the file into chunks and send
each of them under its number, in any order, as often as they like and from any number of
places at once. The calls of other sessions are arbitrary. -/

set_option autoImplicit false

namespace Doorito.Portal

open Foundation Common Machine

/-- A file that is cut into chunks, of which the session counts the last one. -/
structure ChunkPlan where
  totalSizeBytes : Nat
  chunkSizeBytes : Nat
  positive : 0 < totalSizeBytes
  some : 0 < chunkSizeBytes
  small : chunkSizeBytes ≤ positiveIntegerMax
  fits : totalSizeBytes ≤ positiveIntegerMax * chunkSizeBytes
  stored : totalSizeBytes ≤ positiveBigIntegerMax
  counts : LastPartCounts totalSizeBytes chunkSizeBytes

namespace ChunkPlan

variable (plan : ChunkPlan)

def count : Nat := partsBefore plan.totalSizeBytes plan.chunkSizeBytes + 1

def segment (number : Nat) : Segment := cut plan.chunkSizeBytes plan.totalSizeBytes number

def part (number : Nat) (sha256 : String) : PartArguments :=
  ⟨number, (plan.segment number).offset, (plan.segment number).size, sha256⟩

/-- The arguments are those of a chunk of the plan. -/
def Contains (arguments : PartArguments) : Prop :=
  (1 ≤ arguments.partNumber ∧ arguments.partNumber ≤ plan.count) ∧ arguments.sha256.length ≤ 64 ∧
    arguments = plan.part arguments.partNumber arguments.sha256

/-- Every call on the session sends a chunk of the plan. -/
def Keeps (session : Uuid) : SessionAction → Prop
  | .insertPart _ target arguments => target = session → plan.Contains arguments
  | .countPart _ | .complete _ _ => True

end ChunkPlan

/-- The first statement of a call that sends the part with the number. -/
def SendsPart (session : Uuid) (number : Nat) : SessionAction → Prop
  | .insertPart _ target arguments => target = session ∧ arguments.partNumber = number
  | .countPart _ | .complete _ _ => False

def ChunkPlan.AllSent (plan : ChunkPlan) (session : Uuid) (actions : List SessionAction) : Prop :=
  ∀ number, 1 ≤ number → number ≤ plan.count →
    ∃ action ∈ actions, SendsPart session number action

section Plan

variable (plan : ChunkPlan)

theorem ChunkPlan.count_le : plan.count ≤ positiveIntegerMax :=
  partsBefore_lt plan.some plan.fits (by decide)

theorem ChunkPlan.totalParts_eq :
    totalParts plan.totalSizeBytes plan.chunkSizeBytes = plan.count := by
  have few := plan.count_le
  have small := plan.small
  have max : positiveIntegerMax = 2 ^ 31 - 1 := rfl
  rw [ChunkPlan.count] at few ⊢
  rw [Portal.totalParts_eq plan.some (by omega) plan.positive (by omega), if_pos plan.counts]

theorem ChunkPlan.enough : plan.totalSizeBytes ≤ plan.count * plan.chunkSizeBytes := by
  have last : lastPartBytes plan.totalSizeBytes plan.chunkSizeBytes ≤ plan.chunkSizeBytes :=
    lastPartBytes_le plan.some
  calc plan.totalSizeBytes
      = _ := totalSizeBytes_eq plan.positive
    _ ≤ partsBefore plan.totalSizeBytes plan.chunkSizeBytes * plan.chunkSizeBytes +
          plan.chunkSizeBytes := Nat.add_le_add_left last _
    _ = plan.count * plan.chunkSizeBytes := (Nat.succ_mul ..).symm

variable {plan}

theorem ChunkPlan.Contains.fitsColumns {arguments : PartArguments}
    (contains : plan.Contains arguments) : arguments.fitsColumns := by
  obtain ⟨⟨_, most⟩, hash, is⟩ := contains
  have number := most.trans plan.count_le
  have stored := plan.stored
  -- The offset lies within the file, as there is a chunk at it.
  have before : (arguments.partNumber - 1) * plan.chunkSizeBytes ≤ plan.totalSizeBytes := by
    have whole : plan.totalSizeBytes =
        partsBefore plan.totalSizeBytes plan.chunkSizeBytes * plan.chunkSizeBytes +
          lastPartBytes plan.totalSizeBytes plan.chunkSizeBytes :=
      totalSizeBytes_eq plan.positive
    calc (arguments.partNumber - 1) * plan.chunkSizeBytes
        ≤ partsBefore plan.totalSizeBytes plan.chunkSizeBytes * plan.chunkSizeBytes :=
          Nat.mul_le_mul_right _ (Nat.sub_le_of_le_add most)
      _ ≤ _ := Nat.le_add_right _ _
      _ = plan.totalSizeBytes := whole.symm
  have offset : arguments.offsetBytes = (arguments.partNumber - 1) * plan.chunkSizeBytes :=
    congrArg PartArguments.offsetBytes is
  have size : arguments.sizeBytes = min plan.chunkSizeBytes
      (plan.totalSizeBytes - (arguments.partNumber - 1) * plan.chunkSizeBytes) :=
    congrArg PartArguments.sizeBytes is
  simp only [PartArguments.fitsColumns, Bool.and_eq_true, decide_eq_true_iff]
  exact ⟨⟨⟨number, by omega⟩, by omega⟩, hash⟩

end Plan

/-! ## What is stored -/

/-- What holds of a session whose clients keep to the plan. -/
structure PlannedInvariant (plan : ChunkPlan) (session : Uuid) (past : List SessionAction)
    (world : SessionWorld) : Prop where
  row : ∃ row ∈ world.database.sessions.rows, row.pk = session ∧ row.totalParts = plan.count
  parts : ∀ part ∈ world.database.partsOf session, part.status = .received ∧
    (1 ≤ part.partNumber ∧ part.partNumber ≤ plan.count) ∧
    part.segment = plan.segment part.partNumber
  sent : ∀ number, (session, number) ∈ world.database.parts.keys ↔
    ∃ action ∈ past, SendsPart session number action
  counters : CountersExact session world

def Database.partNumbers (database : Database) (session : Uuid) : List Nat :=
  (database.partsOf session).map (·.partNumber)

theorem partNumbers_nodup (database : Database) (session : Uuid) :
    (database.partNumbers session).Nodup := by
  have keys : ((database.partsOf session).map UploadPart.key).Nodup :=
    database.parts.unique.sublist (List.filter_sublist.map _)
  rw [Database.partNumbers]
  refine List.Nodup.of_map (fun number => (session, number)) ?_
  rw [List.map_map]
  refine (List.map_congr_left fun part member => ?_) ▸ keys
  rw [← (Database.mem_partsOf.mp member).2]
  rfl

namespace PlannedInvariant

variable {plan : ChunkPlan} {session : Uuid} {past : List SessionAction} {world : SessionWorld}

theorem segments (invariant : PlannedInvariant plan session past world) :
    (world.database.partsOf session).map UploadPart.segment =
      (world.database.partNumbers session).map plan.segment := by
  rw [Database.partNumbers, List.map_map]
  exact List.map_congr_left fun part member => (invariant.parts part member).2.2

theorem numbers_inside (invariant : PlannedInvariant plan session past world) :
    ∀ number ∈ world.database.partNumbers session, 1 ≤ number ∧ number ≤ plan.count := by
  intro number member
  obtain ⟨part, partMember, rfl⟩ := List.mem_map.mp member
  exact (invariant.parts part partMember).2.1

theorem partSizes_eq (invariant : PlannedInvariant plan session past world) :
    world.database.partSizes session =
      ((world.database.partNumbers session).map plan.segment).map Segment.size := by
  rw [← invariant.segments, List.map_map]
  rfl

theorem length_le (invariant : PlannedInvariant plan session past world) :
    (world.database.partsOf session).length ≤ plan.count := by
  have subperm : (world.database.partNumbers session).Subperm (List.range' 1 plan.count) := by
    refine (partNumbers_nodup _ _).subperm ?_
    intro number member
    have inside := invariant.numbers_inside number member
    exact List.mem_range'_1.mpr (by omega)
  have length := subperm.length_le
  rwa [Database.partNumbers, List.length_map, List.length_range'] at length

theorem sum_le (invariant : PlannedInvariant plan session past world) :
    (world.database.partSizes session).sum ≤ plan.totalSizeBytes := by
  rw [invariant.partSizes_eq]
  exact sum_cuts_le (partNumbers_nodup _ _) fun number member =>
    (invariant.numbers_inside number member).1

/-- The counters never exceed the plan, so a counter update finds room in its columns. -/
theorem countersFit (invariant : PlannedInvariant plan session past world)
    (action : SessionAction) : CountersFit session world action := by
  cases action with
  | insertPart | complete => trivial
  | countPart call =>
      intro sizeBytes found row member key
      have tallies := invariant.counters row member key
      have closed := openSizes_endCall found rfl world.database
      have count := tallies.count
      have bytes := tallies.bytes
      rw [closed.length_eq, List.length_cons] at count
      rw [closed.sum_eq, List.sum_cons] at bytes
      dsimp only at bytes
      have length := invariant.length_le
      have sum := invariant.sum_le
      have most := plan.count_le
      have stored := plan.stored
      rw [Database.partSizes, List.length_map] at count
      simp only [UploadSession.countFits, Bool.and_eq_true, decide_eq_true_iff]
      omega

/-- A step that stores no part of the session. -/
theorem of_same_parts {action : SessionAction} {next : SessionWorld}
    (invariant : PlannedInvariant plan session past world)
    (counters : CountersExact session next)
    (row : ∃ row ∈ next.database.sessions.rows, row.pk = session ∧ row.totalParts = plan.count)
    (parts : next.database.partsOf session = world.database.partsOf session)
    (known : ∀ number, SendsPart session number action →
      (session, number) ∈ world.database.parts.keys) :
    PlannedInvariant plan session (past ++ [action]) next := by
  refine ⟨row, parts ▸ invariant.parts, fun number => ?_, counters⟩
  rw [Database.number_mem_partsOf, parts, ← Database.number_mem_partsOf]
  simp only [List.mem_append, List.mem_singleton, or_and_right, exists_or, exists_eq_left]
  rw [← invariant.sent number]
  exact ⟨.inl, fun either => either.elim id (known number)⟩

/-- A step that stores a chunk of the plan. -/
theorem of_new_part {now : Time} {arguments : PartArguments} {next : SessionWorld}
    (invariant : PlannedInvariant plan session past world) (contains : plan.Contains arguments)
    (counters : CountersExact session next)
    (row : ∃ row ∈ next.database.sessions.rows, row.pk = session ∧ row.totalParts = plan.count)
    (parts : next.database.partsOf session =
      world.database.partsOf session ++ [arguments.part now session]) :
    PlannedInvariant plan session (past ++ [.insertPart now session arguments]) next := by
  refine ⟨row, ?_, fun number => ?_, counters⟩
  · intro part member
    rw [parts] at member
    rcases List.mem_append.mp member with old | new
    · exact invariant.parts part old
    · obtain rfl := List.mem_singleton.mp new
      obtain ⟨inside, _, is⟩ := contains
      have offset := congrArg PartArguments.offsetBytes is
      have size := congrArg PartArguments.sizeBytes is
      exact ⟨rfl, inside, congrArg₂ Segment.mk offset size⟩
  · rw [Database.number_mem_partsOf, parts, List.map_append, List.mem_append,
      ← Database.number_mem_partsOf, invariant.sent number]
    simp [SendsPart, or_and_right, exists_or, PartArguments.part, eq_comm]

theorem rejected_known {now : Time} {arguments : PartArguments} {error : SessionError}
    (invariant : PlannedInvariant plan session past world) (contains : plan.Contains arguments)
    (rejected : insertPart now session arguments world.database = .error error) :
    (session, arguments.partNumber) ∈ world.database.parts.keys := by
  by_contra fresh
  obtain ⟨row, member, key, _⟩ := invariant.row
  obtain ⟨grown, inserted⟩ := insertPart_of_fresh now contains.fitsColumns fresh
    (key ▸ Table.mem_keys_of_mem member)
  rw [inserted] at rejected
  cases rejected

theorem of_step {action : SessionAction} {next : SessionWorld}
    (invariant : PlannedInvariant plan session past world) (keeps : plan.Keeps session action)
    (stepped : chunkedUploads.step world action = some next) :
    PlannedInvariant plan session (past ++ [action]) next := by
  have counters : CountersExact session next :=
    (invariant.counters.iff_countersFit stepped).mpr (invariant.countersFit action)
  obtain ⟨row, member, key, total⟩ := invariant.row
  cases SessionStep.of_step stepped with
  | @inserted now target arguments grown inserted =>
      obtain ⟨_, stored⟩ := insertPart_eq_ok_iff.mp inserted
      obtain ⟨_, _, _, _, sessions, parts, _⟩ := Database.insertPart?_eq_some stored
      have kept : ∃ row ∈ grown.sessions.rows, row.pk = session ∧ row.totalParts = plan.count :=
        ⟨row, sessions ▸ member, key, total⟩
      by_cases same : target = session
      · subst same
        exact invariant.of_new_part (keeps rfl) counters kept (Database.partsOf_append parts rfl)
      · apply invariant.of_same_parts counters kept
        · simp [Database.partsOf, parts, PartArguments.part, same]
        · intro number sends
          exact absurd sends.1 same
  | rejected rejected =>
      apply invariant.of_same_parts counters ⟨row, member, key, total⟩ rfl
      intro number sends
      obtain ⟨rfl, rfl⟩ := sends
      exact invariant.rejected_known (keeps rfl) rejected
  | @counted call record counted found result =>
      obtain ⟨_, rfl⟩ := countPart_eq_ok_iff.mp result
      refine invariant.of_same_parts counters
        ⟨_, sessions_writeCount ▸ List.mem_map_of_mem member, ?_⟩ rfl (fun _ sends => sends.elim)
      split <;> exact ⟨key, total⟩
  | uncounted _ _ =>
      exact invariant.of_same_parts counters ⟨row, member, key, total⟩ rfl
        (fun _ sends => sends.elim)
  | @completed now target completed result =>
      obtain ⟨_, _, _, rfl⟩ := completeUploadSession_eq_ok_iff.mp result
      refine invariant.of_same_parts counters
        ⟨_, sessions_writeCompletion ▸ List.mem_map_of_mem member, ?_⟩ rfl
        (fun _ sends => sends.elim)
      split <;> exact ⟨key, total⟩
  | incomplete _ =>
      exact invariant.of_same_parts counters ⟨row, member, key, total⟩ rfl
        (fun _ sends => sends.elim)

theorem of_creation {before created : Database} {now : Time} {file : Uuid}
    (made : createUploadSession now session file plan.totalSizeBytes (some plan.chunkSizeBytes)
      before = .ok created) : PlannedInvariant plan session [] (.init created) := by
  have recorded := Database.HasRecorded.of_creation made
  have none : created.partsOf session = [] := recorded.parts
  have row := recorded.row
  rw [Option.getD_some, plan.totalParts_eq] at row
  refine ⟨row, ?_, fun number => ?_, CountersExact.of_creation made⟩
  · intro part member
    rw [SessionWorld.init, none] at member
    cases member
  · rw [SessionWorld.init, Database.number_mem_partsOf, none]
    simp

theorem of_run {before created : Database} {now : Time} {file : Uuid}
    {actions : List SessionAction}
    (made : createUploadSession now session file plan.totalSizeBytes (some plan.chunkSizeBytes)
      before = .ok created)
    (keeps : ∀ action ∈ actions, plan.Keeps session action)
    (ran : chunkedUploads.run (.init created) actions = some world) :
    PlannedInvariant plan session actions world := by
  have carried : (∀ action ∈ actions, plan.Keeps session action) →
      PlannedInvariant plan session actions world := by
    refine run_induction (fun past world => (∀ action ∈ past, plan.Keeps session action) →
      PlannedInvariant plan session past world) (fun _ => of_creation made) ?_ ran
    intro past action state next _ stepped ih all
    exact (ih fun other member => all other (List.mem_append_left _ member)).of_step
      (all action (List.mem_append_right _ List.mem_cons_self)) stepped
  exact carried keeps

theorem receivedParts_eq (invariant : PlannedInvariant plan session past world) :
    world.database.receivedParts session = world.database.partsOf session :=
  List.filter_eq_self.mpr fun part member => decide_eq_true (invariant.parts part member).1

theorem receivedCount_eq (invariant : PlannedInvariant plan session past world) :
    world.database.receivedCount session = (world.database.partNumbers session).length := by
  rw [Database.receivedCount, List.countP_eq_length_filter, Database.partNumbers,
    List.length_map]
  exact congrArg List.length invariant.receivedParts_eq

/-- As many parts as the plan has chunks are all of them. -/
theorem perm_of_enough (invariant : PlannedInvariant plan session past world)
    (enough : plan.count ≤ (world.database.partNumbers session).length) :
    (world.database.partNumbers session).Perm (List.range' 1 plan.count) := by
  have distinct := partNumbers_nodup world.database session
  apply (List.perm_ext_iff_of_nodup distinct List.nodup_range').mpr
  intro number
  rw [mem_iff_of_enough distinct invariant.numbers_inside enough, List.mem_range'_1]
  omega

theorem enough_iff (invariant : PlannedInvariant plan session past world) :
    plan.count ≤ (world.database.partNumbers session).length ↔ plan.AllSent session past := by
  constructor
  · intro enough number positive most
    apply (invariant.sent number).mp
    apply Database.number_mem_partsOf.mpr
    exact (mem_iff_of_enough (partNumbers_nodup _ _) invariant.numbers_inside enough
      number).mpr ⟨positive, most⟩
  · intro all
    have subperm : (List.range' 1 plan.count).Subperm (world.database.partNumbers session) := by
      apply List.Nodup.subperm List.nodup_range'
      intro number member
      have bounds := List.mem_range'_1.mp member
      have sent := all number bounds.1 (by omega)
      exact Database.number_mem_partsOf.mp ((invariant.sent number).mpr sent)
    have length := subperm.length_le
    rwa [List.length_range'] at length

/-- The chunks tile the file, in whatever order they have come. -/
theorem holdsExpectedParts (invariant : PlannedInvariant plan session past world)
    (enough : plan.count ≤ (world.database.partNumbers session).length) :
    world.database.HoldsExpectedParts session plan.count plan.totalSizeBytes := by
  have all := invariant.perm_of_enough enough
  have tiles : Tiles ((world.database.partsOf session).map UploadPart.segment)
      plan.totalSizeBytes := by
    rw [invariant.segments]
    exact tiles_cuts plan.enough all
  have sizes : (world.database.partSizes session).sum = plan.totalSizeBytes := by
    rw [invariant.partSizes_eq, ← invariant.segments]
    exact (tiles_iff.mp tiles).2.2
  constructor
  · rw [invariant.receivedParts_eq]
    exact all
  · rw [invariant.receivedParts_eq]
    exact tiles
  · rw [invariant.receivedParts_eq]
    exact sizes

theorem completes_iff (invariant : PlannedInvariant plan session past world)
    (completion : Time) :
    (∃ final, completeUploadSession completion session world.database = .ok final) ↔
      plan.AllSent session past := by
  obtain ⟨row, member, key, total⟩ := invariant.row
  rw [← invariant.enough_iff, ← invariant.receivedCount_eq]
  constructor
  · intro completes
    obtain ⟨final, completed⟩ := completes
    obtain ⟨found, stored, enough, _⟩ := completeUploadSession_eq_ok_iff.mp completed
    obtain ⟨foundMember, foundKey⟩ := Table.get?_eq_some_iff.mp stored
    obtain rfl : found = row := Table.eq_of_key_eq foundMember member (foundKey.trans key.symm)
    exact total ▸ enough
  · intro enough
    exact ⟨_, completeUploadSession_of_enough member key (total ▸ enough)⟩

/-- With all the chunks there and no call open, the counters say so. -/
theorem counters_of_enough (invariant : PlannedInvariant plan session past world)
    (enough : plan.count ≤ (world.database.partNumbers session).length)
    (closed : world.openSizes session = []) {row : UploadSession}
    (member : row ∈ world.database.sessions.rows) (key : row.pk = session) :
    row.completedParts = plan.count ∧ row.bytesReceived = plan.totalSizeBytes := by
  have tallies := invariant.counters row member key
  rw [closed] at tallies
  obtain ⟨count, bytes⟩ := tallies.of_none_open
  have holds := invariant.holdsExpectedParts enough
  have sizes : (world.database.partSizes session).sum = plan.totalSizeBytes := by
    rw [← holds.sizes, invariant.receivedParts_eq, Database.partSizes]
  have length : (world.database.partNumbers session).length = plan.count := by
    rw [(invariant.perm_of_enough enough).length_eq, List.length_range']
  rw [Database.partNumbers, List.length_map] at length
  rw [Database.partSizes, List.length_map] at count
  exact ⟨count.trans length, bytes.trans sizes⟩

end PlannedInvariant

/-- Clients that keep to the plan, in every interleaving of their calls with each other and
with arbitrary calls of other sessions: the completion returns if and only if every chunk has
been sent, and the session then has the whole file; the counters say so unless a call still
stands between its two statements. -/
theorem planned_uploads_complete {plan : ChunkPlan} {before created : Database} {now : Time}
    {session file : Uuid}
    (made : createUploadSession now session file plan.totalSizeBytes (some plan.chunkSizeBytes)
      before = .ok created)
    {actions : List SessionAction} (keeps : ∀ action ∈ actions, plan.Keeps session action)
    {world : SessionWorld} (ran : chunkedUploads.run (.init created) actions = some world)
    (completion : Time) :
    ((∃ final, completeUploadSession completion session world.database = .ok final) ↔
        plan.AllSent session actions) ∧
      ∀ final, completeUploadSession completion session world.database = .ok final →
        final.HoldsExpectedParts session plan.count plan.totalSizeBytes ∧
          (world.openSizes session = [] → ∀ row ∈ final.sessions.rows, row.pk = session →
            row.completedParts = plan.count ∧ row.bytesReceived = plan.totalSizeBytes) := by
  have invariant := PlannedInvariant.of_run made keeps ran
  refine ⟨invariant.completes_iff completion, fun final completed => ?_⟩
  have enough := invariant.enough_iff.mpr ((invariant.completes_iff completion).mp
    ⟨final, completed⟩)
  obtain ⟨_, _, _, rfl⟩ := completeUploadSession_eq_ok_iff.mp completed
  have holds := invariant.holdsExpectedParts enough
  refine ⟨⟨holds.numbers, holds.tiles, holds.sizes⟩, fun closed row member key => ?_⟩
  rw [sessions_writeCompletion] at member
  obtain ⟨old, oldMember, rfl⟩ := List.mem_map.mp member
  have oldKey : old.pk = session := by simpa [apply_ite UploadSession.pk] using key
  have counters := invariant.counters_of_enough enough closed oldMember oldKey
  rw [if_pos oldKey]
  exact counters

/-! ## A file of two chunks -/

namespace Sample

def twoChunks : ChunkPlan where
  totalSizeBytes := 1000
  chunkSizeBytes := 500
  positive := by decide
  some := by decide
  small := by decide
  fits := by decide
  stored := by decide
  counts := by decide

def twoChunksExpected : Database :=
  { fileStarted with
    sessions := ⟨[newSession 0 (uuid 1) file.pk 1000 500], by decide⟩
    sessionFile := by
      intro session member
      rw [List.mem_singleton.mp member]
      decide
    partSession := by decide }

theorem twoChunksExpected_created :
    createUploadSession 0 (uuid 1) file.pk 1000 (some 500) fileStarted =
      .ok twoChunksExpected := by
  refine createUploadSession_eq_ok_iff.mpr ⟨by decide, ?_, rfl⟩
  simp [UploadSession.fitsColumns, newSession, totalParts_twoChunks, positiveIntegerMax,
    positiveBigIntegerMax]

/-- The second chunk comes first, and once more while its first call is open. -/
def twoChunksSent : List SessionAction :=
  [.insertPart 0 (uuid 1) (twoChunks.part 2 ""), .insertPart 1 (uuid 1) (twoChunks.part 2 ""),
    .insertPart 2 (uuid 1) (twoChunks.part 1 ""), .countPart 2, .countPart 0]

def twoChunksReceived : SessionWorld :=
  (chunkedUploads.run (.init twoChunksExpected) twoChunksSent).getD (.init twoChunksExpected)

theorem twoChunksSent_run :
    chunkedUploads.run (.init twoChunksExpected) twoChunksSent = some twoChunksReceived := rfl

theorem keeps_twoChunksSent : ∀ action ∈ twoChunksSent, twoChunks.Keeps (uuid 1) action := by
  intro action member
  simp only [twoChunksSent, List.mem_cons, List.not_mem_nil, or_false] at member
  rcases member with rfl | rfl | rfl | rfl | rfl
  · exact fun _ => ⟨by decide, by decide, rfl⟩
  · exact fun _ => ⟨by decide, by decide, rfl⟩
  · exact fun _ => ⟨by decide, by decide, rfl⟩
  · trivial
  · trivial

theorem twoChunksReceived_completes :
    completeUploadSession 3 (uuid 1) twoChunksReceived.database =
      .ok (twoChunksReceived.database.writeCompletion 3 (uuid 1) file.pk) := by
  let row := ((newSession 0 (uuid 1) file.pk 1000 500).counted 500).counted 500
  have member : row ∈ twoChunksReceived.database.sessions.rows := List.mem_cons_self
  exact completeUploadSession_of_enough member rfl totalParts_twoChunks.le

end Sample

theorem planned_uploads_complete_twoChunks :
    Sample.twoChunks.AllSent (Sample.uuid 1) Sample.twoChunksSent ∧
      (Sample.twoChunksReceived.database.writeCompletion 3 (Sample.uuid 1)
        Sample.file.pk).HoldsExpectedParts (Sample.uuid 1) 2 1000 := by
  obtain ⟨completes, holds⟩ := planned_uploads_complete Sample.twoChunksExpected_created
    Sample.keeps_twoChunksSent Sample.twoChunksSent_run 3
  exact ⟨completes.mp ⟨_, Sample.twoChunksReceived_completes⟩,
    (holds _ Sample.twoChunksReceived_completes).1⟩

/-! ## After the completion -/

/-- The file is there, no call is open, and the session is COMPLETE. -/
structure PlanSettled (plan : ChunkPlan) (session : Uuid) (past : List SessionAction)
    (world : SessionWorld) : Prop where
  invariant : PlannedInvariant plan session past world
  enough : plan.count ≤ (world.database.partNumbers session).length
  closed : world.openSizes session = []
  complete : ∀ row ∈ world.database.sessions.rows, row.pk = session → row.status = .complete

namespace PlanSettled

variable {plan : ChunkPlan} {session : Uuid} {past : List SessionAction} {world : SessionWorld}

/-- A chunk that is sent again is rejected, as its number is taken. -/
theorem rejects (settled : PlanSettled plan session past world)
    {arguments : PartArguments} (contains : plan.Contains arguments) :
    (session, arguments.partNumber) ∈ world.database.parts.keys := by
  apply Database.number_mem_partsOf.mpr
  exact (mem_iff_of_enough (partNumbers_nodup _ _) settled.invariant.numbers_inside
    settled.enough _).mpr contains.1

theorem no_open_call (settled : PlanSettled plan session past world) {call : Nat}
    {record : OpenCall} (found : world.calls[call]? = some (some record)) :
    record.session ≠ session := by
  intro same
  have perm := openSizes_endCall found same world.database
  rw [settled.closed] at perm
  exact List.cons_ne_nil _ _ perm.nil_eq.symm

theorem of_completion (invariant : PlannedInvariant plan session past world)
    (closed : world.openSizes session = []) {completion : Time} {final : Database}
    (completed : completeUploadSession completion session world.database = .ok final) :
    PlanSettled plan session (past ++ [.complete completion session])
      { world with database := final } := by
  have stepped : chunkedUploads.step world (.complete completion session) =
      some { world with database := final } := by
    simp only [chunkedUploads, completed]
  have keeps : plan.Keeps session (.complete completion session) := trivial
  have next := invariant.of_step keeps stepped
  have sent := (invariant.completes_iff completion).mp ⟨final, completed⟩
  refine ⟨next, next.enough_iff.mpr ?_, closed, ?_⟩
  · intro number positive most
    obtain ⟨action, member, sends⟩ := sent number positive most
    exact ⟨action, List.mem_append_left _ member, sends⟩
  · obtain ⟨_, _, _, rfl⟩ := completeUploadSession_eq_ok_iff.mp completed
    intro row member key
    rw [sessions_writeCompletion] at member
    obtain ⟨old, _, rfl⟩ := List.mem_map.mp member
    have oldKey : old.pk = session := by simpa [apply_ite UploadSession.pk] using key
    rw [if_pos oldKey]
    rfl

theorem of_step {action : SessionAction} {next : SessionWorld}
    (settled : PlanSettled plan session past world) (keeps : plan.Keeps session action)
    (stepped : chunkedUploads.step world action = some next) :
    PlanSettled plan session (past ++ [action]) next := by
  have invariant := settled.invariant.of_step keeps stepped
  have enough : plan.count ≤ (next.database.partNumbers session).length := by
    apply invariant.enough_iff.mpr
    intro number positive most
    obtain ⟨sender, member, sends⟩ :=
      settled.invariant.enough_iff.mp settled.enough number positive most
    exact ⟨sender, List.mem_append_left _ member, sends⟩
  cases SessionStep.of_step stepped with
  | @inserted now target arguments grown inserted =>
      obtain ⟨_, stored⟩ := insertPart_eq_ok_iff.mp inserted
      obtain ⟨fresh, _, _, _, sessions, _⟩ := Database.insertPart?_eq_some stored
      by_cases same : target = session
      · subst same
        exact absurd (settled.rejects (keeps rfl)) fresh
      · refine ⟨invariant, enough, (openSizes_open_other same).trans settled.closed, ?_⟩
        rw [sessions]
        exact settled.complete
  | rejected _ =>
      exact ⟨invariant, enough, openSizes_rejected.trans settled.closed, settled.complete⟩
  | @counted call record counted found result =>
      have other := settled.no_open_call found
      obtain ⟨_, rfl⟩ := countPart_eq_ok_iff.mp result
      refine ⟨invariant, enough, (openSizes_endCall_other found other _).trans settled.closed, ?_⟩
      intro row member key
      simp only [SessionWorld.endCall, sessions_writeCount, List.mem_map] at member
      obtain ⟨old, oldMember, rfl⟩ := member
      have oldKey : old.pk = session := by simpa [apply_ite UploadSession.pk] using key
      rw [if_neg fun same => other (same.symm.trans oldKey)]
      exact settled.complete old oldMember oldKey
  | uncounted found _ =>
      have other := settled.no_open_call found
      exact ⟨invariant, enough, (openSizes_endCall_other found other _).trans settled.closed,
        settled.complete⟩
  | @completed now target completed result =>
      obtain ⟨_, _, _, rfl⟩ := completeUploadSession_eq_ok_iff.mp result
      refine ⟨invariant, enough, settled.closed, ?_⟩
      intro row member key
      rw [sessions_writeCompletion] at member
      obtain ⟨old, oldMember, rfl⟩ := List.mem_map.mp member
      have oldKey : old.pk = session := by simpa [apply_ite UploadSession.pk] using key
      split
      · rfl
      · exact settled.complete old oldMember oldKey
  | incomplete _ => exact ⟨invariant, enough, settled.closed, settled.complete⟩

theorem of_run {actions : List SessionAction} {later : SessionWorld}
    (settled : PlanSettled plan session past world)
    (keeps : ∀ action ∈ actions, plan.Keeps session action)
    (ran : chunkedUploads.run world actions = some later) :
    ∃ all, PlanSettled plan session all later := by
  have step : ∀ state action next, (∃ past, PlanSettled plan session past state) →
      plan.Keeps session action → chunkedUploads.step state action = some next →
        ∃ past, PlanSettled plan session past next := by
    intro state action next before kept stepped
    obtain ⟨past, settled⟩ := before
    exact ⟨_, settled.of_step kept stepped⟩
  exact run_preserves_of_meets step ⟨past, settled⟩
    (meets_of_forall fun action member _ => keeps action member) ran

end PlanSettled

/-- A session that is completed while no call is open stays COMPLETE with the whole file, as
long as the clients keep to the plan: chunks that they send again are rejected before any
counter moves. -/
theorem planned_uploads_stay_complete {plan : ChunkPlan} {before created : Database} {now : Time}
    {session file : Uuid}
    (made : createUploadSession now session file plan.totalSizeBytes (some plan.chunkSizeBytes)
      before = .ok created)
    {actions more : List SessionAction}
    (keeps : ∀ action ∈ actions ++ more, plan.Keeps session action)
    {world later : SessionWorld} (ran : chunkedUploads.run (.init created) actions = some world)
    (closed : world.openSizes session = []) {completion : Time} {final : Database}
    (completed : completeUploadSession completion session world.database = .ok final)
    (continued : chunkedUploads.run { world with database := final } more = some later) :
    later.database.HoldsExpectedParts session plan.count plan.totalSizeBytes ∧
      ∀ row ∈ later.database.sessions.rows, row.pk = session →
        row.status = .complete ∧ row.completedParts = plan.count ∧
          row.bytesReceived = plan.totalSizeBytes := by
  have invariant := PlannedInvariant.of_run made
    (fun action member => keeps action (List.mem_append_left _ member)) ran
  obtain ⟨all, settled⟩ := (PlanSettled.of_completion invariant closed completed).of_run
    (fun action member => keeps action (List.mem_append_right _ member)) continued
  refine ⟨settled.invariant.holdsExpectedParts settled.enough, fun row member key => ?_⟩
  exact ⟨settled.complete row member key,
    settled.invariant.counters_of_enough settled.enough settled.closed member key⟩

/-- After the completion, the first chunk is sent once more. -/
theorem planned_uploads_stay_complete_resent : ∃ later,
    chunkedUploads.run
        { Sample.twoChunksReceived with
          database :=
            Sample.twoChunksReceived.database.writeCompletion 3 (Sample.uuid 1) Sample.file.pk }
        [.insertPart 4 (Sample.uuid 1) (Sample.twoChunks.part 1 "")] = some later ∧
      later.database.HoldsExpectedParts (Sample.uuid 1) 2 1000 := by
  have keeps : ∀ action ∈ Sample.twoChunksSent ++
      [.insertPart 4 (Sample.uuid 1) (Sample.twoChunks.part 1 "")],
      Sample.twoChunks.Keeps (Sample.uuid 1) action := by
    intro action member
    rcases List.mem_append.mp member with sent | resent
    · exact Sample.keeps_twoChunksSent action sent
    · rw [List.mem_singleton.mp resent]
      exact fun _ => ⟨by decide, by decide, rfl⟩
  have stays := planned_uploads_stay_complete Sample.twoChunksExpected_created keeps
    Sample.twoChunksSent_run rfl Sample.twoChunksReceived_completes rfl
  exact ⟨_, rfl, stays.1⟩

end Doorito.Portal
