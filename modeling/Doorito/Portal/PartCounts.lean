import Doorito.Portal.SessionProperties

/-! The number of parts of a session. The quotient of the sizes is rounded to 53 bits before
its ceiling is taken, so a last part that is too small against the unit in the last place
is rounded away. -/

set_option autoImplicit false

namespace Doorito.Portal

open Foundation Common

/-- So many chunks suffice, and no fewer. -/
structure IsPartCount (totalSizeBytes chunkSizeBytes parts : Nat) : Prop where
  enough : totalSizeBytes ≤ parts * chunkSizeBytes
  needed : ((parts : Int) - 1) * chunkSizeBytes < totalSizeBytes

/-- The parts before the last one. -/
def partsBefore (totalSizeBytes chunkSizeBytes : Nat) : Nat := (totalSizeBytes - 1) / chunkSizeBytes

/-- The bytes in the last part. -/
def lastPartBytes (totalSizeBytes chunkSizeBytes : Nat) : Nat :=
  (totalSizeBytes - 1) % chunkSizeBytes + 1

/-- The last part exceeds half a unit in the last place of the parts before it. -/
def LastPartCounts (totalSizeBytes chunkSizeBytes : Nat) : Prop :=
  chunkSizeBytes < lastPartBytes totalSizeBytes chunkSizeBytes *
    2 ^ (53 - Nat.log 2 (partsBefore totalSizeBytes chunkSizeBytes))

instance (totalSizeBytes chunkSizeBytes : Nat) :
    Decidable (LastPartCounts totalSizeBytes chunkSizeBytes) :=
  inferInstanceAs (Decidable (_ < _))

section Sizes

variable {totalSizeBytes chunkSizeBytes : Nat}

theorem totalSizeBytes_eq (positive : 0 < totalSizeBytes) :
    totalSizeBytes = partsBefore totalSizeBytes chunkSizeBytes * chunkSizeBytes +
      lastPartBytes totalSizeBytes chunkSizeBytes := by
  have division := Nat.div_add_mod' (totalSizeBytes - 1) chunkSizeBytes
  rw [partsBefore, lastPartBytes, ← add_assoc, division]
  omega

theorem lastPartBytes_le (some : 0 < chunkSizeBytes) :
    lastPartBytes totalSizeBytes chunkSizeBytes ≤ chunkSizeBytes :=
  Nat.mod_lt _ some

theorem partsBefore_lt (some : 0 < chunkSizeBytes) {most : Nat}
    (fits : totalSizeBytes ≤ most * chunkSizeBytes) (positive : 0 < most) :
    partsBefore totalSizeBytes chunkSizeBytes < most := by
  rw [partsBefore, Nat.div_lt_iff_lt_mul some]
  have nonempty : 0 < most * chunkSizeBytes := Nat.mul_pos positive some
  omega

@[simp] theorem totalParts_zero (chunkSizeBytes : Nat) : totalParts 0 chunkSizeBytes = 0 := by
  have zero : roundSignificand 53 ((0 : ℕ) : ℚ) = ((0 : ℕ) : ℚ) :=
    roundSignificand_natCast (Nat.two_pow_pos 53)
  rw [totalParts, Nat.cast_zero, zero_div, ← Nat.cast_zero, zero]
  simp

/-- The quotient of the sizes, as the parts before the last one and the share of the last. -/
theorem quotient_eq (some : 0 < chunkSizeBytes) (positive : 0 < totalSizeBytes) :
    (totalSizeBytes : ℚ) / chunkSizeBytes = partsBefore totalSizeBytes chunkSizeBytes +
      lastPartBytes totalSizeBytes chunkSizeBytes / chunkSizeBytes := by
  have nonzero : (chunkSizeBytes : ℚ) ≠ 0 := by exact_mod_cast some.ne'
  have whole : (totalSizeBytes : ℚ) = partsBefore totalSizeBytes chunkSizeBytes * chunkSizeBytes +
      lastPartBytes totalSizeBytes chunkSizeBytes := by
    exact_mod_cast totalSizeBytes_eq positive
  rw [div_eq_iff nonzero, add_mul, div_mul_cancel₀ _ nonzero]
  exact whole

/-- A full last part makes the quotient a natural number. -/
theorem totalParts_of_full (some : 0 < chunkSizeBytes) (positive : 0 < totalSizeBytes)
    (few : partsBefore totalSizeBytes chunkSizeBytes < 2 ^ 31)
    (full : lastPartBytes totalSizeBytes chunkSizeBytes = chunkSizeBytes) :
    totalParts totalSizeBytes chunkSizeBytes =
      partsBefore totalSizeBytes chunkSizeBytes + 1 := by
  have whole : totalSizeBytes =
      (partsBefore totalSizeBytes chunkSizeBytes + 1) * chunkSizeBytes := by
    have sum : totalSizeBytes = partsBefore totalSizeBytes chunkSizeBytes * chunkSizeBytes +
        lastPartBytes totalSizeBytes chunkSizeBytes := totalSizeBytes_eq positive
    rw [full] at sum
    rw [add_mul, one_mul]
    exact sum
  calc totalParts totalSizeBytes chunkSizeBytes
      = totalParts ((partsBefore totalSizeBytes chunkSizeBytes + 1) * chunkSizeBytes)
          chunkSizeBytes := by rw [← whole]
    _ = partsBefore totalSizeBytes chunkSizeBytes + 1 :=
        totalParts_mul _ _ some (lt_of_le_of_lt few (by decide))

/-- The share of a last part that is not full. -/
theorem lastShare_bounds (some : 0 < chunkSizeBytes)
    (part : lastPartBytes totalSizeBytes chunkSizeBytes < chunkSizeBytes) :
    (0 : ℚ) < lastPartBytes totalSizeBytes chunkSizeBytes / chunkSizeBytes ∧
      (lastPartBytes totalSizeBytes chunkSizeBytes : ℚ) / chunkSizeBytes < 1 := by
  have chunk : (0 : ℚ) < chunkSizeBytes := by exact_mod_cast some
  have last : (0 : ℚ) < lastPartBytes totalSizeBytes chunkSizeBytes := by
    exact_mod_cast Nat.succ_pos _
  refine ⟨div_pos last chunk, ?_⟩
  rw [div_lt_one chunk]
  exact_mod_cast part

/-- The share of the last part comes to half a unit in the last place at most. -/
theorem lastShare_le_iff (some : 0 < chunkSizeBytes) :
    (lastPartBytes totalSizeBytes chunkSizeBytes : ℚ) / chunkSizeBytes *
        2 ^ (53 - Nat.log 2 (partsBefore totalSizeBytes chunkSizeBytes)) ≤ 1 ↔
      ¬ LastPartCounts totalSizeBytes chunkSizeBytes := by
  have chunk : (0 : ℚ) < chunkSizeBytes := by exact_mod_cast some
  rw [LastPartCounts, not_lt, div_mul_eq_mul_div, div_le_one chunk]
  exact_mod_cast Iff.rfl

/-- What `math.ceil` makes of the rounded quotient. -/
theorem totalParts_eq (some : 0 < chunkSizeBytes) (small : chunkSizeBytes < 2 ^ 53)
    (positive : 0 < totalSizeBytes)
    (few : partsBefore totalSizeBytes chunkSizeBytes < 2 ^ 31) :
    totalParts totalSizeBytes chunkSizeBytes =
      if LastPartCounts totalSizeBytes chunkSizeBytes then
        partsBefore totalSizeBytes chunkSizeBytes + 1
      else partsBefore totalSizeBytes chunkSizeBytes := by
  have log : Nat.log 2 (partsBefore totalSizeBytes chunkSizeBytes) < 31 :=
    Nat.log_lt_of_lt_pow' (by decide) few
  rcases (lastPartBytes_le some).eq_or_lt with full | part
  · have counts : LastPartCounts totalSizeBytes chunkSizeBytes := by
      rw [LastPartCounts, full]
      exact lt_mul_of_one_lt_right some (Nat.one_lt_two_pow (by omega))
    rw [if_pos counts]
    exact totalParts_of_full some positive few full
  · obtain ⟨shared, share⟩ := lastShare_bounds some part
    rcases Nat.eq_zero_or_pos (partsBefore totalSizeBytes chunkSizeBytes) with none | before
    · have counts : LastPartCounts totalSizeBytes chunkSizeBytes := by
        rw [LastPartCounts, none, Nat.log_zero_right, Nat.sub_zero]
        exact lt_of_lt_of_le small (Nat.le_mul_of_pos_left _ (Nat.succ_pos _))
      rw [if_pos counts, totalParts, quotient_eq some positive, none, Nat.cast_zero, zero_add,
        ceil_roundSignificand_of_lt_one (by decide) shared share]
      rfl
    · rw [totalParts, quotient_eq some positive,
        ceil_roundSignificand_of_between before (by omega) (by linarith) (by linarith),
        add_sub_cancel_left]
      by_cases counts : LastPartCounts totalSizeBytes chunkSizeBytes
      · rw [if_pos counts, if_neg ((lastShare_le_iff some).not.mpr (not_not_intro counts))]
        rfl
      · rw [if_neg counts, if_pos ((lastShare_le_iff some).mpr counts)]
        rfl

theorem isPartCount_totalParts_iff (some : 0 < chunkSizeBytes)
    (small : chunkSizeBytes ≤ positiveIntegerMax)
    (fits : totalSizeBytes ≤ positiveIntegerMax * chunkSizeBytes) :
    IsPartCount totalSizeBytes chunkSizeBytes (totalParts totalSizeBytes chunkSizeBytes) ↔
      LastPartCounts totalSizeBytes chunkSizeBytes := by
  have narrow : chunkSizeBytes < 2 ^ 53 := lt_of_le_of_lt small (by decide)
  rcases Nat.eq_zero_or_pos totalSizeBytes with rfl | positive
  · rw [totalParts_zero]
    refine iff_of_true ⟨Nat.zero_le _, by simpa using some⟩ ?_
    rw [LastPartCounts, partsBefore, lastPartBytes, Nat.zero_sub, Nat.zero_div, Nat.zero_mod,
      Nat.log_zero_right, zero_add, one_mul]
    exact narrow
  · have few := partsBefore_lt some fits (by decide)
    have sum : totalSizeBytes = partsBefore totalSizeBytes chunkSizeBytes * chunkSizeBytes +
        lastPartBytes totalSizeBytes chunkSizeBytes := totalSizeBytes_eq positive
    have bytes : 0 < lastPartBytes totalSizeBytes chunkSizeBytes := Nat.succ_pos _
    rw [totalParts_eq some narrow positive (lt_of_lt_of_le few (by decide))]
    split_ifs with counts
    · refine iff_of_true ⟨?_, ?_⟩ counts
      · rw [add_mul, one_mul]
        have most : lastPartBytes totalSizeBytes chunkSizeBytes ≤ chunkSizeBytes :=
          lastPartBytes_le some
        omega
      · push_cast
        rw [add_sub_cancel_right]
        exact_mod_cast (by omega : partsBefore totalSizeBytes chunkSizeBytes * chunkSizeBytes <
          totalSizeBytes)
    · refine iff_of_false ?_ counts
      intro count
      have enough := count.enough
      omega

end Sizes

/-- The stored number of parts is exact if and only if the last part exceeds half a unit in
the last place of a 53-bit number of parts before it. -/
theorem total_parts_exact_iff {now : Time} {pk file : Uuid} {totalSizeBytes : Nat}
    {chunkSizeBytes : Option Nat} {database grown : Database}
    (fits : totalSizeBytes ≤ positiveIntegerMax * chunkSizeBytes.getD defaultChunkSizeBytes)
    (created : createUploadSession now pk file totalSizeBytes chunkSizeBytes database =
      .ok grown) :
    ∃ session ∈ grown.sessions.rows, session.pk = pk ∧
      (IsPartCount totalSizeBytes (chunkSizeBytes.getD defaultChunkSizeBytes)
          session.totalParts ↔
        LastPartCounts totalSizeBytes (chunkSizeBytes.getD defaultChunkSizeBytes)) := by
  obtain ⟨some, fitsColumns, inserted⟩ := createUploadSession_eq_ok_iff.mp created
  obtain ⟨_, _, _, _, sessions, _⟩ := Database.insertSession?_eq_some inserted
  have small : chunkSizeBytes.getD defaultChunkSizeBytes ≤ positiveIntegerMax := by
    simp only [UploadSession.fitsColumns, newSession, Bool.and_eq_true] at fitsColumns
    exact of_decide_eq_true fitsColumns.1.1
  refine ⟨newSession now pk file totalSizeBytes (chunkSizeBytes.getD defaultChunkSizeBytes), ?_,
    rfl, isPartCount_totalParts_iff (Nat.pos_of_ne_zero some) small fits⟩
  rw [sessions]
  exact List.mem_append_right _ List.mem_cons_self

/-! ## One byte more than 8388608 chunks of one gibibyte -/

namespace Sample

def gibibyte : Nat := 1073741824

def oneMore : Nat := 8388608 * gibibyte + 1

theorem totalParts_oneMore : totalParts oneMore gibibyte = 8388608 := by
  rw [totalParts_eq (by decide) (by decide) (by decide) (by decide)]
  decide

theorem oneMore_created : ∃ created,
    createUploadSession 0 (uuid 1) file.pk oneMore (some gibibyte) fileStarted =
      .ok created := by
  refine ⟨_, createUploadSession_eq_ok_iff.mpr ⟨by decide, ?_, rfl⟩⟩
  simp only [UploadSession.fitsColumns, newSession, Option.getD_some, totalParts_oneMore]
  decide

end Sample

/-- Two chunks of 500 bytes. -/
theorem total_parts_exact_iff_twoChunks : ∃ created,
    createUploadSession 0 (Sample.uuid 1) Sample.file.pk 1000 (some 500) Sample.fileStarted =
      .ok created ∧
    ∃ session ∈ created.sessions.rows, session.pk = Sample.uuid 1 ∧
      IsPartCount 1000 500 session.totalParts := by
  obtain ⟨created, made⟩ := Sample.twoChunks_created
  obtain ⟨session, member, key, exact⟩ := total_parts_exact_iff (by decide) made
  exact ⟨created, made, session, member, key, exact.mpr (by decide)⟩

/-- The byte after the last full chunk gets no part. -/
theorem total_parts_one_short :
    ¬ ∀ (now : Time) (pk file : Uuid) (totalSizeBytes chunkSizeBytes : Nat)
      (database grown : Database), totalSizeBytes ≤ positiveBigIntegerMax →
      1 ≤ chunkSizeBytes → chunkSizeBytes ≤ positiveIntegerMax →
      totalSizeBytes ≤ positiveIntegerMax * chunkSizeBytes →
      createUploadSession now pk file totalSizeBytes (some chunkSizeBytes) database = .ok grown →
      ∀ session ∈ grown.sessions.rows, session.pk = pk →
        IsPartCount totalSizeBytes chunkSizeBytes session.totalParts := by
  intro exact
  obtain ⟨created, made⟩ := Sample.oneMore_created
  obtain ⟨_, _, inserted⟩ := createUploadSession_eq_ok_iff.mp made
  obtain ⟨_, _, _, _, sessions, _⟩ := Database.insertSession?_eq_some inserted
  have member : newSession 0 (Sample.uuid 1) Sample.file.pk Sample.oneMore
      Sample.gibibyte ∈
      created.sessions.rows := by
    rw [sessions]
    exact List.mem_append_right _ List.mem_cons_self
  have count := exact 0 _ _ Sample.oneMore Sample.gibibyte _ created (by decide) (by decide)
    (by decide) (by decide) made _ member rfl
  have enough := count.enough
  rw [newSession, Sample.totalParts_oneMore] at enough
  exact absurd enough (by decide)

end Doorito.Portal
