import Doorito.Foundation.Machine
import Doorito.Portal.Batches

/-! What a client key does for the creation of batches. A call is one INSERT that reads
nothing first, and no constraint of the table names the key, so every call adds a row. -/

set_option autoImplicit false

namespace Doorito.Portal

open Foundation Common

/-- A call of `create_batch`, with its clock reading and the key of its row. -/
structure BatchCall where
  now : Time
  pk : Uuid
  user : Option Nat
  idempotencyKey : String

namespace BatchCall

def batch (call : BatchCall) : UploadBatch :=
  newBatch call.now call.pk call.user call.idempotencyKey

/-- The database after the call, and the batch that it returns. -/
def perform (call : BatchCall) (database : Database) :
    Database × Except DbError UploadBatch :=
  match createBatch call.now call.pk call.user call.idempotencyKey database with
  | .error error => (database, .error error)
  | .ok grown => (grown, .ok call.batch)

/-- The row is what an earlier call with this user and this key has left. -/
def Repeats (call : BatchCall) (row : UploadBatch) : Prop :=
  call.idempotencyKey ≠ "" ∧ row.createdBy = call.user ∧
    row.idempotencyKey = call.idempotencyKey

end BatchCall

/-- Calls in the order of their statements. A uuid7 key is never given out twice. -/
def batchCreation : Machine Database BatchCall where
  step database call :=
    if call.pk ∈ database.batches.keys then none else some (call.perform database).1

/-- At most one row for each user and non-empty key. -/
def OnePerKey (database : Database) : Prop :=
  ∀ left ∈ database.batches.rows, ∀ right ∈ database.batches.rows,
    left.idempotencyKey ≠ "" → left.createdBy = right.createdBy →
      left.idempotencyKey = right.idempotencyKey → left = right

/-- A repeated call returns the row that is there and changes nothing. -/
def ReturnsExisting (database : Database) (call : BatchCall) : Prop :=
  ∀ row ∈ database.batches.rows, call.Repeats row →
    call.perform database = (database, .ok row)

/-- The call is the first with its user and key. -/
def RepeatsNone (database : Database) (call : BatchCall) : Prop :=
  ∀ row ∈ database.batches.rows, ¬ call.Repeats row

section Step

variable {database next : Database} {call : BatchCall}

/-- A call fails and changes nothing, or it adds its row. -/
theorem perform_cases (call : BatchCall) (database : Database) :
    (∃ error, call.perform database = (database, .error error)) ∨
      ∃ grown, call.perform database = (grown, .ok call.batch) ∧
        grown.batches.rows = database.batches.rows ++ [call.batch] := by
  unfold BatchCall.perform
  cases created : createBatch call.now call.pk call.user call.idempotencyKey database with
  | error error => exact .inl ⟨error, rfl⟩
  | ok grown =>
      obtain ⟨_, inserted⟩ := createBatch_eq_ok_iff.mp created
      exact .inr ⟨grown, rfl, (Database.insertBatch?_eq_some inserted).2.1⟩

theorem batchCreation_step_eq_some_iff :
    batchCreation.step database call = some next ↔
      call.pk ∉ database.batches.keys ∧ (call.perform database).1 = next := by
  simp only [batchCreation, Option.ite_none_left_eq_some, Option.some.injEq]

/-- What a call returns is not an older row, so it must be the first of its kind. -/
theorem repeatsNone_of_returnsExisting (stepped : batchCreation.step database call = some next)
    (returns : ReturnsExisting database call) : RepeatsNone database call := by
  intro row member repeats
  have answer := returns row member repeats
  rcases perform_cases call database with ⟨error, fails⟩ | ⟨grown, adds, _⟩
  · rw [fails] at answer
    cases answer
  · rw [adds] at answer
    obtain ⟨fresh, _⟩ := batchCreation_step_eq_some_iff.mp stepped
    have same : call.batch = row := Except.ok.inj (Prod.mk.inj answer).2
    exact fresh (Table.mem_keys.mpr ⟨row, member, congrArg UploadBatch.pk same.symm⟩)

theorem onePerKey_step (one : OnePerKey database) (first : RepeatsNone database call)
    (stepped : batchCreation.step database call = some next) : OnePerKey next := by
  obtain ⟨_, rfl⟩ := batchCreation_step_eq_some_iff.mp stepped
  rcases perform_cases call database with ⟨error, fails⟩ | ⟨grown, adds, rows⟩
  · rw [fails]
    exact one
  · rw [adds]
    intro left leftMember right rightMember keyed sameUser sameKey
    rw [rows] at leftMember rightMember
    rcases List.mem_append.mp leftMember with leftOld | leftNew
    · rcases List.mem_append.mp rightMember with rightOld | rightNew
      · exact one left leftOld right rightOld keyed sameUser sameKey
      · rw [List.mem_singleton.mp rightNew] at sameUser sameKey
        have repeats : call.Repeats left :=
          ⟨fun empty => keyed (sameKey.trans empty), sameUser, sameKey⟩
        exact absurd repeats (first left leftOld)
    · rw [List.mem_singleton.mp leftNew] at keyed sameUser sameKey
      rcases List.mem_append.mp rightMember with rightOld | rightNew
      · exact absurd ⟨keyed, sameUser.symm, sameKey.symm⟩ (first right rightOld)
      · rw [List.mem_singleton.mp leftNew, List.mem_singleton.mp rightNew]

end Step

/-- For every sequence of calls, from any table: there is at most one row for each user and
non-empty key in every state, and repeated calls return the row that is there, if and only if
that was so at the beginning and no call is a repeated one. -/
theorem create_batch_idempotent_iff (start : Database) (calls : List BatchCall) :
    batchCreation.Always OnePerKey start calls ∧
        batchCreation.Meets ReturnsExisting start calls ↔
      OnePerKey start ∧ batchCreation.Meets RepeatsNone start calls := by
  constructor
  · intro idempotent
    refine ⟨idempotent.1 [] calls start rfl rfl, ?_⟩
    rw [Machine.meets_iff_forall_split]
    intro before call after state next split ran stepped
    have returns := Machine.meets_iff_forall_split.mp idempotent.2
      before call after state next split ran stepped
    exact repeatsNone_of_returnsExisting stepped returns
  · intro condition
    obtain ⟨one, first⟩ := condition
    constructor
    · exact Machine.always_of_meets OnePerKey (fun _ => id)
        (fun _ _ _ => onePerKey_step) one first
    · exact first.of_invariant (fun _ => True) (fun _ _ _ _ _ _ => trivial)
        (fun _ _ _ none row member repeats => absurd repeats (none row member)) trivial

/-! ## A client that sends its request twice -/

namespace Sample

def clientCall (number : Nat) : BatchCall := ⟨0, uuid number, some 1, "order-1"⟩

end Sample

/-- There are two batches after the second call. -/
theorem create_batch_not_idempotent :
    ¬ ∀ (start : Database) (calls : List BatchCall), OnePerKey start →
      batchCreation.Always OnePerKey start calls ∧
        batchCreation.Meets ReturnsExisting start calls := by
  intro idempotent
  have calls := idempotent .empty [Sample.clientCall 1, Sample.clientCall 2]
    (fun _ none => absurd none List.not_mem_nil)
  have one := calls.1 [Sample.clientCall 1, Sample.clientCall 2] [] _ rfl rfl
  have same := one _ List.mem_cons_self _ (List.mem_cons_of_mem _ List.mem_cons_self)
    (by decide) rfl rfl
  exact absurd (congrArg UploadBatch.pk same) (by decide)

end Doorito.Portal
