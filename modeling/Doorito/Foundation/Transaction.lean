import Mathlib.Data.List.Basic

/-! A database connection with nested atomic blocks and hooks that wait for the commit. A
rollback restores the database and drops the hooks of the block; what a program has done
outside the database stays. -/

set_option autoImplicit false

namespace Doorito.Foundation

/-- The database, what is outside of it, the hooks that wait, and the hooks that were
performed, each with the database that was committed then. -/
structure Connection (Db Outside Hook : Type) where
  database : Db
  outside : Outside
  inAtomicBlock : Bool
  needsRollback : Bool
  runOnCommit : List Hook
  performed : List (Hook × Db)

/-- What a program does on a connection. A block is given the error, if any, that the database
raises when it ends. -/
inductive Program (Db Outside Hook Error : Type) : Type → Type 1 where
  | compute {Result : Type} (value : Except Error Result) : Program Db Outside Hook Error Result
  | query {Result : Type} (statement : Db → Outside → Outside × Except Error (Db × Result)) :
      Program Db Outside Hook Error Result
  | onCommit (hook : Hook) : Program Db Outside Hook Error Unit
  | bind {Middle Result : Type} (first : Program Db Outside Hook Error Middle)
      (next : Middle → Program Db Outside Hook Error Result) :
      Program Db Outside Hook Error Result
  | attempt {Result : Type} (body : Program Db Outside Hook Error Result)
      (handler : Error → Program Db Outside Hook Error Result) :
      Program Db Outside Hook Error Result
  | atomic {Result : Type} (ends : Option Error) (body : Program Db Outside Hook Error Result) :
      Program Db Outside Hook Error Result

/-- The error of a query on a connection that waits for a rollback, and what a hook raises. -/
structure Backend (Hook Error : Type) where
  refused : Error
  raises : Hook → Option Error

variable {Db Outside Hook Error Result : Type}

namespace Connection

/-- Perform the hooks in order, up to the first that raises. -/
def perform (backend : Backend Hook Error) (result : Result) :
    List Hook → Connection Db Outside Hook → Connection Db Outside Hook × Except Error Result
  | [], conn => (conn, .ok result)
  | hook :: rest, conn =>
      let performed := { conn with performed := conn.performed ++ [(hook, conn.database)] }
      match backend.raises hook with
      | some error => (performed, .error error)
      | none => perform backend result rest performed

/-- What is left of a block that is rolled back. -/
def rollback (entered after : Connection Db Outside Hook) : Connection Db Outside Hook :=
  { entered with outside := after.outside, performed := after.performed }

/-- The end of an atomic block, seen from the connection that entered it. -/
def leave (backend : Backend Hook Error) (ends : Option Error)
    (entered after : Connection Db Outside Hook) (result : Except Error Result) :
    Connection Db Outside Hook × Except Error Result :=
  -- Without a savepoint of its own the block leaves the rollback to the one around it.
  if entered.inAtomicBlock && entered.needsRollback then
    ({ after with needsRollback := true }, result)
  else
    match result with
    | .error error => (entered.rollback after, .error error)
    | .ok value =>
        if after.needsRollback then (entered.rollback after, .ok value)
        else
          match ends with
          | some error => (entered.rollback after, .error error)
          | none =>
              if entered.inAtomicBlock then (after, .ok value)
              else
                { after with inAtomicBlock := false, runOnCommit := [] }.perform backend value
                  after.runOnCommit

/-- Outside of all blocks no rollback and no hook is waited for. -/
structure Sound (conn : Connection Db Outside Hook) : Prop where
  clean : conn.inAtomicBlock = false → conn.needsRollback = false
  ran : conn.inAtomicBlock = false → conn.runOnCommit = []

end Connection

open Connection

def Program.run (backend : Backend Hook Error) {Result : Type} :
    Program Db Outside Hook Error Result → Connection Db Outside Hook →
      Connection Db Outside Hook × Except Error Result
  | .compute value, conn => (conn, value)
  | .query statement, conn =>
      if conn.needsRollback then (conn, .error backend.refused)
      else
        match statement conn.database conn.outside with
        | (outside, .ok (database, result)) => ({ conn with database, outside }, .ok result)
        | (outside, .error error) =>
            ({ conn with outside, needsRollback := conn.inAtomicBlock }, .error error)
  | .onCommit hook, conn =>
      if conn.inAtomicBlock then ({ conn with runOnCommit := conn.runOnCommit ++ [hook] }, .ok ())
      else conn.perform backend () [hook]
  | .bind first next, conn =>
      match first.run backend conn with
      | (after, .ok value) => (next value).run backend after
      | (after, .error error) => (after, .error error)
  | .attempt body handler, conn =>
      match body.run backend conn with
      | (after, .ok value) => (after, .ok value)
      | (after, .error error) => (handler error).run backend after
  | .atomic ends body, conn =>
      let (after, result) := body.run backend { conn with inAtomicBlock := true }
      leave backend ends conn after result

/-- A program that enters hooks only together with entries of a log in the database. -/
inductive Paired (logged : Db → List Hook) :
    ∀ {Result : Type}, Program Db Outside Hook Error Result → Prop where
  | compute {Result : Type} (value : Except Error Result) : Paired logged (.compute value)
  | query {Result : Type} {statement : Db → Outside → Outside × Except Error (Db × Result)}
      (keeps : ∀ database outside after result,
        (statement database outside).2 = .ok (after, result) → logged after = logged database) :
      Paired logged (.query statement)
  | record {Result : Type} {statement : Db → Outside → Outside × Except Error (Db × Result)}
      (hook : Result → Hook)
      (adds : ∀ database outside after result,
        (statement database outside).2 = .ok (after, result) →
          logged after = logged database ++ [hook result]) :
      Paired logged (.bind (.query statement) fun result =>
        .bind (.onCommit (hook result)) fun _ => .compute (.ok result))
  | bind {Middle Result : Type} {first : Program Db Outside Hook Error Middle}
      {next : Middle → Program Db Outside Hook Error Result} (one : Paired logged first)
      (rest : ∀ value, Paired logged (next value)) : Paired logged (.bind first next)
  | attempt {Result : Type} {body : Program Db Outside Hook Error Result}
      {handler : Error → Program Db Outside Hook Error Result} (one : Paired logged body)
      (other : ∀ error, Paired logged (handler error)) : Paired logged (.attempt body handler)
  | atomic {Result : Type} {ends : Option Error} {body : Program Db Outside Hook Error Result}
      (one : Paired logged body) : Paired logged (.atomic ends body)

/-- The new entries of the log are the hooks that were performed, or that wait if the program
is run within a block. -/
structure Accounts (logged : Db → List Hook) (before after : Connection Db Outside Hook)
    (entries : List Hook) : Prop where
  block : after.inAtomicBlock = before.inAtomicBlock
  logs : logged after.database = logged before.database ++ entries
  waits : before.inAtomicBlock = true →
    after.performed = before.performed ∧ after.runOnCommit = before.runOnCommit ++ entries
  performs : before.inAtomicBlock = false → ∃ done, after.performed = before.performed ++ done ∧
    done.map (·.1) = entries ∧ ∀ pair ∈ done, pair.1 ∈ logged pair.2

section Accounts

variable {logged : Db → List Hook} {before middle after : Connection Db Outside Hook}
  {first second entries : List Hook}

theorem Accounts.of_same (database : after.database = before.database)
    (block : after.inAtomicBlock = before.inAtomicBlock)
    (waiting : after.runOnCommit = before.runOnCommit)
    (performed : after.performed = before.performed) : Accounts logged before after [] := by
  refine ⟨block, ?_, ?_, ?_⟩
  · rw [database, List.append_nil]
  · rw [performed, waiting, List.append_nil]
    exact fun _ => ⟨rfl, rfl⟩
  · exact fun _ => ⟨[], by simp [performed]⟩

theorem Accounts.trans (one : Accounts logged before middle first)
    (two : Accounts logged middle after second) :
    Accounts logged before after (first ++ second) := by
  refine ⟨two.block.trans one.block, ?_, ?_, ?_⟩
  · rw [two.logs, one.logs, List.append_assoc]
  · intro inBlock
    obtain ⟨performed, waiting⟩ := one.waits inBlock
    obtain ⟨samePerformed, more⟩ := two.waits (one.block.trans inBlock)
    exact ⟨samePerformed.trans performed, by rw [more, waiting, List.append_assoc]⟩
  · intro outside
    obtain ⟨done, performed, hooks, logged⟩ := one.performs outside
    obtain ⟨more, later, moreHooks, moreLogged⟩ := two.performs (one.block.trans outside)
    refine ⟨done ++ more, ?_, by rw [List.map_append, hooks, moreHooks], ?_⟩
    · rw [later, performed, List.append_assoc]
    · exact List.forall_mem_append.mpr ⟨logged, moreLogged⟩

variable {backend : Backend Hook Error} (safe : ∀ hook, backend.raises hook = none)

include safe in
/-- Hooks that do not raise are all performed. -/
theorem Connection.perform_of_safe (result : Result) (hooks : List Hook)
    (conn : Connection Db Outside Hook) :
    conn.perform backend result hooks =
      ({ conn with performed := conn.performed ++ hooks.map fun hook => (hook, conn.database) },
        .ok result) := by
  induction hooks generalizing conn with
  | nil => rw [perform, List.map_nil, List.append_nil]
  | cons hook rest ih =>
      rw [perform, safe hook]
      dsimp only
      rw [ih, List.append_assoc]
      rfl

include safe in
/-- A block leaves the connection to the block around it, rolls back, or commits. -/
theorem Connection.leave_cases {entered : Connection Db Outside Hook} (ends : Option Error)
    (result : Except Error Result) {left : Connection Db Outside Hook}
    (leaves : (leave backend ends entered after result).1 = left) :
    (entered.inAtomicBlock = true ∧
        (left = { after with needsRollback := true } ∨ left = after)) ∨
      left = entered.rollback after ∨
      (entered.inAtomicBlock = false ∧ after.needsRollback = false ∧
        left = { after with
          inAtomicBlock := false
          runOnCommit := []
          performed := after.performed ++
            after.runOnCommit.map fun hook => (hook, after.database) }) := by
  subst leaves
  cases inBlock : entered.inAtomicBlock <;> cases waits : entered.needsRollback
  case true.true => simp [leave, inBlock, waits]
  all_goals
    cases result with
    | error error => simp [leave, inBlock, waits]
    | ok value =>
        cases marked : after.needsRollback
        case true => simp [leave, inBlock, waits, marked]
        cases ends with
        | some error => simp [leave, inBlock, waits, marked]
        | none => simp [leave, inBlock, waits, marked, perform_of_safe safe]

include safe in
/-- The end of a block: it is rolled back and has no entries, or all of them count. -/
theorem Connection.leave_accounts {entered : Connection Db Outside Hook} {ends : Option Error}
    {result : Except Error Result} (sound : entered.Sound)
    (accounts : Accounts logged { entered with inAtomicBlock := true } after entries) :
    ∃ counted, (leave backend ends entered after result).1.Sound ∧
      Accounts logged entered (leave backend ends entered after result).1 counted := by
  obtain ⟨performed, waiting⟩ := accounts.waits rfl
  have inside : after.inAtomicBlock = true := accounts.block
  have soundInside (left : Connection Db Outside Hook) (same : left.inAtomicBlock = true) :
      left.Sound := ⟨by simp [same], by simp [same]⟩
  rcases leave_cases safe ends result rfl with
    ⟨inBlock, left | left⟩ | left | ⟨outermost, saved, left⟩
  · rw [left]
    refine ⟨entries, soundInside _ inside, inside.trans inBlock.symm, accounts.logs, ?_, ?_⟩
    · exact fun _ => ⟨performed, waiting⟩
    · simp [inBlock]
  · rw [left]
    refine ⟨entries, soundInside _ inside, inside.trans inBlock.symm, accounts.logs, ?_, ?_⟩
    · exact fun _ => ⟨performed, waiting⟩
    · simp [inBlock]
  · rw [left]
    exact ⟨[], ⟨sound.clean, sound.ran⟩, .of_same rfl rfl rfl performed⟩
  · rw [left]
    refine ⟨entries, ⟨fun _ => saved, fun _ => rfl⟩, outermost.symm, accounts.logs, ?_, ?_⟩
    · simp [outermost]
    · intro _
      dsimp only at performed waiting ⊢
      rw [sound.ran outermost, List.nil_append] at waiting
      refine ⟨entries.map fun hook => (hook, after.database), ?_, by simp [Function.comp_def], ?_⟩
      · rw [performed, waiting]
      · intro pair member
        obtain ⟨hook, entered, rfl⟩ := List.mem_map.mp member
        rw [accounts.logs]
        exact List.mem_append_right _ entered

include safe in
/-- Whatever the nesting of blocks and handlers, a paired program accounts for its hooks. -/
theorem Paired.accounts {program : Program Db Outside Hook Error Result}
    (paired : Paired logged program) {conn : Connection Db Outside Hook} (sound : conn.Sound) :
    ∃ entries, (program.run backend conn).1.Sound ∧
      Accounts logged conn (program.run backend conn).1 entries := by
  induction paired generalizing conn with
  | compute value => exact ⟨[], sound, .of_same rfl rfl rfl rfl⟩
  | @query _ statement keeps =>
      rw [Program.run]
      split_ifs
      · exact ⟨[], sound, .of_same rfl rfl rfl rfl⟩
      · split
        · rename_i outside database result returned
          have same := keeps conn.database conn.outside database result (by rw [returned])
          refine ⟨[], ⟨sound.clean, sound.ran⟩, rfl, ?_, ?_, ?_⟩
          · rw [same, List.append_nil]
          · exact fun _ => ⟨rfl, (List.append_nil _).symm⟩
          · exact fun _ => ⟨[], by simp⟩
        · exact ⟨[], ⟨fun outside => outside, sound.ran⟩, .of_same rfl rfl rfl rfl⟩
  | @record _ statement hook adds =>
      simp only [Program.run]
      split_ifs with rollback
      · exact ⟨[], sound, .of_same rfl rfl rfl rfl⟩
      · cases returned : statement conn.database conn.outside with
        | mk outside outcome =>
            cases outcome with
            | error error =>
                exact ⟨[], ⟨fun outside => outside, sound.ran⟩, .of_same rfl rfl rfl rfl⟩
            | ok written =>
                obtain ⟨database, result⟩ := written
                have added := adds conn.database conn.outside database result (by rw [returned])
                dsimp only
                split_ifs with inBlock
                · refine ⟨[hook result], ⟨?_, ?_⟩, rfl, added, fun _ => ⟨rfl, rfl⟩, ?_⟩
                  · exact sound.clean
                  · intro outside
                    cases inBlock.symm.trans outside
                  · intro outside
                    cases inBlock.symm.trans outside
                · rw [perform_of_safe safe]
                  refine ⟨[hook result], ⟨sound.clean, sound.ran⟩, rfl, added, ?_, ?_⟩
                  · intro inside
                    exact absurd inside inBlock
                  · exact fun _ => ⟨[(hook result, database)], rfl, rfl, by simp [added]⟩
  | @bind _ _ first next _ _ ihFirst ihNext =>
      obtain ⟨one, soundOne, accountsOne⟩ := ihFirst sound
      rw [Program.run]
      cases ran : first.run backend conn with
      | mk after outcome =>
          rw [ran] at soundOne accountsOne
          cases outcome with
          | error error => exact ⟨one, soundOne, accountsOne⟩
          | ok value =>
              obtain ⟨two, soundTwo, accountsTwo⟩ := ihNext value soundOne
              exact ⟨one ++ two, soundTwo, accountsOne.trans accountsTwo⟩
  | @attempt _ body handler _ _ ihBody ihHandler =>
      obtain ⟨one, soundOne, accountsOne⟩ := ihBody sound
      rw [Program.run]
      cases ran : body.run backend conn with
      | mk after outcome =>
          rw [ran] at soundOne accountsOne
          cases outcome with
          | ok value => exact ⟨one, soundOne, accountsOne⟩
          | error error =>
              obtain ⟨two, soundTwo, accountsTwo⟩ := ihHandler error soundOne
              exact ⟨one ++ two, soundTwo, accountsOne.trans accountsTwo⟩
  | @atomic _ ends body _ ih =>
      have entered : ({ conn with inAtomicBlock := true } : Connection Db Outside Hook).Sound :=
        ⟨nofun, nofun⟩
      obtain ⟨entries, _, accounts⟩ := ih entered
      rw [Program.run]
      exact leave_accounts safe sound accounts

include safe in
/-- A block outside of all others that raises has changed nothing in the database, and has
performed no hook of its own. -/
theorem Program.run_atomic_of_raised {ends : Option Error}
    {body : Program Db Outside Hook Error Result} {conn : Connection Db Outside Hook}
    {error : Error} (outermost : conn.inAtomicBlock = false) (paired : Paired logged body)
    (raised : ((Program.atomic ends body).run backend conn).2 = .error error) :
    ((Program.atomic ends body).run backend conn).1.database = conn.database ∧
      ((Program.atomic ends body).run backend conn).1.performed = conn.performed := by
  have entered : ({ conn with inAtomicBlock := true } : Connection Db Outside Hook).Sound :=
    ⟨nofun, nofun⟩
  obtain ⟨_, _, accounts⟩ := paired.accounts safe entered
  have performed : _ = conn.performed := (accounts.waits rfl).1
  rw [Program.run] at raised ⊢
  cases ran : body.run backend { conn with inAtomicBlock := true } with
  | mk after result =>
      rw [ran] at raised performed
      dsimp only at performed
      cases result with
      | error _ => simp [leave, outermost, rollback, performed]
      | ok value =>
          cases marked : after.needsRollback <;> cases ends <;>
            simp_all [leave, rollback, perform_of_safe safe]

end Accounts

/-! ## One block -/

section Block

variable {backend : Backend Hook Error} {ends : Option Error}
  {body : Program Db Outside Hook Error Result} {conn after : Connection Db Outside Hook}
  (clear : conn.needsRollback = false)

include clear in
/-- A query that only reads. -/
theorem Program.run_read (read : Db → Result) :
    (Program.query fun database outside => (outside, .ok (database, read database))).run backend
        conn = (conn, .ok (read conn.database)) := by
  rw [Program.run, if_neg (by simp [clear])]

include clear in
theorem Program.run_atomic_of_error {error : Error}
    (ran : body.run backend { conn with inAtomicBlock := true } = (after, .error error)) :
    (Program.atomic ends body).run backend conn = (conn.rollback after, .error error) := by
  rw [Program.run, ran]
  simp [leave, clear]

variable {value : Result}
  (ran : body.run backend { conn with inAtomicBlock := true } = (after, .ok value))
  (unmarked : after.needsRollback = false)

include clear ran unmarked in
/-- A block whose end fails is rolled back. -/
theorem Program.run_atomic_of_unsaved {error : Error} :
    (Program.atomic (some error) body).run backend conn =
      (conn.rollback after, .error error) := by
  rw [Program.run, ran]
  simp [leave, clear, unmarked]

include clear ran unmarked in
theorem Program.run_atomic_of_saved (safe : ∀ hook, backend.raises hook = none) :
    ((Program.atomic none body).run backend conn).1.database = after.database ∧
      ((Program.atomic none body).run backend conn).1.outside = after.outside ∧
      ((Program.atomic none body).run backend conn).1.needsRollback = false ∧
      ((Program.atomic none body).run backend conn).2 = .ok value := by
  rw [Program.run, ran]
  cases inBlock : conn.inAtomicBlock <;>
    simp [leave, clear, unmarked, inBlock, perform_of_safe safe]

end Block

end Doorito.Foundation
