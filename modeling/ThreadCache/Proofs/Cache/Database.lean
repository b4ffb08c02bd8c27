import ThreadCache.Cache.Database
import ThreadCache.Proofs.Cache.Table

/-!
# Batches in the database

## Main results

* `Database.apply_eq_ok`: a batch that does not fail has been written to its last statement.
* `Database.load_after`: what a database loads as follows the operations that are written to it.

## Proof strategy

A batch stops at the first statement that fails and then leaves nothing behind, so one that goes
through has run every statement; the table then keeps what the operations make of the store that it
kept before (`Table.Keeps.run`).
-/

namespace ThreadCache.Cache.Database

/-- The database after the statements of all operations. -/
def after (db : Database) (ops : List StoreOperation) : Database :=
  { db with table := (ops.flatMap statementsOf).foldl Statement.run db.table }

/-- The database has no row that it refuses to write or to delete. -/
def Accepting (db : Database) : Prop := db.refusedInserts = [] ∧ db.refusedDeletes = []

theorem Accepting.after {db : Database} (accepting : db.Accepting) (ops : List StoreOperation) :
    (db.after ops).Accepting := accepting

/-! ### Batches -/

theorem run_eq_some {db : Database} {outage : Outage} {position : Nat} {t t' : Table}
    {statements : List Statement} (ran : db.run outage position t statements = some t') :
    t' = statements.foldl Statement.run t := by
  -- A run that is not cut short has taken every statement, at whatever position it started.
  induction statements generalizing position t with
  | nil =>
    rw [run] at ran
    split at ran
    · cases ran
    · exact (Option.some.inj ran).symm
  | cons s rest ih =>
    rw [run] at ran
    split at ran
    · cases ran
    · exact ih ran

/-- A batch that does not fail has been written to its last statement. -/
theorem apply_eq_ok {db db' : Database} {outage : Outage} {ops : List StoreOperation}
    (written : db.apply outage ops = .ok db') : db' = db.after ops := by
  unfold apply at written
  split at written
  -- Without operations nothing is written, and writing nothing leaves the table as it is.
  next empty =>
    rw [List.isEmpty_iff] at empty
    cases written
    subst empty
    rfl
  · split at written
    · split at written
      next t ran =>
        cases written
        rw [after, ← run_eq_some ran]
      · cases written
    · cases written

/-- The statement at a position of a batch fails, or the commit behind the last statement. -/
def FailsAt (db : Database) (outage : Outage) (ops : List StoreOperation) (position : Nat) :
    Prop :=
  let statements := ops.flatMap statementsOf
  position ≤ statements.length ∧ (outage position ∨
    ∃ s, statements[position]? = some s ∧
      db.refuses ((statements.take position).foldl Statement.run db.table) s)

theorem run_eq_none_iff {db : Database} {outage : Outage} {position : Nat} {t : Table}
    {statements : List Statement} :
    db.run outage position t statements = none ↔
      ∃ i ≤ statements.length, outage (position + i) ∨
        ∃ s, statements[i]? = some s ∧
          db.refuses ((statements.take i).foldl Statement.run t) s := by
  -- The first statement fails, or one of the rest does at a position counted from there.
  induction statements generalizing position t with
  | nil => simp [run]
  | cons first rest ih =>
    rw [run]
    constructor
    · intro stopped
      split at stopped
      next here =>
        refine ⟨0, Nat.zero_le _, ?_⟩
        simpa using here
      next =>
        obtain ⟨i, bound, fails⟩ := ih.mp stopped
        refine ⟨i + 1, Nat.succ_le_succ bound, ?_⟩
        rw [Nat.add_right_comm, Nat.add_assoc] at fails
        simpa using fails
    · rintro ⟨i, bound, fails⟩
      split
      · rfl
      next passes =>
        cases i with
        | zero => exact absurd (by simpa using fails) passes
        | succ i =>
          refine ih.mpr ⟨i, Nat.le_of_succ_le_succ bound, ?_⟩
          rw [Nat.add_right_comm, Nat.add_assoc]
          simpa using fails

theorem run_eq_none_iff_failsAt {db : Database} {outage : Outage} {ops : List StoreOperation} :
    db.run outage 0 db.table (ops.flatMap statementsOf) = none ↔
      ∃ position, db.FailsAt outage ops position := by
  rw [run_eq_none_iff]
  simp only [Nat.zero_add, FailsAt]

/-- A batch fails if it has operations and the database is closed or one of its positions fails. -/
theorem apply_eq_error_iff {db : Database} {outage : Outage} {ops : List StoreOperation}
    {cause : CacheError} :
    db.apply outage ops = .error cause ↔
      cause = .unavailable ∧ ops ≠ [] ∧
        (db.isOpen = false ∨ ∃ position, db.FailsAt outage ops position) := by
  unfold apply
  split
  -- A batch without operations is not even begun.
  next empty => simp [List.isEmpty_iff.mp empty]
  next filled =>
    have filled : ops ≠ [] := by simpa using filled
    split
    next isOpen =>
      rw [← run_eq_none_iff_failsAt]
      cases db.run outage 0 db.table (ops.flatMap statementsOf) with
      | some t => simp [isOpen]
      | none => simp [isOpen, filled, eq_comm]
    next closed => simp [closed, filled, eq_comm]

theorem Accepting.refuses {db : Database} (accepting : db.Accepting) (t : Table) (s : Statement) :
    db.refuses t s = false := by
  -- Clearing is refused where one of the rows may not be deleted.
  cases s with
  | put row => rw [Database.refuses, accepting.1]; rfl
  | delete id => rw [Database.refuses, accepting.2]; rfl
  | clear =>
    rw [Database.refuses, accepting.2]
    simp

theorem Accepting.run {db : Database} (accepting : db.Accepting) (position : Nat) (t : Table)
    (statements : List Statement) :
    db.run .none position t statements = some (statements.foldl Statement.run t) := by
  induction statements generalizing position t with
  | nil => rfl
  | cons s rest ih =>
    rw [Database.run, accepting.refuses t s]
    exact ih (position + 1) (s.run t)

/-- Where nothing is refused and nothing fails, every batch is written. -/
theorem Accepting.apply {db : Database} (accepting : db.Accepting) (isOpen : db.isOpen)
    (ops : List StoreOperation) : db.apply .none ops = .ok (db.after ops) := by
  unfold Database.apply
  split
  next empty =>
    rw [List.isEmpty_iff] at empty
    subst empty
    rfl
  · rw [accepting.run]
    rfl

/-! ### Loading -/

theorem load_eq_ok_iff {db : Database} {s : Store} :
    db.load = .ok s ↔ db.isOpen ∧ db.table.load = .ok s := by
  rw [load, view]
  split
  next isOpen =>
    cases db.table.load with
    | ok loaded => simp [isOpen, Except.mapError]
    | error cause => simp [Except.mapError]
  next closed => simp [closed]

/-- A database that has a store filed has the store filed that operations make of it. -/
theorem load_filed_after {db : Database} {s : Store} {ops : List StoreOperation}
    (loads : db.load = .ok s.filed) :
    (db.after ops).load = .ok (Store.filed (Operation.applyAll s ops)) := by
  obtain ⟨isOpen, loads⟩ := load_eq_ok_iff.mp loads
  -- Loading says nothing of names, so the batch is followed through what the table keeps.
  have kept := Table.keeps_iff_load_filed.mpr loads
  exact load_eq_ok_iff.mpr ⟨isOpen, Table.keeps_iff_load_filed.mp (kept.run ops)⟩

/-- What a database loads as follows the operations that are written to it. -/
theorem load_after {db : Database} {s : Store} {ops : List StoreOperation}
    (loads : db.load = .ok s) (keyed : s.WellKeyed) (own : ∀ op ∈ ops, op.OwnNamed) :
    (db.after ops).load = .ok (Operation.applyAll s ops) := by
  -- Under their own names all threads are filed as they are, before the batch and after it.
  have next := Operation.applyAll_wellKeyed keyed own
  rw [← Store.filed_eq_self next]
  exact load_filed_after (by rwa [Store.filed_eq_self keyed])

end ThreadCache.Cache.Database
