import ThreadCache.Proofs.Cache.Database
import ThreadCache.Proofs.Reduction
import ThreadCache.Session

/-!
# Sessions agree with their databases

## Main results

* `inStep_of_visited`: a session whose database loads as its store stays one whatever it is told, as
  long as no action puts a store of its own in place, and however its batches fail.
* `InStep.restore`: such a session loses nothing by restoring.

## Proof strategy

The invariant is `Session.InStep`: the database loads as the store, and every record of the store
goes by its own name. An action that fails changes neither the store nor the database. One that
succeeds has moved both by the same operations (`Store.reduce_store`, `Database.load_after`), and
these keep records under their own names. A run is an induction over its moves.
-/

namespace ThreadCache

open Cache (CacheError Database Outage)

/-! ### Moves -/

/-- What happens to a session from outside. -/
inductive Move
  | dispatch (now : Int64) (outage : Outage) (action : Action)
  | restore

namespace Move

/-- The action of the move, if it has one, changes the store through operations. -/
def Reconciles : Move → Prop
  | .dispatch _ _ action => action.Reconciles
  | .restore => True

end Move

namespace Session

/-- The session after a move; one that cannot be restored stays as it is. -/
def move (s : Session) : Move → Session
  | .dispatch now outage action => (s.dispatch now outage action).session
  | .restore =>
    match s.restore with
    | .ok restored => restored
    | .error _ => s

/-- The sessions that some moves lead through, the first one included. -/
def visited (s : Session) : List Move → List Session
  | [] => [s]
  | m :: moves => s :: (s.move m).visited moves

/-- The database loads as the store, which has every record under its own name. -/
structure InStep (s : Session) : Prop where
  loads : ∃ db, s.database = some db ∧ db.load = .ok s.store
  keyed : s.store.WellKeyed

/-! ### Sessions to start from -/

theorem inStep_new (settings : Settings) {db : Database} (isOpen : db.isOpen)
    (blank : db.table = ∅) : (new settings (some db)).InStep := by
  refine ⟨⟨db, rfl, ?_⟩, Store.empty_wellKeyed⟩
  rw [Database.load_eq_ok_iff, blank]
  exact ⟨isOpen, rfl⟩

theorem restore_of_database {s : Session} {db : Database} (held : s.database = some db) :
    s.restore = db.load.map fun threads => { s with store := threads } := by
  unfold restore
  -- The session has a database, so the branch without one does not occur.
  split
  next none => rw [none] at held; cases held
  next other => rw [other] at held; cases held; rfl

/-- What a session has restored is what its database loads as. -/
theorem restore_eq_ok {s restored : Session} {db : Database} (held : s.database = some db)
    (restores : s.restore = .ok restored) :
    ∃ threads, db.load = .ok threads ∧ restored = { s with store := threads } := by
  rw [restore_of_database held] at restores
  obtain ⟨threads, loads, rfl⟩ := map_eq_ok_iff.mp restores
  exact ⟨threads, loads, rfl⟩

/-- What a session has restored agrees with the database, whatever the session held before. -/
theorem inStep_of_restore {s restored : Session} {db : Database} (held : s.database = some db)
    (restores : s.restore = .ok restored) : restored.InStep := by
  obtain ⟨threads, loads, rfl⟩ := restore_eq_ok held restores
  -- Every row gave a thread under its own id.
  have read := (Database.load_eq_ok_iff.mp loads).2
  exact ⟨⟨db, held, loads⟩, Cache.Table.wellKeyed_of_load read⟩

/-- A session that agrees with its database loses nothing by restoring. -/
theorem InStep.restore {s : Session} (before : s.InStep) : s.restore = .ok s := by
  obtain ⟨⟨db, held, loads⟩, _⟩ := before
  rw [restore_of_database held, loads]
  rfl

/-! ### One move -/

@[simp] theorem recorded_store (s : Session) (now : Int64) (action : Action) :
    (s.recorded now action).store = s.store := rfl

@[simp] theorem recorded_database (s : Session) (now : Int64) (action : Action) :
    (s.recorded now action).database = s.database := rfl

@[simp] theorem forgetting_store (s : Session) (action : Action) :
    (s.forgetting action).store = s.store := by
  unfold forgetting
  split <;> rfl

@[simp] theorem forgetting_database (s : Session) (action : Action) :
    (s.forgetting action).database = s.database := by
  unfold forgetting
  split <;> rfl

def reduction (s : Session) (now : Int64) (action : Action) : Reduction :=
  s.store.reduce ((s.recorded now action).diagnostics now) action

/-- What comes of an action is up to its batch alone. -/
theorem dispatch_eq (s : Session) (now : Int64) (outage : Outage) (action : Action) :
    s.dispatch now outage action =
      match s.persisted outage (s.reduction now action).operations with
      | .error cause =>
        { session := (s.recorded now action).forgetting action
          threads := .unchanged s.store
          notices := (s.reduction now action).notices ++
            [.persistFailed (s.reduction now action).operations.length action.typeName]
          result := .error cause }
      | .ok database =>
        { session :=
            { s.recorded now action with store := (s.reduction now action).store, database }
          threads := (s.reduction now action).threads
          notices := (s.reduction now action).notices ++ announced action (s.reduction now action)
          result := .ok (s.reduction now action) } := rfl

/-- An action fails and leaves the store and the database, or moves both by its operations. -/
theorem dispatch_cases (s : Session) (now : Int64) (outage : Outage) (action : Action) :
    (∃ cause, (s.dispatch now outage action).result = .error cause ∧
      (s.dispatch now outage action).session = (s.recorded now action).forgetting action) ∨
    (s.dispatch now outage action).result = .ok (s.reduction now action) ∧
      (s.dispatch now outage action).session =
        { s.recorded now action with
          store := (s.reduction now action).store
          database := s.database.map (·.after (s.reduction now action).operations) } := by
  rw [dispatch_eq, persisted]
  -- Without a database there is nothing to write, and nothing that could fail.
  cases s.database with
  | none => exact .inr ⟨rfl, rfl⟩
  | some db =>
    dsimp only
    -- The batch decides: if it fails nothing moves but the history.
    cases applied : db.apply outage (s.reduction now action).operations with
    | error cause => exact .inl ⟨cause, rfl, rfl⟩
    | ok next =>
      rw [Option.map_some, ← Database.apply_eq_ok applied]
      exact .inr ⟨rfl, rfl⟩

/-- An action whose operations are written is reduced, and that is what comes of it. -/
theorem dispatch_of_ok {s : Session} {now : Int64} {outage : Outage} {action : Action}
    {database : Option Database}
    (written : s.persisted outage (s.reduction now action).operations = .ok database) :
    (s.dispatch now outage action).result = .ok (s.reduction now action) := by
  rw [dispatch_eq, written]

/-- No action that changes the store through operations parts it from its database. -/
theorem InStep.dispatch {s : Session} (before : s.InStep) (now : Int64) (outage : Outage)
    {action : Action} (through : action.Reconciles) :
    (s.dispatch now outage action).session.InStep := by
  obtain ⟨⟨db, held, loads⟩, keyed⟩ := before
  rcases s.dispatch_cases now outage action with ⟨_, _, after⟩ | ⟨_, after⟩
  -- A failure: the store and the database are those of before.
  · rw [after]
    constructor
    · simp only [forgetting_database, recorded_database, forgetting_store, recorded_store]
      exact ⟨db, held, loads⟩
    · rw [forgetting_store]
      exact keyed
  -- No failure: the table has moved by the operations that the store has moved by.
  · have own := Store.reduce_operations_ownNamed ((s.recorded now action).diagnostics now) s.store
      action
    rw [after, held]
    constructor
    · refine ⟨_, rfl, ?_⟩
      dsimp only
      rw [reduction, Store.reduce_store _ _ through]
      exact Database.load_after loads keyed own
    · exact Store.reduce_wellKeyed _ keyed through.tidy

theorem InStep.move {s : Session} (before : s.InStep) {m : Move} (through : m.Reconciles) :
    (s.move m).InStep := by
  cases m with
  | dispatch now outage action => exact before.dispatch now outage through
  -- What is restored is what was there.
  | restore =>
    unfold Session.move
    rw [before.restore]
    exact before

/-! ### Runs -/

/-- However batches fail and whenever it restores, a session stays in step with its database. -/
theorem inStep_of_visited {s : Session} (start : s.InStep) (moves : List Move)
    (through : ∀ m ∈ moves, m.Reconciles) : ∀ v ∈ s.visited moves, v.InStep := by
  -- The invariant goes from each session to the next, whichever move leads there.
  induction moves generalizing s with
  | nil =>
    intro v member
    rw [List.mem_singleton.mp member]
    exact start
  | cons m moves ih =>
    intro v member
    rcases List.mem_cons.mp member with rfl | later
    · exact start
    · have next := start.move (through m List.mem_cons_self)
      exact ih next (fun n among => through n (List.mem_cons_of_mem _ among)) v later

/-- The thread that was joined is still there after a log-out that cannot be written. -/
theorem inStep_of_visited_failed_logOut :
    let s := Session.new .standard (some .fresh)
    let join : Action := .updates .joinThread ⟨1, [.joinThread "e" 1 (.new "t" 3 0)]⟩
    let moves : List Move :=
      [.dispatch 0 .none join, .dispatch 1 (fun _ => true) (.endSession .logOut), .restore]
    (∀ v ∈ s.visited moves, v.InStep) ∧
      (s.visited moves).map (fun v => v.store.contains "t") = [false, true, true, true] := by
  intro s join moves
  have inStep : s.InStep := inStep_new .standard rfl rfl
  have through : ∀ m ∈ moves, m.Reconciles := by
    simp [moves, join, Move.Reconciles, Action.Reconciles]
  refine ⟨inStep_of_visited inStep moves through, ?_⟩
  decide +kernel

end Session

end ThreadCache
