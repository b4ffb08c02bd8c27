import ThreadCache.Proofs.Session.Alike

/-!
# Moves that fail

An action whose batch cannot be written and a restore that cannot read the table change nothing but
the room in the history.

## Main results

* `dispatch_of_failing`: a batch that fails at any of its positions leaves the session as it was.
* `failures_leave_no_trace`: a run in which moves fail does what it does without them.

## Proof strategy

Whether an action fails is up to its batch (`dispatch_of_ok`, `dispatch_of_error`), so a failure is
known from the operations and the database alone. Whatever a failed move does to the history is left
out where sessions are compared by `Blur.bare`; so the session after it is alike the one before it,
and the run without it goes on from there. The induction is on the run, with the two sessions
general.
-/

namespace ThreadCache

open Cache (CacheError Database Outage)

/-! ### The history -/

/-- The history with room for an action: if it is kept and there is none, the oldest entry goes. -/
def History.withRoomFor (h : History) (action : Action) : History :=
  if h.isInteresting action ∧ h.summaries.length = h.capacity then
    { h with summaries := h.summaries.tail }
  else h

/-- Forgetting the action that was recorded last leaves the room that was made for it. -/
theorem History.discardLatest_push (h : History) (summary : ActionSummary) :
    (h.push summary).discardLatest =
      if h.summaries.length = h.capacity then { h with summaries := h.summaries.tail } else h := by
  simp only [push, discardLatest, List.dropLast_concat]
  split
  · rw [List.drop_one]
  · rfl

namespace Session

/-! ### One action -/

theorem forgetting_recorded (s : Session) (now : Int64) (action : Action) :
    (s.recorded now action).forgetting action =
      { s with history := s.history.withRoomFor action } := by
  unfold forgetting recorded History.record History.withRoomFor
  -- An action that is not kept was not recorded and is not forgotten.
  by_cases kept : s.history.isInteresting action
  · have still (summary : ActionSummary) :
        (s.history.push summary).isInteresting action = true := kept
    simp only [kept, still, if_true, true_and, History.discardLatest_push]
  · simp [kept]

/-- An action that cannot be written leaves everything but the oldest entry of the history. -/
theorem dispatch_of_error {s : Session} {now : Int64} {outage : Outage} {action : Action}
    {cause : CacheError}
    (failed : s.persisted outage (s.reduction now action).operations = .error cause) :
    (s.dispatch now outage action).result = .error cause ∧
      (s.dispatch now outage action).threads = .unchanged s.store ∧
      (s.dispatch now outage action).session =
        { s with history := s.history.withRoomFor action } := by
  rw [dispatch_eq, failed, ← forgetting_recorded s now]
  exact ⟨rfl, rfl, rfl⟩

/-- A batch that fails at one of its positions is an action that cannot be written. -/
theorem dispatch_of_failing {s : Session} {db : Database} (held : s.database = some db)
    {now : Int64} {outage : Outage} {action : Action}
    (filled : (s.reduction now action).operations ≠ [])
    (fails : db.isOpen = false ∨
      ∃ position, db.FailsAt outage (s.reduction now action).operations position) :
    (s.dispatch now outage action).result = .error .unavailable ∧
      (s.dispatch now outage action).threads = .unchanged s.store ∧
      (s.dispatch now outage action).session =
        { s with history := s.history.withRoomFor action } := by
  have batch := Database.apply_eq_error_iff.mpr ⟨rfl, filled, fails⟩
  refine dispatch_of_error ?_
  simp only [persisted, held, batch]
  rfl

/-! ### One move -/

/-- What comes of a move that does not fail; there is no reduction where nothing is dispatched. -/
def outcome (s : Session) : Move → Except CacheError (Option Reduction)
  | .dispatch now outage action => (s.dispatch now outage action).result.map some
  | .restore => s.restore.map fun _ => none

/-- A move that fails can be seen in the history alone. -/
theorem Alike.move_of_error {s t : Session} (alike : s.Alike .bare t) {m : Move}
    {cause : CacheError} (failed : s.outcome m = .error cause) : (s.move m).Alike .bare t := by
  cases m with
  | dispatch now outage action =>
    cases batch : s.persisted outage (s.reduction now action).operations with
    | ok database =>
      rw [outcome, dispatch_of_ok batch] at failed
      cases failed
    | error cause =>
      rw [Session.move, (dispatch_of_error batch).2.2]
      exact ⟨alike.store, trivial, alike.secrets, alike.platform, alike.database⟩
  | restore =>
    cases read : s.restore with
    | ok restored =>
      rw [outcome, read] at failed
      cases failed
    | error cause =>
      rw [Session.move, read]
      exact alike

theorem Alike.persisted {b : Blur} {s t : Session} (alike : s.Alike b t) (outage : Outage)
    (ops : List StoreOperation) : s.persisted outage ops = t.persisted outage ops := by
  unfold Session.persisted
  rw [alike.database]

/-- Sessions that are alike write the same batch to the same database, and fail together. -/
theorem Alike.persisted_reduction {b : Blur} {s t : Session} (alike : s.Alike b t)
    (now now' : Int64) (sameTime : b.sameTime now now') (outage : Outage) (action : Action) :
    s.persisted outage (s.reduction now action).operations =
      t.persisted outage (t.reduction now' action).operations := by
  have reduced := alike.reduction now now' sameTime action
  rw [(Reduction.shown_eq_iff.mp reduced).2.1, alike.persisted]

end Session

/-- The move apart from the time at which it is made. -/
def Move.timeless : Move → Move
  | .dispatch _ outage action => .dispatch 0 outage action
  | .restore => .restore

namespace Session

/-- Sessions that are alike take the same action at different times and make the same of it. -/
theorem Alike.dispatch_again {s t : Session} (alike : s.Alike .bare t) {now : Int64}
    {outage : Outage} {action : Action} {r : Reduction}
    (done : (s.dispatch now outage action).result = .ok r) (now' : Int64) :
    ∃ r', (t.dispatch now' outage action).result = .ok r' ∧ r'.shown .bare = r.shown .bare ∧
      (s.dispatch now outage action).session.Alike .bare
        (t.dispatch now' outage action).session := by
  have reduced := alike.reduction now now' trivial action
  cases batch : s.persisted outage (s.reduction now action).operations with
  | error cause =>
    rw [(dispatch_of_error batch).1] at done
    cases done
  | ok database =>
    have batch' := alike.persisted_reduction now now' trivial outage action
    have done' := dispatch_of_ok (batch'.symm.trans batch)
    obtain ⟨rfl, _⟩ := dispatch_eq_ok done
    exact ⟨_, done', reduced.symm, (alike.dispatch trivial done done').2⟩

theorem restore_of_none {s : Session} (alone : s.database = none) : s.restore = .ok s := by
  simp only [restore, alone]

theorem Alike.restore_again {s t : Session} (alike : s.Alike .bare t) {restored : Session}
    (read : s.restore = .ok restored) :
    ∃ restored', t.restore = .ok restored' ∧ restored.Alike .bare restored' := by
  cases held : s.database with
  | none =>
    rw [restore_of_none held] at read
    cases read
    exact ⟨t, restore_of_none (alike.database.symm.trans held), alike⟩
  | some db =>
    -- Both read the same table.
    obtain ⟨threads, loads, rfl⟩ := restore_eq_ok held read
    refine ⟨{ t with store := threads }, ?_, ?_⟩
    · rw [restore_of_database (alike.database.symm.trans held), loads]
      rfl
    · exact ⟨rfl, trivial, alike.secrets, alike.platform, alike.database⟩

/-- A move that does not fail does not fail in a session that is alike, and does the same there. -/
theorem Alike.move {s t : Session} (alike : s.Alike .bare t) {m m' : Move}
    (same : m'.timeless = m.timeless) {r : Option Reduction} (done : s.outcome m = .ok r) :
    ∃ r', t.outcome m' = .ok r' ∧ r'.map (·.shown .bare) = r.map (·.shown .bare) ∧
      (s.move m).Alike .bare (t.move m') := by
  cases m with
  | dispatch now outage action =>
    cases m' with
    | restore => cases same
    | dispatch now' outage' action' =>
      simp only [Move.timeless, Move.dispatch.injEq, true_and] at same
      obtain ⟨rfl, rfl⟩ := same
      obtain ⟨reduction, result, rfl⟩ := map_eq_ok_iff.mp done
      obtain ⟨reduction', result', seen, next⟩ := alike.dispatch_again result now'
      refine ⟨some reduction', ?_, congrArg some seen, next⟩
      rw [outcome, result']
      rfl
  | restore =>
    cases m' with
    | dispatch now' outage' action' => cases same
    | restore =>
      obtain ⟨restored, read, rfl⟩ := map_eq_ok_iff.mp done
      obtain ⟨restored', read', next⟩ := alike.restore_again read
      refine ⟨none, ?_, rfl, ?_⟩
      · rw [outcome, read']
        rfl
      · rw [Session.move, Session.move, read, read']
        exact next

/-! ### Runs -/

/-- The session after moves, whether they fail or not. -/
def moved (s : Session) (moves : List Move) : Session := moves.foldl move s

/-- The moves that do not fail, each with what comes of it. -/
def accomplished (s : Session) : List Move → List (Move × Option Reduction)
  | [] => []
  | m :: moves =>
    match s.outcome m with
    | .error _ => (s.move m).accomplished moves
    | .ok r => (m, r) :: (s.move m).accomplished moves

theorem accomplished_cons_error {s : Session} {m : Move} {cause : CacheError}
    (failed : s.outcome m = .error cause) (moves : List Move) :
    s.accomplished (m :: moves) = (s.move m).accomplished moves := by
  rw [accomplished, failed]

theorem accomplished_cons_ok {s : Session} {m : Move} {r : Option Reduction}
    (done : s.outcome m = .ok r) (moves : List Move) :
    s.accomplished (m :: moves) = (m, r) :: (s.move m).accomplished moves := by
  rw [accomplished, done]

/-- A run goes as it went if the moves that failed in it are left out, and none fails then. -/
theorem Alike.accomplished {s t : Session} (alike : s.Alike .bare t) {moves again : List Move}
    (same : again.map (·.timeless) = (s.accomplished moves).map (·.1.timeless)) :
    (s.moved moves).Alike .bare (t.moved again) ∧
      (t.accomplished again).map (·.1) = again ∧
      (t.accomplished again).map (·.2.map (·.shown .bare)) =
        (s.accomplished moves).map (·.2.map (·.shown .bare)) := by
  -- The induction is on the whole run; only a move that does not fail uses up one that is left.
  induction moves generalizing s t again with
  | nil =>
    cases List.map_eq_nil_iff.mp same
    exact ⟨alike, rfl, rfl⟩
  | cons m moves ih =>
    cases came : s.outcome m with
    | error cause =>
      rw [accomplished_cons_error came] at same ⊢
      exact ih (alike.move_of_error came) same
    | ok r =>
      rw [accomplished_cons_ok came] at same ⊢
      obtain ⟨m', left, rfl, first, rest⟩ := List.map_eq_cons_iff.mp same
      obtain ⟨r', came', seen, next⟩ := alike.move first came
      obtain ⟨ends, none_fails, told⟩ := ih next rest
      rw [accomplished_cons_ok came']
      refine ⟨ends, congrArg (m' :: ·) none_fails, ?_⟩
      rw [List.map_cons, List.map_cons, seen, told]

theorem move_of_restore_error {s : Session} {cause : CacheError}
    (unread : s.restore = .error cause) : s.move .restore = s := by
  rw [move, unread]

/--
A batch that fails, at whichever of its positions, leaves the session as it was but for the oldest
entry of a history that was full. So the moves that fail can be left out of a run: the others do
the same, at whatever time they are made, and end with the same threads in memory and in the
database. A restore that fails leaves everything as it was.
-/
theorem failures_leave_no_trace (s : Session) :
    (∀ (db : Database) (now : Int64) (outage : Outage) (action : Action),
        s.database = some db → (s.reduction now action).operations ≠ [] →
          (db.isOpen = false ∨
            ∃ position, db.FailsAt outage (s.reduction now action).operations position) →
          (s.dispatch now outage action).result = .error .unavailable ∧
            (s.dispatch now outage action).threads = .unchanged s.store ∧
            (s.dispatch now outage action).session =
              { s with history := s.history.withRoomFor action }) ∧
      (∀ moves again : List Move,
        again.map (·.timeless) = (s.accomplished moves).map (·.1.timeless) →
          (s.moved again).store = (s.moved moves).store ∧
            (s.moved again).database = (s.moved moves).database ∧
            (s.accomplished again).map (·.1) = again ∧
            (s.accomplished again).map (·.2.map (·.shown .bare)) =
              (s.accomplished moves).map (·.2.map (·.shown .bare))) ∧
      ∀ cause, s.restore = .error cause → s.move .restore = s := by
  refine ⟨fun db now outage action held filled fails => dispatch_of_failing held filled fails, ?_,
    fun cause unread => move_of_restore_error unread⟩
  intro moves again same
  have itself : s.Alike .bare s := ⟨rfl, trivial, rfl, rfl, rfl⟩
  obtain ⟨ends, noneFails, told⟩ := itself.accomplished same
  exact ⟨ends.store.symm, ends.database.symm, noneFails, told⟩

/--
The history is full, a row cannot be read and another one may not be written: a batch fails at its
second statement, and what comes after it is the same without it and without the failing restore.
-/
theorem failures_leave_no_trace_refused :
    let row : Cache.Row := { Cache.Row.ofThread "old" (.new "old" 3 0) with kind := 300 }
    let db : Database := ⟨⟨[row], by decide⟩, ["bad"], [], true⟩
    let s : Session := (Session.new { Settings.standard with capacity := 1 } (some db)).recorded 0
      (.endSession .logOut)
    let join (ids : List String) : Action :=
      .updates .joinThread ⟨1, ids.map fun id => .joinThread "e" 1 (.new id 3 0)⟩
    let moves : List Move :=
      [.dispatch 1 .none (join ["good", "bad"]), .restore, .dispatch 2 .none (join ["good"])]
    let again : List Move := [.dispatch 1 .none (join ["good"])]
    ((s.dispatch 1 .none (join ["good", "bad"])).result = .error .unavailable ∧
        (s.dispatch 1 .none (join ["good", "bad"])).threads = .unchanged s.store ∧
        (s.dispatch 1 .none (join ["good", "bad"])).session.history.summaries = []) ∧
      (s.moved again).store = (s.moved moves).store ∧
      (s.accomplished again).map (·.1) = again ∧
      s.move .restore = s := by
  intro row db s join moves again
  obtain ⟨batches, runs, restores⟩ := failures_leave_no_trace s
  have refused : db.FailsAt .none (s.reduction 1 (join ["good", "bad"])).operations 1 :=
    ⟨by decide +kernel, .inr ⟨_, rfl, by decide +kernel⟩⟩
  obtain ⟨result, threads, after⟩ := batches db 1 .none (join ["good", "bad"]) rfl
    (by decide +kernel) (.inr ⟨1, refused⟩)
  -- The batch fails, the restore finds the row that cannot be read, and the last action is written.
  have left : again.map (·.timeless) = (s.accomplished moves).map (·.1.timeless) := by
    have batch : s.outcome (.dispatch 1 .none (join ["good", "bad"])) = .error .unavailable := by
      rw [outcome, result]
      rfl
    rw [accomplished_cons_error batch, Session.move, after, accomplished_cons_error (by rfl),
      accomplished_cons_ok (by rfl)]
    rfl
  obtain ⟨store, _, noneFails, _⟩ := runs moves again left
  refine ⟨⟨result, threads, ?_⟩, store, noneFails, restores _ (by rfl)⟩
  rw [after]
  decide +kernel

end Session

end ThreadCache
