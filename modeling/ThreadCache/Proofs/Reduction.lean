import ThreadCache.Proofs.Store.Folding

/-!
# Reductions and their operations

What every reduction has in common, whatever the action.

## Main results

`reduce_store`: unless the action puts a whole store in place of the client's, the next store is the
operations applied to the current one. `reduce_wellKeyed`: a store that keeps every thread under its
own name still does after the action, because every operation names the record's own name
(`reduce_operations_ownNamed`).
-/

namespace ThreadCache

/-- The action changes the store through operations, and does not put another one in its place. -/
def Action.Reconciles (a : Action) : Prop := ∀ store, a ≠ .setThreadStore store

/-- A store that the action brings along keeps every thread under its own name. -/
def Action.Tidy (a : Action) : Prop := ∀ store, a = .setThreadStore store → store.WellKeyed

theorem Action.Reconciles.tidy {a : Action} (through : a.Reconciles) : a.Tidy :=
  fun store same => absurd same (through store)

theorem Action.reconciles_or_adopts (a : Action) :
    a.Reconciles ∨ ∃ store, a = .setThreadStore store := by
  -- There is one action that does not go through operations.
  cases a with
  | setThreadStore store => exact .inr ⟨store, rfl⟩
  | _ => exact .inl fun _ same => by cases same

namespace Reduction

theorem store_ofOperations (s : Store) (ops : List StoreOperation) (notices : List Notice) :
    (ofOperations s ops notices).store = Operation.applyAll s ops :=
  TracedStore.store_reconciled s ops

theorem store_unchanged (s : Store) (notices : List Notice) : (unchanged s notices).store = s :=
  TracedStore.store_unchanged s

/-- The outcome is what its operations make of the store, and each names a record's own name. -/
structure Faithful (s : Store) (r : Reduction) : Prop where
  store_eq : r.store = Operation.applyAll s r.operations
  ownNamed : ∀ op ∈ r.operations, op.OwnNamed

theorem faithful_unchanged (s : Store) (notices : List Notice) :
    Faithful s (unchanged s notices) :=
  ⟨store_unchanged s notices, fun _ member => nomatch member⟩

theorem faithful_ofOperations {s : Store} {ops : List StoreOperation} (notices : List Notice)
    (own : ∀ op ∈ ops, op.OwnNamed) : Faithful s (ofOperations s ops notices) :=
  ⟨store_ofOperations s ops notices, own⟩

theorem faithful_put (s : Store) (thread : Thread) (notices : List Notice) :
    Faithful s (ofOperations s [.put thread] notices) :=
  faithful_ofOperations notices (Operation.ownNamed_puts [thread])

/-- The reduction with reports of which only a part is shown. -/
def showing (shown : Report → Report) (r : Reduction) : Reduction :=
  { r with reports := r.reports.map shown }

end Reduction

namespace Store

open Reduction (Faithful faithful_unchanged faithful_ofOperations faithful_put)

/-! ### Policy by policy -/

theorem fullSync_faithful (s : Store) (payload : FullSync) : Faithful s (s.fullSync payload) := by
  refine faithful_ofOperations _ ?_
  intro op member
  rcases List.mem_cons.mp member with rfl | put
  · trivial
  · exact Operation.ownNamed_puts _ op put

theorem clear_faithful (s : Store) : Faithful s s.clear := by
  refine faithful_ofOperations _ ?_
  intro op member
  -- An empty store is left alone.
  split at member
  · cases member
  · cases List.mem_singleton.mp member
    trivial

theorem subscribe_faithful (s : Store) (id : String) (subscription : Subscription) :
    Faithful s (s.subscribe id subscription) := by
  unfold subscribe
  split
  · exact faithful_unchanged s _
  · exact faithful_put s _ _

theorem startUnreadStatus_faithful (s : Store) (id : String) (unread : Bool) :
    Faithful s (s.startUnreadStatus id unread) := by
  unfold startUnreadStatus
  split
  · exact faithful_unchanged s _
  · exact faithful_put s _ _

theorem confirmUnreadStatus_faithful (s : Store) (id : String) (resetToUnread : Bool) :
    Faithful s (s.confirmUnreadStatus id resetToUnread) := by
  unfold confirmUnreadStatus
  split
  · exact faithful_unchanged s _
  · split
    · exact faithful_put s _ _
    · exact faithful_unchanged s _

theorem correction_ownNamed (changes : StateChanges) :
    ∀ op ∈ correction changes, op.OwnNamed := by
  intro op member
  rcases List.mem_append.mp member with put | remove
  · exact Operation.ownNamed_puts _ op put
  -- Deletions name no record, so nothing is asked of them.
  · cases deleted : changes.deleteIDs with
    | none => simp [deleted] at remove
    | some ids =>
      simp only [deleted, List.mem_singleton] at remove
      subst remove
      trivial

/-- The operations that the first state check among the requests asks for. -/
def corrections (requests : List ServerRequest) : List StoreOperation :=
  ((ServerRequest.stateChanges? requests).map correction).getD []

/-- A correction carries out what was asked for; the rest of its outcome is the report. -/
theorem correct_outcome (d : Diagnostics) (s : Store) (action : Action)
    (requests : List ServerRequest) :
    (s.correct d action requests).operations = corrections requests ∧
      (s.correct d action requests).store = Operation.applyAll s (corrections requests) := by
  unfold correct corrections
  split
  next unasked =>
    rw [unasked]
    exact ⟨rfl, Reduction.store_unchanged s []⟩
  next changes asked =>
    have applied := Reduction.store_ofOperations s (correction changes) []
    rw [asked]
    dsimp only
    -- With a report or without one, the operations and the threads are the same.
    split
    · exact ⟨rfl, applied⟩
    · exact ⟨rfl, applied⟩

/-- A correction is reported if it was asked for and changed anything. -/
theorem correct_reports (d : Diagnostics) (s : Store) (action : Action)
    (requests : List ServerRequest) :
    (s.correct d action requests).reports =
      ((ServerRequest.stateChanges? requests).bind fun changes =>
        d.detect action s (Operation.applyAll s (correction changes))).toList := by
  unfold correct
  split
  next unasked =>
    rw [unasked]
    rfl
  next changes asked =>
    have applied := Reduction.store_ofOperations s (correction changes) []
    dsimp only
    -- The report compares the store with what the operations make of it.
    rw [asked, Option.bind_some, ← applied]
    split
    next unchanged =>
      rw [unchanged]
      rfl
    next report changed =>
      rw [changed]
      rfl

/-- Corrections by the same changes are alike but for their reports, and show alike if these do. -/
theorem correct_showing {shown : Report → Report} {d d' : Diagnostics} {action action' : Action}
    {requests requests' : List ServerRequest} (s : Store)
    (same : ServerRequest.stateChanges? requests = ServerRequest.stateChanges? requests')
    (kind : action.typeName = action'.typeName)
    (reports : ∀ after,
      (d.detect action s after).map shown = (d'.detect action' s after).map shown) :
    (s.correct d action requests).showing shown =
      (s.correct d' action' requests').showing shown := by
  simp only [correct, same]
  cases ServerRequest.stateChanges? requests' with
  | none => rfl
  | some changes =>
    have told := reports (Reduction.ofOperations s (correction changes) []).store
    simp only [Diagnostics.detect] at told ⊢
    -- Whether there is a report depends on the threads alone.
    by_cases unchanged : s = (Reduction.ofOperations s (correction changes) []).store
    · simp only [if_pos unchanged]
    · simp only [if_neg unchanged, Option.map_some, Option.some.injEq] at told ⊢
      simp only [Reduction.showing, Diagnostics.noticeOf, List.map_cons, List.map_nil, told, kind]

theorem corrections_ownNamed (requests : List ServerRequest) :
    ∀ op ∈ corrections requests, op.OwnNamed := by
  unfold corrections
  cases ServerRequest.stateChanges? requests with
  | none => exact fun _ member => nomatch member
  | some changes => exact correction_ownNamed changes

theorem correct_faithful (d : Diagnostics) (s : Store) (action : Action)
    (requests : List ServerRequest) : Faithful s (s.correct d action requests) := by
  obtain ⟨operations, store⟩ := correct_outcome d s action requests
  constructor
  · rw [store, operations]
  · rw [operations]
    exact corrections_ownNamed requests

/-! ### All actions -/

theorem reduce_faithful (d : Diagnostics) (s : Store) (a : Action) (through : a.Reconciles) :
    Faithful s (s.reduce d a) := by
  cases a with
  | fullSync _ payload => exact fullSync_faithful s payload
  | endSession _ => exact clear_faithful s
  | setNewSession change =>
    simp only [reduce]
    split
    · exact clear_faithful s
    · exact faithful_unchanged s _
  | updates _ result => exact faithful_ofOperations _ (fold_operations_ownNamed s result.events)
  | updateSubscription id subscription => exact subscribe_faithful s id subscription
  | saveMessages messages currentAsOf => exact faithful_ofOperations _ (Operation.ownNamed_puts _)
  | processServerRequests requests => exact correct_faithful d s _ requests
  | updateActivity ids => exact faithful_ofOperations _ (Operation.ownNamed_puts _)
  | startUnreadStatus id unread => exact startUnreadStatus_faithful s id unread
  | confirmUnreadStatus id reset => exact confirmUnreadStatus_faithful s id reset
  | setThreadStore store => exact absurd rfl (through store)
  | unrecognized => exact faithful_unchanged s _

/-- The next store is the operations applied to the current one. -/
theorem reduce_store (d : Diagnostics) (s : Store) {a : Action} (through : a.Reconciles) :
    (s.reduce d a).store = Operation.applyAll s (s.reduce d a).operations :=
  (reduce_faithful d s a through).store_eq

theorem reduce_setThreadStore (d : Diagnostics) (s store : Store) :
    (s.reduce d (.setThreadStore store)).store = store :=
  TracedStore.store_adopted store

/-- Every operation of every action names a record's own name. -/
theorem reduce_operations_ownNamed (d : Diagnostics) (s : Store) (a : Action) :
    ∀ op ∈ (s.reduce d a).operations, op.OwnNamed := by
  rcases a.reconciles_or_adopts with through | ⟨store, rfl⟩
  · exact (reduce_faithful d s a through).ownNamed
  · exact fun _ member => nomatch member

theorem reduce_wellKeyed (d : Diagnostics) {s : Store} {a : Action} (keyed : s.WellKeyed)
    (tidy : a.Tidy) : (s.reduce d a).store.WellKeyed := by
  -- An adopted store is well keyed if it came so; any other one is made by operations.
  rcases a.reconciles_or_adopts with through | ⟨store, rfl⟩
  · rw [reduce_store d s through]
    exact Operation.applyAll_wellKeyed keyed (reduce_operations_ownNamed d s a)
  · rw [reduce_setThreadStore]
    exact tidy store rfl

/-! ### Runs -/

/-- The store after actions in order, each with what a report of it would say. -/
def reduceAll (s : Store) (steps : List (Diagnostics × Action)) : Store :=
  steps.foldl (fun s step => (s.reduce step.1 step.2).store) s

/-- The next store does not depend on what a report of the action would say. -/
theorem reduce_store_congr (d d' : Diagnostics) (s : Store) (a : Action) :
    (s.reduce d a).store = (s.reduce d' a).store := by
  -- Corrections alone are reported, and their threads come from the operations.
  cases a with
  | processServerRequests requests =>
    rw [reduce, reduce, (correct_outcome d s _ requests).2, (correct_outcome d' s _ requests).2]
  | _ => rfl

theorem reduceAll_congr (s : Store) {steps steps' : List (Diagnostics × Action)}
    (same : steps.map (·.2) = steps'.map (·.2)) : s.reduceAll steps = s.reduceAll steps' := by
  let d : Diagnostics := ⟨[], [], .standard, 0⟩
  have bare (steps : List (Diagnostics × Action)) :
      s.reduceAll steps = (steps.map (·.2)).foldl (fun s a => (s.reduce d a).store) s := by
    rw [List.foldl_map, reduceAll]
    congr
    funext s step
    exact reduce_store_congr step.1 d s step.2
  rw [bare, bare, same]

end Store

end ThreadCache
