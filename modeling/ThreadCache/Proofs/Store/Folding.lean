import ThreadCache.Proofs.Store.Operations
import ThreadCache.Reduction

/-!
# Folds and their operations

A fold keeps two accounts of a batch of events: the working threads, and the operations that are
to lead there.

## Main result

`fold_eq_operations`: on a store that keeps every thread under its own name the two accounts agree,
and the store of an action that carries the events is the one that they agree on.

## Proof strategy

Each event is looked at by itself: the threads after it are its operations applied to the threads
before it, and what the operations leave is marked as fresh. A read status is written under the name
that the event uses while its operation goes by the record's own name, so the working threads must
keep every thread under its own name for the next event too. They do, because every operation of a
step names a record's own name.
-/

namespace ThreadCache

namespace Folding

variable {w : Working}

/-- The working threads without their marks. -/
def plain (w : Working) : Store := w.map Traced.value

theorem plain_insert_fresh (w : Working) (id : String) (thread : Thread) :
    plain (w.insert id (.fresh thread)) = (plain w).insert id thread :=
  SortedMap.map_insert _ _ _ _

theorem get?_plain {id : String} {held : Traced Thread}
    (found : w.get? id = some held) : (plain w).get? id = some held.value := by
  rw [plain, SortedMap.get?_map, found]
  rfl

/-! ### One event -/

theorem step_operations_ownNamed (w : Working) (event : UpdateEvent) :
    ∀ op ∈ (step w event).operations, op.OwnNamed := by
  -- Both kinds of events that bring a thread go through the same write.
  have written (thread : Thread) : ∀ op ∈ (write w thread).operations, op.OwnNamed := by
    intro op member
    unfold write at member
    split at member
    · cases member
    · cases List.mem_singleton.mp member
      exact Operation.ownNamed_put thread
  cases event with
  | updateThread _ _ thread => exact written thread
  | joinThread _ _ thread => exact written thread
  | updateReadStatus _ _ id unread =>
    intro op member
    simp only [step, mark] at member
    split at member
    · cases member
    · split at member
      · cases member
      · cases List.mem_singleton.mp member
        exact Operation.ownNamed_put _
  | deleteThread _ _ id =>
    intro op member
    simp only [step, delete] at member
    split at member
    · cases List.mem_singleton.mp member
      trivial
    · cases member
  | deleteAccount _ _ user => exact Operation.ownNamed_puts _
  | unhandled => exact fun _ member => nomatch member

theorem write_threads (w : Working) (thread : Thread) :
    (write w thread).threads =
      Operation.applyAll w ((write w thread).operations.map (·.map .fresh)) := by
  unfold write
  split <;> rfl

theorem mark_threads (keyed : (plain w).WellKeyed) (id : String) (unread : Bool) :
    (mark w id unread).threads =
      Operation.applyAll w ((mark w id unread).operations.map (·.map .fresh)) := by
  unfold mark
  split
  · rfl
  next held found =>
    split
    · rfl
    · -- The operation goes by the record's own name, which is the name that the event uses.
      have own : held.value.id = id := keyed id held.value (get?_plain found)
      change _ = w.insert held.value.id _
      rw [own]

theorem delete_threads (w : Working) (id : String) :
    (delete w id).threads =
      Operation.applyAll w ((delete w id).operations.map (·.map .fresh)) := by
  unfold delete
  split <;> rfl

theorem expel_threads (w : Working) (user : String) :
    (expel w user).threads =
      Operation.applyAll w ((expel w user).operations.map (·.map .fresh)) := by
  -- The threads to write are collected before the first of them is written, on both sides.
  simp only [expel]
  rw [← Operation.applyAll_replaces, List.map_map, List.map_map]
  rfl

/-- The threads after an event are its operations applied to those before it, as fresh ones. -/
theorem step_threads (keyed : (plain w).WellKeyed) (event : UpdateEvent) :
    (step w event).threads =
      Operation.applyAll w ((step w event).operations.map (·.map .fresh)) := by
  cases event with
  | updateThread _ _ thread => exact write_threads w thread
  | joinThread _ _ thread => exact write_threads w thread
  | updateReadStatus _ _ id unread => exact mark_threads keyed id unread
  | deleteThread _ _ id => exact delete_threads w id
  | deleteAccount _ _ user => exact expel_threads w user
  | unhandled => rfl

theorem step_plain (w : Working) (keyed : (plain w).WellKeyed) (event : UpdateEvent) :
    plain (step w event).threads =
      Operation.applyAll (plain w) (step w event).operations := by
  rw [step_threads keyed]
  exact Operation.plain_applyAll w _

theorem step_wellKeyed (keyed : (plain w).WellKeyed) (event : UpdateEvent) :
    (plain (step w event).threads).WellKeyed := by
  -- The threads are named as the operations name them, and those use the records' own names.
  rw [step_plain w keyed event]
  exact Operation.applyAll_wellKeyed keyed (step_operations_ownNamed w event)

/-! ### A batch of events -/

theorem run_operations_ownNamed (w : Working) (events : List UpdateEvent) :
    ∀ op ∈ (run w events).operations, op.OwnNamed := by
  induction events generalizing w with
  | nil => exact fun _ member => nomatch member
  | cons event events ih =>
    intro op member
    rcases List.mem_append.mp member with first | later
    · exact step_operations_ownNamed w event op first
    · exact ih (step w event).threads op later

/-- The threads after a batch are its operations applied to those before it, as fresh ones. -/
theorem run_threads (keyed : (plain w).WellKeyed) (events : List UpdateEvent) :
    (run w events).threads =
      Operation.applyAll w ((run w events).operations.map (·.map .fresh)) := by
  -- The first event leaves every thread under its own name, which the next one relies on.
  induction events generalizing w with
  | nil => rfl
  | cons event events ih =>
    have others := ih (step_wellKeyed keyed event)
    simp only [run]
    rw [others, step_threads keyed event, List.map_append, Operation.applyAll_append]

theorem run_plain (keyed : (plain w).WellKeyed) (events : List UpdateEvent) :
    plain (run w events).threads = Operation.applyAll (plain w) (run w events).operations := by
  rw [run_threads keyed]
  exact Operation.plain_applyAll w _

end Folding

namespace Store

theorem plain_kept (s : Store) : Folding.plain (s.map .kept) = s :=
  SortedMap.map_map_eq_self (fun _ => rfl) s

theorem fold_store {s : Store} (keyed : s.WellKeyed) (events : List UpdateEvent) :
    (s.fold events).store = Operation.applyAll s (s.fold events).operations := by
  -- Threads are marked as kept to begin with, and the marks are dropped at the end.
  have agree := Folding.run_plain (w := s.map .kept) (by rwa [plain_kept]) events
  rwa [plain_kept] at agree

theorem fold_operations_ownNamed (s : Store) (events : List UpdateEvent) :
    ∀ op ∈ (s.fold events).operations, op.OwnNamed :=
  Folding.run_operations_ownNamed _ events

/--
The working threads of a fold are what its operations make of the store in order, and an action of
any kind that carries the events ends with the same store.
-/
theorem fold_eq_operations (s : Store) (keyed : s.WellKeyed) (events : List UpdateEvent) :
    (s.fold events).store = (TracedStore.reconciled s (s.fold events).operations).store ∧
      ∀ (d : Diagnostics) (kind : UpdatesKind) (currentAsOf : Int64),
        (s.reduce d (.updates kind ⟨currentAsOf, events⟩)).store = (s.fold events).store := by
  have agree : (s.fold events).store =
      (TracedStore.reconciled s (s.fold events).operations).store := by
    rw [TracedStore.store_reconciled]
    exact fold_store keyed events
  -- The reduction of an update folds the same events and reconciles with their operations.
  refine ⟨agree, ?_⟩
  intro d kind currentAsOf
  exact agree.symm

/-- A thread is deleted, joined anew and marked, and an account that was in another is deleted. -/
theorem fold_eq_operations_rejoined :
    let other : Thread := { Thread.new "u" 3 0 with members := [.new "a" none, .new "b" none] }
    let s : Store := .ofThreads [.new "t" 3 0, other]
    let events : List UpdateEvent :=
      [.deleteThread "1" 1 "t", .joinThread "2" 2 (.new "t" 5 1), .updateReadStatus "3" 3 "t" true,
        .deleteAccount "4" 4 "a"]
    (s.fold events).operations.map (·.kind) = ["remove", "replace", "replace", "replace"] ∧
      (s.fold events).store = (TracedStore.reconciled s (s.fold events).operations).store ∧
      ∀ (d : Diagnostics) (kind : UpdatesKind) (currentAsOf : Int64),
        (s.reduce d (.updates kind ⟨currentAsOf, events⟩)).store = (s.fold events).store := by
  intro other s events
  refine ⟨by decide +kernel, ?_⟩
  exact fold_eq_operations s (ofThreads_wellKeyed _) events

end Store

end ThreadCache
