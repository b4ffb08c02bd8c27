import ThreadCache.Proofs.Reduction

/-!
# Identity and the operation log

What a reduction left alone is not compared but known by its marks: the whole store is the one from
before, or a record in it is. The operations are the other account of what happened.

## Main results

* `kept_iff`: a record is the one from before exactly where no operation touches its name.
* `log_tells_all`: a replica that is told the operations alone, one action after the other or all of
  them at once, ends with the store, and where nothing is told nothing has changed hands.

## Proof strategy

Whatever the action, the threads of a reduction are the store reconciled with its operations
(`reduce_threads`). Read at one name, what operations leave there was there before and all of them
let it be, or one of them put it there (`foldl_act_eq_some`); and what an operation puts somewhere is
marked as fresh.
-/

namespace ThreadCache

namespace Operation

variable {α : Type}

/-- The operation writes or drops what is under a name. -/
def touches (id : String) : Operation α → Bool
  | .replace key _ => key = id
  | .remove ids => id ∈ ids
  | .removeAll => true

/-! ### One name -/

theorem act_of_untouched {op : Operation α} {id : String} (apart : ¬ op.touches id)
    (held : Option α) : op.act id held = held := by
  cases op with
  | replace key written => exact if_neg (by simpa [touches] using apart)
  | remove ids => exact if_neg (by simpa [touches] using apart)
  | removeAll => exact absurd rfl apart

theorem foldl_act_of_untouched {ops : List (Operation α)} {id : String}
    (apart : ∀ op ∈ ops, ¬ op.touches id) (held : Option α) : ops.foldl (act id) held = held := by
  induction ops generalizing held with
  | nil => rfl
  | cons op ops ih =>
    rw [List.foldl_cons, act_of_untouched (apart op List.mem_cons_self)]
    exact ih (fun other member => apart other (List.mem_cons_of_mem _ member)) held

/-- What is under a name after an operation was let be or is what the operation put there. -/
theorem act_eq_some {op : Operation α} {id : String} {held : Option α} {value : α}
    (found : op.act id held = some value) :
    (held = some value ∧ ¬ op.touches id) ∨ op = .replace id value := by
  by_cases touched : op.touches id
  · right
    cases op with
    | replace key written =>
      have same : key = id := by simpa [touches] using touched
      rw [act, if_pos same] at found
      rw [same, Option.some.inj found]
    | remove ids =>
      rw [act, if_pos (by simpa [touches] using touched)] at found
      cases found
    | removeAll => cases found
  · rw [act_of_untouched touched] at found
    exact .inl ⟨found, touched⟩

theorem foldl_act_eq_some {ops : List (Operation α)} {id : String} {held : Option α} {value : α}
    (found : ops.foldl (act id) held = some value) :
    (held = some value ∧ ∀ op ∈ ops, ¬ op.touches id) ∨ .replace id value ∈ ops := by
  induction ops generalizing held with
  | nil => exact .inl ⟨found, List.forall_mem_nil _⟩
  | cons op ops ih =>
    rcases ih found with ⟨first, later⟩ | written
    · rcases act_eq_some first with ⟨before, apart⟩ | rfl
      · exact .inl ⟨before, List.forall_mem_cons.mpr ⟨apart, later⟩⟩
      · exact .inr List.mem_cons_self
    · exact .inr (List.mem_cons_of_mem _ written)

theorem touches_map {β : Type} (f : α → β) (op : Operation α) (id : String) :
    (op.map f).touches id = op.touches id := by
  cases op <;> rfl

/-- Batches one after the other do what all of them do at once. -/
theorem foldl_applyAll (m : SortedMap α) (batches : List (List (Operation α))) :
    batches.foldl applyAll m = applyAll m batches.flatten :=
  List.foldl_flatten.symm

end Operation

namespace TracedStore

variable {s : Store} {ops : List StoreOperation}

theorem value_reconciled (s : Store) (ops : List StoreOperation) :
    (reconciled s ops).value = Operation.applyAll (s.map .kept) (ops.map (·.map .fresh)) := by
  cases ops <;> rfl

/-- The store is the same one exactly if there was nothing to do. -/
theorem isKept_reconciled_iff : (reconciled s ops).isKept ↔ ops = [] := by
  cases ops <;> simp [reconciled, unchanged, Traced.isKept]

/-- A record is the one from before exactly where no operation touches its name. -/
theorem kept_iff {id : String} {thread : Thread} :
    (reconciled s ops).value.get? id = some (.kept thread) ↔
      s.get? id = some thread ∧ ∀ op ∈ ops, ¬ op.touches id := by
  rw [value_reconciled, Operation.get?_applyAll, SortedMap.get?_map]
  constructor
  · intro found
    rcases Operation.foldl_act_eq_some found with ⟨before, apart⟩ | written
    · simp only [List.forall_mem_map, Operation.touches_map] at apart
      exact ⟨by simpa using before, apart⟩
    -- Operations put fresh records there, and none that is kept.
    · obtain ⟨op, _, same⟩ := List.mem_map.mp written
      cases op <;> simp [Operation.map] at same
  · rintro ⟨before, apart⟩
    rw [Operation.foldl_act_of_untouched (by simpa [Operation.touches_map] using apart), before]
    rfl

end TracedStore

namespace Store

/-! ### Reductions -/

/-- Which of the threads are the ones from before is up to the operations, whatever the action. -/
theorem reduce_threads (d : Diagnostics) (s : Store) {a : Action} (through : a.Reconciles) :
    (s.reduce d a).threads = .reconciled s (s.reduce d a).operations := by
  cases a with
  | setNewSession change =>
    simp only [reduce]
    split <;> rfl
  | updateSubscription id subscription =>
    simp only [reduce, subscribe]
    split <;> rfl
  | processServerRequests requests =>
    simp only [reduce, correct]
    split
    · rfl
    -- The report says nothing of the threads.
    · split <;> rfl
  | startUnreadStatus id unread =>
    simp only [reduce, startUnreadStatus]
    split <;> rfl
  | confirmUnreadStatus id reset =>
    simp only [reduce, confirmUnreadStatus]
    split
    · rfl
    · split <;> rfl
  | setThreadStore store => exact absurd rfl (through store)
  | _ => rfl

/-! ### Runs -/

/-- The operations of actions in order, a batch for each. -/
def log (s : Store) : List (Diagnostics × Action) → List (List StoreOperation)
  | [] => []
  | step :: steps =>
    (s.reduce step.1 step.2).operations :: (s.reduce step.1 step.2).store.log steps

/-- The log of a run leads where the run leads. -/
theorem foldl_log (s : Store) {steps : List (Diagnostics × Action)}
    (through : ∀ step ∈ steps, step.2.Reconciles) :
    (s.log steps).foldl Operation.applyAll s = s.reduceAll steps := by
  induction steps generalizing s with
  | nil => rfl
  | cons step steps ih =>
    have first : step.2.Reconciles := through step List.mem_cons_self
    rw [log, List.foldl_cons, ← reduce_store step.1 s first]
    exact ih _ fun other member => through other (List.mem_cons_of_mem _ member)

/--
A replica that applies the operations of a run, action by action or all in one batch, ends with the
store of the run. An action leaves the store the same one exactly if it has no operations, and a
record the same one exactly if its name is known before and after and none of the operations touches
it. Where a store is put in place of the other one, there are no operations.
-/
theorem log_tells_all (s : Store) :
    (∀ steps : List (Diagnostics × Action), (∀ step ∈ steps, step.2.Reconciles) →
      (s.log steps).foldl (fun replica ops => (TracedStore.reconciled replica ops).store) s =
          s.reduceAll steps ∧
        (TracedStore.reconciled s (s.log steps).flatten).store = s.reduceAll steps) ∧
      (∀ (d : Diagnostics) (a : Action), a.Reconciles →
        let r := s.reduce d a
        (r.threads.isKept ↔ r.operations = []) ∧
          ∀ id thread, r.threads.value.get? id = some (.kept thread) ↔
            s.get? id = some thread ∧ r.store.contains id ∧
              ∀ op ∈ r.operations, ¬ op.touches id) ∧
      ∀ (d : Diagnostics) (store : Store), (s.reduce d (.setThreadStore store)).operations = [] := by
  refine ⟨fun steps through => ?_, fun d a through => ?_, fun _ _ => rfl⟩
  · simp only [TracedStore.store_reconciled]
    have ends := foldl_log s through
    exact ⟨ends, (Operation.foldl_applyAll s (s.log steps)).symm.trans ends⟩
  · intro r
    have threads : r.threads = .reconciled s r.operations := reduce_threads d s through
    constructor
    · rw [threads]
      exact TracedStore.isKept_reconciled_iff
    · intro id thread
      have kept : r.threads.value.get? id = some (.kept thread) ↔
          s.get? id = some thread ∧ ∀ op ∈ r.operations, ¬ op.touches id := by
        rw [threads]
        exact TracedStore.kept_iff
      constructor
      · intro same
        obtain ⟨before, untouched⟩ := kept.mp same
        refine ⟨before, ?_, untouched⟩
        -- A record that is kept is one that is there.
        change ((r.threads.value.map Traced.value).get? id).isSome
        rw [SortedMap.get?_map, same]
        rfl
      · rintro ⟨before, _, untouched⟩
        exact kept.mpr ⟨before, untouched⟩

/--
A thread is deleted and joined anew, deletions are asked for of which there are none, and no threads
are sent. The second of these is an operation, although all it does is to make another store of the
same records; the third is none.
-/
theorem log_tells_all_idle :
    let other : Thread := .new "u" 3 0
    let s : Store := .ofThreads [.new "t" 3 0, other]
    let d : Diagnostics := ⟨[], [], .standard, 0⟩
    let rejoin : Action :=
      .updates .joinThread ⟨1, [.deleteThread "1" 1 "t", .joinThread "2" 2 (.new "t" 3 0)]⟩
    let check (changes : StateChanges) : Action :=
      .processServerRequests [.other, .checkState ∅ (some changes)]
    let steps : List (Diagnostics × Action) :=
      [(d, rejoin), (d, check ⟨none, some []⟩), (d, check ⟨some [], none⟩),
        (d, .updates .processUpdates ⟨3, [.updateReadStatus "3" 3 "t" false]⟩)]
    let r := s.reduce d (check ⟨none, some []⟩)
    (∀ step ∈ steps, step.2.Reconciles) ∧
      (s.log steps).map (·.map (·.kind)) = [["remove", "replace"], ["remove"], [], []] ∧
      (s.log steps).foldl (fun replica ops => (TracedStore.reconciled replica ops).store) s =
        s.reduceAll steps ∧
      (TracedStore.reconciled s (s.log steps).flatten).store = s.reduceAll steps ∧
      r.store = s ∧ ¬ r.threads.isKept ∧ r.threads.value.get? "u" = some (.kept other) ∧
      (s.reduce d (check ⟨some [], none⟩)).threads.isKept ∧
      (s.reduce d (.setThreadStore ∅)).operations = [] := by
  intro other s d rejoin check steps r
  obtain ⟨runs, single, adopts⟩ := log_tells_all s
  have through : ∀ step ∈ steps, step.2.Reconciles := by
    simp [steps, rejoin, check, Action.Reconciles]
  have checks (changes : StateChanges) : (check changes).Reconciles := fun _ same => nomatch same
  obtain ⟨apart, atOnce⟩ := runs steps through
  obtain ⟨same, records⟩ := single d (check ⟨none, some []⟩) (checks _)
  obtain ⟨unsent, _⟩ := single d (check ⟨some [], none⟩) (checks _)
  have told : r.operations = [.remove []] := by decide +kernel
  have another : ¬ r.threads.isKept := fun kept => by
    have none := same.mp kept
    rw [told] at none
    cases none
  have stays : r.threads.value.get? "u" = some (.kept other) :=
    (records "u" other).mpr ⟨by decide +kernel, by decide +kernel, by decide +kernel⟩
  exact ⟨through, by decide +kernel, apart, atOnce, by decide +kernel, another, stays,
    unsent.mpr (by decide +kernel), adopts d ∅⟩

end Store

end ThreadCache
