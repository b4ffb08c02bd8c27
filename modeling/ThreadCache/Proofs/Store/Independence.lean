import ThreadCache.Proofs.Store.Batches

/-!
# What reductions do not depend on

The store is one map, and events come in batches. Neither shows: a thread has the same fate whatever
other threads there are, and events have the same outcome wherever their sequence is cut.

## Main results

* `isolated`: stores that agree on a thread agree on it after the same actions.
* `batches_join`: two batches of events, one after the other, yield the operations and the store of
  the one batch that they are the parts of.

## Proof strategy

A run does to each name what the effects of its actions say, and these are read off the actions
alone, which gives the first result. For the second one, a fold that goes on works with what the
fold has written so far, and one that starts anew with what the operations made of the store. These
differ in their marks only, at which no event looks (`Folding.step_operations_congr`).
-/

namespace ThreadCache

/-! ### Folds that differ in their marks -/

namespace Folding

variable {w w' : Working}

theorem write_operations_congr (same : plain w = plain w') (thread : Thread) :
    (write w thread).operations = (write w' thread).operations := by
  have held : (w.get? thread.id).map Traced.value = (w'.get? thread.id).map Traced.value := by
    rw [← SortedMap.get?_map, ← SortedMap.get?_map]
    exact congrArg (·.get? thread.id) same
  unfold write
  rw [held]
  split <;> rfl

theorem mark_operations_congr (same : plain w = plain w') (id : String) (unread : Bool) :
    (mark w id unread).operations = (mark w' id unread).operations := by
  have held : (w.get? id).map Traced.value = (w'.get? id).map Traced.value := by
    rw [← SortedMap.get?_map, ← SortedMap.get?_map]
    exact congrArg (·.get? id) same
  unfold mark
  -- The thread is in both or in neither, and is the same one but for its mark.
  cases found : w.get? id with
  | none =>
    cases found' : w'.get? id with
    | none => rfl
    | some _ => simp [found, found'] at held
  | some thread =>
    cases found' : w'.get? id with
    | none => simp [found, found'] at held
    | some thread' =>
      rw [found, found', Option.map_some, Option.map_some, Option.some.injEq] at held
      simp only [held]
      split <;> rfl

theorem delete_operations_congr (same : plain w = plain w') (id : String) :
    (delete w id).operations = (delete w' id).operations := by
  have present (w : Working) : w.contains id = (plain w).contains id := by
    rw [SortedMap.contains, SortedMap.contains, plain, SortedMap.get?_map, Option.isSome_map]
  unfold delete
  rw [present, present, same]
  split <;> rfl

theorem expel_operations_congr (same : plain w = plain w') (user : String) :
    (expel w user).operations = (expel w' user).operations := by
  rw [expel, expel, shrunk_eq, shrunk_eq, same]

/-- No event looks at the marks of the threads. -/
theorem step_operations_congr (same : plain w = plain w') (event : UpdateEvent) :
    (step w event).operations = (step w' event).operations := by
  cases event with
  | updateThread _ _ thread => exact write_operations_congr same thread
  | joinThread _ _ thread => exact write_operations_congr same thread
  | updateReadStatus _ _ id unread => exact mark_operations_congr same id unread
  | deleteThread _ _ id => exact delete_operations_congr same id
  | deleteAccount _ _ user => exact expel_operations_congr same user
  | unhandled => rfl

theorem run_operations_congr (keyed : (plain w).WellKeyed) (same : plain w = plain w')
    (events : List UpdateEvent) : (run w events).operations = (run w' events).operations := by
  -- After an event the threads are again the same but for their marks, as its operations are.
  induction events generalizing w w' with
  | nil => rfl
  | cons event events ih =>
    have first := step_operations_congr same event
    have next : plain (step w event).threads = plain (step w' event).threads := by
      rw [step_plain w keyed event, step_plain w' (same ▸ keyed) event, same, first]
    have others := ih (step_wellKeyed keyed event) next
    simp only [run]
    rw [first, others]

/-! ### Folds that go on -/

theorem run_append (w : Working) (earlier later : List UpdateEvent) :
    run w (earlier ++ later) =
      ⟨(run (run w earlier).threads later).threads,
        (run w earlier).operations ++ (run (run w earlier).threads later).operations⟩ := by
  induction earlier generalizing w with
  | nil => rfl
  | cons event earlier ih =>
    rw [List.cons_append, run, ih]
    simp only [run, List.append_assoc]

end Folding

namespace Store

variable {s t : Store}

/-- A fold that goes on yields what a fold from the store in between yields. -/
theorem fold_append_operations (keyed : s.WellKeyed) (earlier later : List UpdateEvent) :
    (s.fold (earlier ++ later)).operations =
      (s.fold earlier).operations ++ ((s.fold earlier).store.fold later).operations := by
  let between := (s.fold earlier).store
  have reached : between.WellKeyed := by
    have stays := Operation.applyAll_wellKeyed keyed (fold_operations_ownNamed s earlier)
    rwa [← fold_store keyed] at stays
  -- The threads in the middle of the fold are those of the store in between.
  have same : Folding.plain (between.map .kept) =
      Folding.plain (Folding.run (s.map .kept) earlier).threads := plain_kept between
  have later_operations := Folding.run_operations_congr (by rwa [plain_kept]) same later
  rw [fold, Folding.run_append]
  exact congrArg ((s.fold earlier).operations ++ ·) later_operations.symm

/--
The operations of a batch of events are those of its two parts one after the other, and it ends with
the same store, whichever kinds of actions carry the events.
-/
theorem batches_join (keyed : s.WellKeyed) (earlier later : List UpdateEvent)
    (whole first second : Carrier) :
    let joined := s.reduce whole.diagnostics (whole.carrying (earlier ++ later)).2
    let one := s.reduce first.diagnostics (first.carrying earlier).2
    let other := one.store.reduce second.diagnostics (second.carrying later).2
    joined.operations = one.operations ++ other.operations ∧ joined.store = other.store := by
  intro joined one other
  have between : one.store = (s.fold earlier).store :=
    (fold_eq_operations s keyed earlier).2 _ _ _
  have operations : joined.operations = one.operations ++ other.operations := by
    change (s.fold (earlier ++ later)).operations =
      (s.fold earlier).operations ++ (one.store.fold later).operations
    rw [between]
    exact fold_append_operations keyed earlier later
  refine ⟨operations, ?_⟩
  -- Each store is what the operations make of the one before it.
  have reconciles (c : Carrier) (events : List UpdateEvent) : (c.carrying events).2.Reconciles :=
    fun _ same => nomatch same
  calc joined.store
      = Operation.applyAll s (one.operations ++ other.operations) := by
        rw [← operations]
        exact reduce_store _ s (reconciles whole _)
    _ = Operation.applyAll (Operation.applyAll s one.operations) other.operations :=
        Operation.applyAll_append s _ _
    _ = Operation.applyAll one.store other.operations := by
        rw [← reduce_store first.diagnostics s (reconciles first earlier)]
    _ = other.store := (reduce_store _ one.store (reconciles second later)).symm

/-- The first batch deletes a thread and empties another one of a member; the second one goes on. -/
theorem batches_join_rejoined :
    let shared : Thread := { Thread.new "u" 3 0 with members := [.new "a" none, .new "b" none] }
    let s : Store := .ofThreads [.new "t" 3 0, shared]
    let earlier : List UpdateEvent := [.deleteThread "1" 1 "t", .deleteAccount "2" 2 "a"]
    let later : List UpdateEvent :=
      [.deleteAccount "2" 2 "a", .deleteThread "1" 1 "t", .joinThread "3" 3 (.new "t" 5 1),
        .updateReadStatus "4" 4 "u" true]
    let whole : Carrier := ⟨.incrementalSync, 4, [], [], .standard, 0⟩
    let first : Carrier := ⟨.leaveThread, 2, [], [], .standard, 1⟩
    let second : Carrier := ⟨.joinThread, 4, [], [], .standard, 2⟩
    let joined := s.reduce whole.diagnostics (whole.carrying (earlier ++ later)).2
    let one := s.reduce first.diagnostics (first.carrying earlier).2
    let other := one.store.reduce second.diagnostics (second.carrying later).2
    s.WellKeyed ∧ one.operations.map (·.kind) = ["remove", "replace"] ∧
      other.operations.map (·.kind) = ["replace", "replace"] ∧
      joined.operations = one.operations ++ other.operations ∧ joined.store = other.store := by
  intro shared s earlier later whole first second joined one other
  have keyed : s.WellKeyed := ofThreads_wellKeyed _
  refine ⟨keyed, by decide +kernel, by decide +kernel, ?_⟩
  exact batches_join keyed earlier later whole first second

/-! ### Other threads -/

/--
Stores that agree on a thread agree on it after the same actions, whatever the other threads in them
are and whatever reports of the actions would say.
-/
theorem isolated (keyed : s.WellKeyed) (keyed' : t.WellKeyed) {id : String}
    (agree : s.get? id = t.get? id) {steps steps' : List (Diagnostics × Action)}
    (same : steps.map (·.2) = steps'.map (·.2)) (tidy : ∀ step ∈ steps, step.2.Tidy) :
    (s.reduceAll steps).get? id = (t.reduceAll steps').get? id := by
  have tidy' : ∀ step ∈ steps', step.2.Tidy := by
    intro step member
    have listed : step.2 ∈ steps.map (·.2) := same ▸ List.mem_map_of_mem member
    obtain ⟨twin, present, action⟩ := List.mem_map.mp listed
    exact action ▸ tidy twin present
  have effects : steps.flatMap (fun step => step.2.effects) =
      steps'.flatMap (fun step => step.2.effects) := by
    have both := congrArg (List.flatMap Action.effects) same
    rwa [List.flatMap_map, List.flatMap_map] at both
  rw [get?_reduceAll keyed tidy, get?_reduceAll keyed' tidy', effects, agree]

/--
A thread loses a member and is marked alike, whether there is another thread that loses the member,
is marked and is deleted, or whether all of that finds nothing to do.
-/
theorem isolated_in_company :
    let thread : Thread := { Thread.new "t" 3 0 with members := [.new "a" none, .new "b" none] }
    let company : Thread := { Thread.new "u" 3 0 with members := [.new "a" none] }
    let d : Diagnostics := ⟨[], [], .standard, 0⟩
    let s : Store := .ofThreads [company, thread]
    let t : Store := .ofThreads [thread]
    let steps : List (Diagnostics × Action) :=
      [(d, .updates .processUpdates ⟨2, [.updateReadStatus "1" 1 "u" true,
          .deleteAccount "2" 2 "a"]⟩),
        (d, .saveMessages [⟨none, "u", 4⟩, ⟨none, "t", 3⟩, ⟨none, "t", 1⟩] 3),
        (d, .updates .deleteThread ⟨4, [.deleteThread "3" 4 "u"]⟩)]
    s.WellKeyed ∧ t.WellKeyed ∧ s ≠ t ∧ s.get? "t" = t.get? "t" ∧
      (∀ step ∈ steps, step.2.Tidy) ∧
      (s.reduceAll steps).get? "t" =
        some ({ thread with members := [.new "b" none] }.withUnread true) ∧
      (s.reduceAll steps).get? "t" = (t.reduceAll steps).get? "t" := by
  intro thread company d s t steps
  have keyed : s.WellKeyed := ofThreads_wellKeyed _
  have keyed' : t.WellKeyed := ofThreads_wellKeyed _
  have agree : s.get? "t" = t.get? "t" := by decide +kernel
  have tidy : ∀ step ∈ steps, step.2.Tidy := by
    simp [steps, Action.Tidy]
  refine ⟨keyed, keyed', by decide +kernel, agree, tidy, by decide +kernel, ?_⟩
  exact isolated keyed keyed' agree rfl tidy

end Store

end ThreadCache
