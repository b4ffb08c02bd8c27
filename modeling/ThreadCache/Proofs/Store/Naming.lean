import ThreadCache.Proofs.Json.Value
import ThreadCache.Proofs.Store.Identity

/-!
# Threads under foreign names

A store that is put in place of the client's own is taken as it is, so a thread in it may be filed
under a name that is not its own. No other action files a thread so.

## Main results

* `misfiled_was_there`: a thread that is misfiled after an action was misfiled before it, as the
  same record; so a run that starts with every thread under its own name keeps it so.
* `distinctIds_reduce_iff`: an action keeps the threads of a store apart by their own names exactly
  if it does not write a thread anew of which it leaves the misfiled record where it is.
* `subscription_doubles_misfiled`: it may do that.

## Proof strategy

Every operation names the thread's own name. So what a store holds after an action was there before
and has not been touched, or is filed under its own name (`Faithful.get?_eq_some`). Of two threads of
one name at most one goes under it, and two that were both there before would have shared the name
then.
-/

namespace ThreadCache

namespace Store

/-- The store has a thread under a name that is not the thread's own. -/
def Misfiled (s : Store) (id : String) (thread : Thread) : Prop :=
  s.get? id = some thread ∧ thread.id ≠ id

/-- No two threads of the store go by one name of their own, wherever they are filed. -/
def DistinctIds (s : Store) : Prop := (s.values.map (·.id)).Nodup

instance (s : Store) : Decidable s.DistinctIds := inferInstanceAs (Decidable (List.Nodup _))

theorem distinctIds_iff {s : Store} :
    s.DistinctIds ↔ ∀ id id' thread thread', s.get? id = some thread →
      s.get? id' = some thread' → thread.id = thread'.id → id = id' := by
  have entries : s.entries.Nodup := s.keys_nodup.of_map _
  rw [DistinctIds, SortedMap.values, List.map_map, List.nodup_map_iff_inj_on entries]
  simp only [SortedMap.get?_eq_some_iff, Function.comp_apply]
  constructor
  · intro distinct id id' thread thread' one other same
    exact congrArg Prod.fst (distinct _ one _ other same)
  · rintro distinct ⟨id, thread⟩ one ⟨id', thread'⟩ other same
    -- Entries under one name are one entry.
    obtain rfl : id = id' := distinct id id' thread thread' one other same
    rw [← SortedMap.get?_eq_some_iff] at one other
    rw [Option.some.inj (one.symm.trans other)]

theorem WellKeyed.distinctIds {s : Store} (keyed : s.WellKeyed) : s.DistinctIds := by
  refine distinctIds_iff.mpr fun id id' thread thread' one other same => ?_
  rw [← keyed id thread one, ← keyed id' thread' other, same]

end Store

namespace Reduction

/--
The reduction leaves a misfiled thread where it is, and writes another record of it under its own
name, which is there in the end.
-/
structure Doubles (s : Store) (r : Reduction) (id : String) (thread : Thread) : Prop where
  misfiled : s.Misfiled id thread
  stays : ∀ op ∈ r.operations, ¬ op.touches id
  written : ∃ twin, .replace thread.id twin ∈ r.operations
  present : r.store.contains thread.id

namespace Faithful

variable {s : Store} {r : Reduction}

/-- A thread was there and has not been touched, or has been written under its own name. -/
theorem get?_eq_some (faithful : Faithful s r) {id : String} {thread : Thread}
    (found : r.store.get? id = some thread) :
    (s.get? id = some thread ∧ ∀ op ∈ r.operations, ¬ op.touches id) ∨
      (.replace id thread ∈ r.operations ∧ thread.id = id) := by
  rw [faithful.store_eq, Operation.get?_applyAll] at found
  rcases Operation.foldl_act_eq_some found with untouched | written
  · exact .inl untouched
  · exact .inr ⟨written, faithful.ownNamed _ written⟩

theorem get?_of_untouched (faithful : Faithful s r) {id : String} {thread : Thread}
    (before : s.get? id = some thread) (stays : ∀ op ∈ r.operations, ¬ op.touches id) :
    r.store.get? id = some thread := by
  rw [faithful.store_eq, Operation.get?_applyAll, Operation.foldl_act_of_untouched stays, before]

theorem misfiled (faithful : Faithful s r) {id : String} {thread : Thread}
    (foreign : r.store.Misfiled id thread) :
    s.get? id = some thread ∧ ∀ op ∈ r.operations, ¬ op.touches id := by
  obtain ⟨found, other⟩ := foreign
  rcases faithful.get?_eq_some found with untouched | ⟨_, own⟩
  · exact untouched
  · exact absurd own other

/-- A thread that was there and one that has been written are doubles if they go by one name. -/
theorem doubles (faithful : Faithful s r) {id id' : String} {thread thread' : Thread}
    (before : s.get? id = some thread) (stays : ∀ op ∈ r.operations, ¬ op.touches id)
    (after : r.store.get? id' = some thread') (written : .replace id' thread' ∈ r.operations)
    (same : thread.id = thread'.id) (apart : id ≠ id') : r.Doubles s id thread := by
  have own : thread.id = id' := same.trans (faithful.ownNamed _ written)
  refine ⟨⟨before, fun home => apart (home.symm.trans own)⟩, stays, ?_, ?_⟩
  · rw [own]
    exact ⟨thread', written⟩
  · rw [own, SortedMap.contains, after]
    rfl

theorem distinctIds_iff (faithful : Faithful s r) (distinct : s.DistinctIds) :
    r.store.DistinctIds ↔ ∀ id thread, ¬ r.Doubles s id thread := by
  rw [Store.distinctIds_iff] at distinct
  constructor
  · rintro unique id thread ⟨⟨before, foreign⟩, stays, ⟨twin, written⟩, present⟩
    rw [Store.distinctIds_iff] at unique
    obtain ⟨other, found⟩ := Option.isSome_iff_exists.mp present
    have own : other.id = thread.id := by
      rcases faithful.get?_eq_some found with ⟨_, untouched⟩ | ⟨_, own⟩
      · exact absurd (decide_eq_true rfl) (untouched _ written)
      · exact own
    have same := unique id thread.id thread other (faithful.get?_of_untouched before stays) found
      own.symm
    exact foreign same.symm
  · intro single
    refine Store.distinctIds_iff.mpr fun id id' thread thread' one other same => ?_
    by_contra apart
    -- One of the two was there and the other one has been written, so they are doubles.
    rcases faithful.get?_eq_some one with ⟨before, stays⟩ | ⟨written, own⟩
    · rcases faithful.get?_eq_some other with ⟨before', _⟩ | ⟨written', _⟩
      · exact apart (distinct id id' thread thread' before before' same)
      · exact single id thread (faithful.doubles before stays other written' same apart)
    · rcases faithful.get?_eq_some other with ⟨before', stays'⟩ | ⟨_, own'⟩
      · exact single id' thread'
          (faithful.doubles before' stays' one written same.symm fun h => apart h.symm)
      · exact apart (own.symm.trans (same.trans own'))

end Faithful

end Reduction

namespace Store

/-! ### Misfiled threads -/

theorem reduceAll_wellKeyed {s : Store} (keyed : s.WellKeyed)
    {steps : List (Diagnostics × Action)} (tidy : ∀ step ∈ steps, step.2.Tidy) :
    (s.reduceAll steps).WellKeyed := by
  induction steps generalizing s with
  | nil => exact keyed
  | cons step steps ih =>
    have first := reduce_wellKeyed step.1 keyed (tidy step List.mem_cons_self)
    exact ih first fun other member => tidy other (List.mem_cons_of_mem _ member)

/--
An action writes every thread under its own name, and a thread that is misfiled after it was under
that name before and is the same record. So a run that starts with every thread under its own name,
and is given only such stores to put in place, leads through no other stores.
-/
theorem misfiled_was_there (s : Store) :
    (∀ (d : Diagnostics) (a : Action), a.Reconciles →
      let r := s.reduce d a
      (∀ id thread, .replace id thread ∈ r.operations → thread.id = id) ∧
        ∀ id thread, r.store.Misfiled id thread →
          s.get? id = some thread ∧ r.threads.value.get? id = some (.kept thread)) ∧
      ∀ steps : List (Diagnostics × Action), s.WellKeyed → (∀ step ∈ steps, step.2.Tidy) →
        ∀ passed, passed <+: steps → (s.reduceAll passed).WellKeyed := by
  refine ⟨fun d a through => ?_, fun steps keyed tidy passed earlier => ?_⟩
  · intro r
    have faithful : r.Faithful s := reduce_faithful d s a through
    have threads : r.threads = .reconciled s r.operations := reduce_threads d s through
    refine ⟨fun id thread written => faithful.ownNamed _ written, fun id thread foreign => ?_⟩
    obtain ⟨before, untouched⟩ := faithful.misfiled foreign
    rw [threads]
    exact ⟨before, TracedStore.kept_iff.mpr ⟨before, untouched⟩⟩
  · exact reduceAll_wellKeyed keyed fun step member => tidy step (earlier.subset member)

/--
A misfiled thread is marked and loses a member, and both are written under its own name. A run from
nothing takes threads under foreign names from a snapshot, and then a store.
-/
theorem misfiled_was_there_marked :
    let thread : Thread := { Thread.new "t" 3 0 with members := [.new "a" none] }
    let s : Store := SortedMap.ofList [("u", .new "u" 3 0), ("x", thread)]
    let d : Diagnostics := ⟨[], [], .standard, 0⟩
    let edits : Action :=
      .updates .processUpdates ⟨2, [.updateReadStatus "1" 1 "x" true, .deleteAccount "2" 2 "a"]⟩
    let r := s.reduce d edits
    let steps : List (Diagnostics × Action) :=
      [(d, .fullSync .logIn ⟨s, 1⟩), (d, edits), (d, .setThreadStore (.ofThreads [thread]))]
    edits.Reconciles ∧ r.operations.map (·.kind) = ["replace", "replace"] ∧
      r.store.Misfiled "x" thread ∧ r.threads.value.get? "x" = some (.kept thread) ∧
      (∀ step ∈ steps, step.2.Tidy) ∧
      ∀ passed, passed <+: steps → (reduceAll ∅ passed).WellKeyed := by
  intro thread s d edits r steps
  have through : edits.Reconciles := fun _ same => nomatch same
  have foreign : r.store.Misfiled "x" thread := ⟨by decide +kernel, by decide⟩
  have tidy : ∀ step ∈ steps, step.2.Tidy := by
    simp [steps, edits, Action.Tidy, ofThreads_wellKeyed]
  obtain ⟨_, misfiled⟩ := (misfiled_was_there s).1 d edits through
  have run := (misfiled_was_there ∅).2 steps empty_wellKeyed tidy
  exact ⟨through, by decide +kernel, foreign, (misfiled "x" thread foreign).2, tidy, run⟩

/-! ### Threads of one name -/

/--
An action that does not put a store in place keeps the threads of a store apart by their own names,
exactly if it does not write a thread anew of which it leaves the misfiled record where it is. Where
every thread is under its own name there is no such record.
-/
theorem distinctIds_reduce_iff (d : Diagnostics) (s : Store) {a : Action}
    (through : a.Reconciles) :
    let r := s.reduce d a
    (s.DistinctIds → (r.store.DistinctIds ↔ ∀ id thread, ¬ r.Doubles s id thread)) ∧
      (s.WellKeyed → r.store.DistinctIds) := by
  intro r
  have faithful : r.Faithful s := reduce_faithful d s a through
  refine ⟨fun distinct => faithful.distinctIds_iff distinct, fun keyed => ?_⟩
  exact (reduce_wellKeyed d keyed through.tidy).distinctIds

/-- A misfiled thread is deleted under the name that it was filed under, and joined anew. -/
theorem distinctIds_reduce_rejoined :
    let s : Store := SortedMap.ofList [("u", .new "u" 3 0), ("x", .new "t" 3 0)]
    let d : Diagnostics := ⟨[], [], .standard, 0⟩
    let rejoin : Action :=
      .updates .joinThread ⟨1, [.deleteThread "1" 1 "x", .joinThread "2" 2 (.new "t" 5 1)]⟩
    let r := s.reduce d rejoin
    rejoin.Reconciles ∧ s.DistinctIds ∧ ¬ s.WellKeyed ∧ r.store.keys = ["t", "u"] ∧
      r.store.DistinctIds ∧ ∀ id thread, ¬ r.Doubles s id thread := by
  intro s d rejoin r
  have through : rejoin.Reconciles := fun _ same => nomatch same
  have distinct : s.DistinctIds := by decide +kernel
  have foreign : ¬ s.WellKeyed := fun keyed =>
    absurd (keyed "x" (.new "t" 3 0) (by decide +kernel)) (by decide)
  have unique : r.store.DistinctIds := by decide +kernel
  exact ⟨through, distinct, foreign, by decide +kernel, unique,
    ((distinctIds_reduce_iff d s through).1 distinct).mp unique⟩

/--
The user chooses a subscription for a thread by the name that it is misfiled under. The choice is
written under the thread's own name, and the record without it stays where it was.
-/
theorem subscription_doubles_misfiled :
    let d : Diagnostics := ⟨[], [], .standard, 0⟩
    let adopted : Store := SortedMap.ofList [("x", .new "t" 3 0)]
    let s := (reduce d ∅ (.setThreadStore adopted)).store
    let choose : Action := .updateSubscription "x" ⟨false, false⟩
    let r := s.reduce d choose
    choose.Reconciles ∧ s.DistinctIds ∧ r.store.keys = ["t", "x"] ∧
      r.store.values.map (·.id) = ["t", "t"] ∧ ¬ r.store.DistinctIds := by
  intro d adopted s choose r
  have through : choose.Reconciles := fun _ same => nomatch same
  exact ⟨through, by decide +kernel, by decide +kernel, by decide +kernel, by decide +kernel⟩

end Store

end ThreadCache
