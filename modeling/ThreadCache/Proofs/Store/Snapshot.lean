import Mathlib.Data.String.Basic
import ThreadCache.Proofs.Correction
import ThreadCache.Proofs.Store.Effects

/-!
# Snapshots of the server

A snapshot lists threads under names that the server chose, which may be the names of other threads
or list one thread more than once. The store takes each of them under its own name.

## Main result

`fullSync_adopts`: what the store holds after a snapshot is up to the snapshot alone, and of the
threads with one name it is the one listed under the greatest name.

## Proof strategy

Everything is removed before the first thread is put, so nothing of the store before remains. The
threads are then put in the order in which they are listed, so the last one of a name stays; and as
the listing ascends, the last one is that under the greatest name.
-/

namespace ThreadCache

/-- The last entry is the one under the greatest name. -/
theorem Entries.Ascending.getLast?_eq_some_iff {α : Type} {entries : List (String × α)}
    (ascending : Ascending entries) {entry : String × α} :
    entries.getLast? = some entry ↔ entry ∈ entries ∧ ∀ other ∈ entries, other.1 ≤ entry.1 := by
  rcases List.eq_nil_or_concat' entries with rfl | ⟨earlier, last, rfl⟩
  · simp
  have before : ∀ other ∈ earlier, other.1 < last.1 := fun other member =>
    (List.pairwise_append.mp ascending).2.2 other member last List.mem_cons_self
  rw [List.getLast?_concat, Option.some.injEq]
  constructor
  · rintro rfl
    refine ⟨List.mem_append_right _ List.mem_cons_self, fun other member => ?_⟩
    rcases List.mem_append.mp member with among | same
    · exact le_of_lt (before other among)
    · exact le_of_eq (congrArg Prod.fst (List.mem_singleton.mp same))
  · rintro ⟨member, greatest⟩
    rcases List.mem_append.mp member with among | same
    · have above := greatest last (List.mem_append_right _ List.mem_cons_self)
      exact absurd (before entry among) (not_lt_of_ge above)
    · exact (List.mem_singleton.mp same).symm

/-- The thread is listed under the greatest of the names that list a thread called `id`. -/
structure FullSync.Prevails (payload : FullSync) (id key : String) (thread : Thread) : Prop where
  listed : payload.threads.get? key = some thread
  named : thread.id = id
  greatest : ∀ other rival, payload.threads.get? other = some rival → rival.id = id → other ≤ key

theorem FullSync.lastNamed?_eq_some_iff {payload : FullSync} {id : String} {thread : Thread} :
    lastNamed? id payload.threads.values = some thread ↔
      ∃ key, payload.Prevails id key thread := by
  have ascending : Entries.Ascending
      (payload.threads.entries.filter fun entry => entry.2.id = id) :=
    payload.threads.ascending.filter _
  have listed_iff {key : String} {thread : Thread} :
      (key, thread) ∈ payload.threads.entries.filter (fun entry => entry.2.id = id) ↔
        payload.threads.get? key = some thread ∧ thread.id = id := by
    rw [List.mem_filter, SortedMap.get?_eq_some_iff, decide_eq_true_eq]
  rw [lastNamed?, SortedMap.values, List.filter_map, List.getLast?_map, Option.map_eq_some_iff]
  constructor
  · rintro ⟨⟨key, thread⟩, last, rfl⟩
    obtain ⟨member, greatest⟩ := ascending.getLast?_eq_some_iff.mp last
    obtain ⟨listed, named⟩ := listed_iff.mp member
    exact ⟨key, listed, named, fun other rival held same =>
      greatest (other, rival) (listed_iff.mpr ⟨held, same⟩)⟩
  · rintro ⟨key, prevails⟩
    refine ⟨(key, thread), ascending.getLast?_eq_some_iff.mpr ⟨?_, ?_⟩, rfl⟩
    · exact listed_iff.mpr ⟨prevails.listed, prevails.named⟩
    · rintro ⟨other, rival⟩ member
      obtain ⟨held, same⟩ := listed_iff.mp member
      exact prevails.greatest other rival held same

namespace Store

/-- Of the threads with one name, the store has the one that the snapshot lists last. -/
theorem get?_fullSync_eq_last (s : Store) (payload : FullSync) (id : String) :
    (s.fullSync payload).store.get? id = lastNamed? id payload.threads.values := by
  rw [get?_fullSync, Effect.foldl_deliver, foldl_puts, Option.or_none]

theorem get?_fullSync_eq_some_iff {s : Store} {payload : FullSync} {id : String}
    {thread : Thread} :
    (s.fullSync payload).store.get? id = some thread ↔ ∃ key, payload.Prevails id key thread := by
  rw [get?_fullSync_eq_last, FullSync.lastNamed?_eq_some_iff]

theorem contains_fullSync_iff {s : Store} {payload : FullSync} {id : String} :
    (s.fullSync payload).store.contains id ↔
      ∃ thread ∈ payload.threads.values, thread.id = id := by
  rw [SortedMap.contains, get?_fullSync_eq_last, Option.isSome_iff_ne_none, ne_eq,
    lastNamed?_eq_none_iff]
  simp

theorem fullSync_wellKeyed (s : Store) (payload : FullSync) :
    (s.fullSync payload).store.WellKeyed := by
  intro id thread found
  obtain ⟨_, prevails⟩ := get?_fullSync_eq_some_iff.mp found
  exact prevails.named

theorem fullSync_store_congr (s t : Store) (payload : FullSync) :
    (s.fullSync payload).store = (t.fullSync payload).store := by
  apply SortedMap.ext
  intro id
  rw [get?_fullSync, get?_fullSync]

/--
A snapshot decides what the store holds, whatever it held before and wherever the threads in it were
filed. A name is there if a thread of the snapshot goes by it, and stands for the one that is listed
under the greatest name. The operations remove everything and put each thread under its own name, in
the order of the names that list them. So after a snapshot and any further actions two stores are
the same, whatever reports of the actions would say.
-/
theorem fullSync_adopts (d : Diagnostics) (s : Store) (kind : FullSyncKind) (payload : FullSync) :
    let action : Action := .fullSync kind payload
    let r := s.reduce d action
    (∀ id, r.store.contains id ↔ ∃ thread ∈ payload.threads.values, thread.id = id) ∧
      (∀ id thread, r.store.get? id = some thread ↔ ∃ key, payload.Prevails id key thread) ∧
      r.store.WellKeyed ∧
      r.operations =
        .removeAll :: payload.threads.entries.map (fun entry => .replace entry.2.id entry.2) ∧
      ∀ (t : Store) (d' : Diagnostics),
        (t.reduce d' action).store = r.store ∧
          ∀ steps steps' : List (Diagnostics × Action), steps.map (·.2) = steps'.map (·.2) →
            s.reduceAll ((d, action) :: steps) = t.reduceAll ((d', action) :: steps') := by
  intro action r
  have adopted (t : Store) (d' : Diagnostics) : (t.reduce d' action).store = r.store :=
    fullSync_store_congr t s payload
  have operations : r.operations =
      .removeAll :: payload.threads.entries.map (fun entry => .replace entry.2.id entry.2) := by
    change Operation.removeAll :: payload.threads.values.map Operation.put = _
    rw [SortedMap.values, List.map_map]
    rfl
  refine ⟨fun id => contains_fullSync_iff, fun id thread => get?_fullSync_eq_some_iff,
    fullSync_wellKeyed s payload, operations, fun t d' => ⟨adopted t d', ?_⟩⟩
  intro steps steps' same
  -- The stores are the same after the snapshot, and the same actions follow.
  change r.store.reduceAll steps = (t.reduce d' action).store.reduceAll steps'
  rw [adopted t d']
  exact reduceAll_congr r.store same

/--
The thread `t` is listed twice and its name lists another thread, and the store before has both of
these names wrong. The greater of the two code points counts, although in UTF-16 it comes first.
-/
theorem fullSync_adopts_crossed :
    let payload : FullSync :=
      ⟨.ofList [("t", .new "u" 7 0), ("😀", .new "t" 5 1), ("\uffff", .new "t" 3 0)], 9⟩
    let s : Store := .ofList [("x", .new "t" 1 0), ("u", .new "v" 1 0)]
    let action : Action := .fullSync .register payload
    let d : Diagnostics := ⟨[], [], .standard, 0⟩
    let d' : Diagnostics := ⟨[], ["cookie"], .standard, 5⟩
    let later : List Action :=
      [.updateSubscription "t" ⟨false, true⟩, .setThreadStore s, .updates .leaveThread ⟨2,
        [.deleteThread "1" 1 "u"]⟩]
    let steps := later.map fun a => (d, a)
    let steps' := later.map fun a => (d', a)
    ¬ s.WellKeyed ∧ payload.Prevails "t" "😀" (.new "t" 5 1) ∧
      (s.reduce d action).store.get? "t" = some (.new "t" 5 1) ∧
      (s.reduce d action).store.contains "x" = false ∧
      steps.map (·.2) = steps'.map (·.2) ∧
      s.reduceAll ((d, action) :: steps) = reduceAll ∅ ((d', action) :: steps') := by
  intro payload s action d d' later steps steps'
  have misfiled : ¬ s.WellKeyed := by
    intro keyed
    have named := keyed "x" (.new "t" 1 0) (by decide +kernel)
    exact absurd named (by decide)
  have listing : payload.threads.entries =
      [("t", .new "u" 7 0), ("\uffff", .new "t" 3 0), ("😀", .new "t" 5 1)] := by
    decide +kernel
  have prevails : payload.Prevails "t" "😀" (.new "t" 5 1) := by
    refine ⟨by decide +kernel, rfl, fun other rival held named => ?_⟩
    rw [SortedMap.get?_eq_some_iff, listing] at held
    simp only [List.mem_cons, List.not_mem_nil, or_false, Prod.mk.injEq] at held
    rcases held with ⟨rfl, _⟩ | ⟨rfl, _⟩ | ⟨rfl, _⟩ <;> decide +kernel
  have same : steps.map (·.2) = steps'.map (·.2) := rfl
  obtain ⟨names, threads, _, _, regardless⟩ := fullSync_adopts d s .register payload
  have unlisted : ¬ ∃ thread ∈ payload.threads.values, thread.id = "x" := by
    rw [SortedMap.values, listing]
    decide +kernel
  refine ⟨misfiled, prevails, (threads "t" _).mpr ⟨"😀", prevails⟩, ?_, same, ?_⟩
  · exact Bool.eq_false_iff.mpr fun there => unlisted ((names "x").mp there)
  · exact (regardless ∅ d').2 steps steps' same

end Store

end ThreadCache
