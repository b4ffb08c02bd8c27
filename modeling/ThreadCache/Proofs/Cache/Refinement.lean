import ThreadCache.Proofs.Cache.Database

/-!
# The database follows the store

A database answers as a store does in which every thread goes by the name that it is filed under,
and goes on to do so whatever operations are written to it.

## Main result

`mirrors_reconciled`: a batch of any operations makes of a database what it makes of the store that
the database mirrors.

## Proof strategy

Loading decides all that can be read: a row is found under an id if the load has a thread there, and
there are as many rows as there are names in the load, because no two rows share an id. A batch of
which no position fails is written to its last statement, and the table then keeps what the
operations make of the store (`Database.load_filed_after`).
-/

namespace ThreadCache

namespace Cache

/-! ### What loading decides -/

namespace Table

variable {t : Table} {s : Store}

theorem mem_ids_iff {id : String} : id ∈ t.rows.map (·.id) ↔ ∃ row, t.get? id = some row := by
  simp only [List.mem_map, get?_eq_some_iff]

theorem mem_ids_iff_of_load (loads : t.load = .ok s) (id : String) :
    id ∈ t.rows.map (·.id) ↔ id ∈ s.keys := by
  have same := isSome_of_mapM (load_eq_ok_iff.mp loads id)
  rw [mem_ids_iff, SortedMap.mem_keys_iff, ← Option.isSome_iff_exists, ← Option.isSome_iff_exists,
    same]

/-- A table has as many rows as its load has names. -/
theorem size_of_load (loads : t.load = .ok s) : t.size = s.size := by
  have same : (t.rows.map (·.id)).Perm s.keys :=
    (List.perm_ext_iff_of_nodup t.distinct s.keys_nodup).mpr (mem_ids_iff_of_load loads)
  have length := same.length_eq
  rwa [List.length_map, SortedMap.keys, List.length_map] at length

end Table

namespace Database

variable {db : Database} {s : Store}

theorem view_of_isOpen {α : Type} (isOpen : db.isOpen) (read : Table → Except RowError α) {x : α}
    (reads : read db.table = .ok x) : db.view read = .ok x := by
  rw [view, if_pos isOpen, reads]
  rfl

/-- Whatever is read from the database is what the store has, filed under its names. -/
structure Mirrors (db : Database) (s : Store) : Prop where
  load : db.load = .ok s.filed
  get? : ∀ id, db.get? id = .ok (s.filed.get? id)
  count : db.count = .ok s.filed.size

theorem mirrors_of_load (loads : db.load = .ok s.filed) : db.Mirrors s := by
  obtain ⟨isOpen, read⟩ := load_eq_ok_iff.mp loads
  refine ⟨loads, fun id => ?_, ?_⟩
  · exact view_of_isOpen isOpen _ (Table.load_eq_ok_iff.mp read id)
  · exact view_of_isOpen isOpen _ (congrArg _ (Table.size_of_load read))

/-- A batch of which no position fails is written. -/
theorem apply_of_calm {outage : Outage} {ops : List StoreOperation} (isOpen : db.isOpen)
    (calm : ∀ position, ¬ db.FailsAt outage ops position) :
    db.apply outage ops = .ok (db.after ops) := by
  cases applied : db.apply outage ops with
  | ok next => rw [apply_eq_ok applied]
  | error cause =>
    obtain ⟨_, _, closed | ⟨position, fails⟩⟩ := apply_eq_error_iff.mp applied
    · rw [closed] at isOpen
      cases isOpen
    · exact absurd fails (calm position)

theorem Accepting.calm (accepting : db.Accepting) (ops : List StoreOperation) (position : Nat) :
    ¬ db.FailsAt .none ops position := by
  rintro ⟨_, stopped | ⟨statement, _, refused⟩⟩
  · cases stopped
  · rw [accepting.refuses] at refused
    cases refused

/--
A database that loads as a store with its threads filed under their names also finds each of them
and counts them; and a batch of any operations, of which no position fails, is written and leads to
a database that does so for the store that the operations make of the one before.
-/
theorem mirrors_reconciled (loads : db.load = .ok s.filed) :
    db.Mirrors s ∧
      ∀ (outage : Outage) (ops : List StoreOperation),
        (∀ position, ¬ db.FailsAt outage ops position) →
          ∃ next, db.apply outage ops = .ok next ∧
            next.Mirrors (TracedStore.reconciled s ops).store := by
  refine ⟨mirrors_of_load loads, fun outage ops calm => ⟨db.after ops, ?_, ?_⟩⟩
  · exact apply_of_calm (load_eq_ok_iff.mp loads).1 calm
  · rw [TracedStore.store_reconciled]
    exact mirrors_of_load (load_filed_after loads)

/-- Threads under names of each other's are written over and removed, one of them twice. -/
theorem mirrors_reconciled_misfiled :
    let filing : List StoreOperation :=
      [.replace "k" (.new "t" 3 0), .replace "u" (.new "k" 3 0), .replace "x" (.new "x" 3 0)]
    let db := Database.fresh.after filing
    let s : Store := Operation.applyAll ∅ filing
    let ops : List StoreOperation :=
      [.replace "t" (.new "u" 5 1), .remove ["u", "v", "u"], .replace "k" (.new "x" 7 2)]
    db.load = .ok s.filed ∧ (∀ position, ¬ db.FailsAt .none ops position) ∧
      ∃ next, db.apply .none ops = .ok next ∧ next.Mirrors (TracedStore.reconciled s ops).store ∧
        next.get? "t" = .ok (some (.new "t" 5 1)) ∧ next.get? "u" = .ok none ∧
        next.count = .ok 3 := by
  intro filing db s ops
  have loads : db.load = .ok s.filed := load_filed_after rfl
  have calm := (show db.Accepting from ⟨rfl, rfl⟩).calm ops
  obtain ⟨_, follows⟩ := mirrors_reconciled loads
  obtain ⟨next, applied, mirrors⟩ := follows .none ops calm
  have held : (TracedStore.reconciled s ops).store.filed.get? "t" = some (.new "t" 5 1) := by
    decide +kernel
  have gone : (TracedStore.reconciled s ops).store.filed.get? "u" = none := by decide +kernel
  have size : (TracedStore.reconciled s ops).store.filed.size = 3 := by decide +kernel
  exact ⟨loads, calm, next, applied, mirrors, held ▸ mirrors.get? "t", gone ▸ mirrors.get? "u",
    size ▸ mirrors.count⟩

end Database

end Cache

end ThreadCache
