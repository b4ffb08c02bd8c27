import Mathlib.Data.List.Nodup
import ThreadCache.Cache.Table
import ThreadCache.Proofs.Cache.Row
import ThreadCache.Proofs.Store.Operations

/-!
# Tables, name by name

## Main results

* `Table.load_eq_ok_iff`: a table loads as a store exactly if, name by name, the row is that of the
  thread.
* `Table.Keeps.run`: a table that keeps a store keeps, after the statements of some operations, the
  store after the operations.

## Proof strategy

Ids are distinct, so a table is what it holds under each id (`Table.get?`), and the statements of an
operation act on each id by themselves, as the operation does on each name of a store
(`Operation.act`). What is left is one row and one thread, and a written row gives its thread back.
-/

namespace ThreadCache

/-- The thread as a table keeps it under a name. -/
def Thread.filedAs (t : Thread) (id : String) : Thread := { t with id := id }

namespace Store

/-- The store with every thread as a table keeps it. -/
def filed (s : Store) : Store where
  entries := s.entries.map fun entry => (entry.1, entry.2.filedAs entry.1)
  ascending := by
    rw [Entries.Ascending, List.pairwise_map]
    exact s.ascending

theorem get?_filed (s : Store) (id : String) :
    s.filed.get? id = (s.get? id).map (·.filedAs id) := by
  apply Option.ext
  intro thread
  rw [SortedMap.get?_eq_some_iff, filed, List.mem_map, Option.map_eq_some_iff]
  constructor
  · rintro ⟨⟨key, held⟩, member, same⟩
    cases same
    exact ⟨held, SortedMap.get?_eq_some_iff.mpr member, rfl⟩
  · rintro ⟨held, found, rfl⟩
    exact ⟨(id, held), SortedMap.get?_eq_some_iff.mp found, rfl⟩

/-- Threads that go by their own names are kept as they are. -/
theorem filed_eq_self {s : Store} (keyed : s.WellKeyed) : s.filed = s := by
  apply SortedMap.ext
  intro id
  rw [get?_filed]
  cases held : s.get? id with
  | none => rfl
  | some thread =>
    have name := keyed id thread held
    subst name
    rfl

end Store

namespace Cache

/-! ### Rows by id -/

namespace Table

theorem get?_eq_some_iff {t : Table} {id : String} {row : Row} :
    t.get? id = some row ↔ row ∈ t.rows ∧ row.id = id := by
  constructor
  · intro found
    have named := List.find?_some found
    exact ⟨List.mem_of_find?_eq_some found, of_decide_eq_true named⟩
  · rintro ⟨member, rfl⟩
    -- A row of the table is found under its id, or else another row with the same id is; ids are
    -- distinct, so that is the same row.
    cases found : t.get? row.id with
    | none =>
      have absent := List.find?_eq_none.mp found row member
      exact absurd (decide_eq_true rfl) absent
    | some other =>
      have named := List.find?_some found
      have same := List.inj_on_of_nodup_map t.distinct (List.mem_of_find?_eq_some found) member
        (of_decide_eq_true named)
      rw [same]

@[simp] theorem get?_empty (id : String) : (∅ : Table).get? id = none := rfl

theorem mem_rows_erase {t : Table} {id : String} {row : Row} :
    row ∈ (t.erase id).rows ↔ row ∈ t.rows ∧ row.id ≠ id := by
  rw [erase, List.mem_filter, decide_eq_true_eq]

theorem mem_rows_put {t : Table} {row other : Row} :
    other ∈ (t.put row).rows ↔ (other ∈ t.rows ∧ other.id ≠ row.id) ∨ other = row := by
  rw [put, List.mem_append, List.mem_singleton, mem_rows_erase]

@[grind =] theorem get?_erase (t : Table) (id other : String) :
    (t.erase id).get? other = if id = other then none else t.get? other := by
  apply Option.ext
  intro row
  rw [get?_eq_some_iff, mem_rows_erase]
  split
  next same =>
    subst same
    simp
  next apart =>
    rw [get?_eq_some_iff]
    constructor
    · rintro ⟨⟨member, _⟩, named⟩
      exact ⟨member, named⟩
    · rintro ⟨member, rfl⟩
      exact ⟨⟨member, Ne.symm apart⟩, rfl⟩

@[grind =] theorem get?_put (t : Table) (row : Row) (id : String) :
    (t.put row).get? id = if row.id = id then some row else t.get? id := by
  apply Option.ext
  intro other
  rw [get?_eq_some_iff, mem_rows_put]
  split
  next same =>
    subst same
    rw [Option.some.injEq]
    constructor
    · rintro ⟨⟨_, apart⟩ | rfl, named⟩
      · exact absurd named apart
      · rfl
    · rintro rfl
      exact ⟨.inr rfl, rfl⟩
  next apart =>
    rw [get?_eq_some_iff]
    constructor
    · rintro ⟨⟨member, _⟩ | rfl, named⟩
      · exact ⟨member, named⟩
      · exact absurd named apart
    · rintro ⟨member, rfl⟩
      exact ⟨.inl ⟨member, Ne.symm apart⟩, rfl⟩

/-! ### Loading -/

theorem threads_eq_ok_iff {rows : List Row} {loaded : List Thread} :
    threads rows = .ok loaded ↔ List.Forall₂ (fun row t => row.thread = .ok t) rows loaded := by
  -- Both sides take the rows one by one, and a corrupt one stops both.
  induction rows generalizing loaded with
  | nil =>
    rw [List.forall₂_nil_left_iff]
    constructor
    · rintro ⟨⟩
      rfl
    · rintro rfl
      rfl
  | cons row rows ih =>
    rw [threads, bind_eq_ok_iff, List.forall₂_cons_left_iff]
    simp only [bind_eq_ok_iff, ih, pure, Except.pure, Except.ok.injEq]
    constructor
    · rintro ⟨t, first, others, rest, rfl⟩
      exact ⟨t, others, first, rest, rfl⟩
    · rintro ⟨t, others, first, rest, rfl⟩
      exact ⟨t, first, others, rest, rfl⟩

theorem exists_forall₂_of_readable {rows : List Row}
    (readable : ∀ row ∈ rows, ∃ t, row.thread = .ok t) :
    ∃ loaded, List.Forall₂ (fun row t => row.thread = .ok t) rows loaded := by
  induction rows with
  | nil => exact ⟨[], .nil⟩
  | cons row rows ih =>
    obtain ⟨t, first⟩ := readable row List.mem_cons_self
    obtain ⟨loaded, rest⟩ := ih fun other member => readable other (List.mem_cons_of_mem _ member)
    exact ⟨t :: loaded, .cons first rest⟩

theorem ids_of_forall₂ {rows : List Row} {loaded : List Thread}
    (read : List.Forall₂ (fun row t => row.thread = .ok t) rows loaded) :
    loaded.map (·.id) = rows.map (·.id) := by
  induction read with
  | nil => rfl
  | cons first _ ih => rw [List.map_cons, List.map_cons, Row.id_of_thread first, ih]

/-- Of rows with distinct ids, each gives the thread under its id. -/
theorem find?_of_forall₂ {rows : List Row} {loaded : List Thread}
    (read : List.Forall₂ (fun row t => row.thread = .ok t) rows loaded)
    (distinct : (rows.map (·.id)).Nodup) (m : Store) (id : String) (absent : m.get? id = none) :
    (rows.find? fun row => row.id = id).mapM Row.thread =
      .ok ((m.insertMany (loaded.map fun t => (t.id, t))).get? id) := by
  -- The induction is on the rows in their order, with the store that the earlier ones have filled.
  induction read generalizing m with
  | nil => rw [List.map_nil, SortedMap.insertMany_nil, absent]; rfl
  | @cons row t rows loaded first rest ih =>
    have named := Row.id_of_thread first
    rw [List.map_cons, List.nodup_cons] at distinct
    rw [List.map_cons, SortedMap.insertMany_cons]
    by_cases same : row.id = id
    -- The first row is the one; no later row writes over its thread.
    · have later : ∀ entry ∈ loaded.map fun t => (t.id, t), entry.1 ≠ id := by
        intro entry member again
        obtain ⟨other, held, rfl⟩ := List.mem_map.mp member
        have repeated : row.id ∈ rows.map (·.id) := by
          rw [← ids_of_forall₂ rest, same, ← again]
          exact List.mem_map_of_mem held
        exact distinct.1 repeated
      rw [List.find?_cons_of_pos (by simpa using same), SortedMap.get?_insertMany_of_absent later,
        SortedMap.get?_insert, if_pos (named.trans same)]
      rw [Option.mapM_some, first]
      rfl
    -- The first row is another one, and its thread goes under another name.
    · rw [List.find?_cons_of_neg (by simpa using same)]
      refine ih distinct.2 _ ?_
      rw [SortedMap.get?_insert, if_neg (named ▸ same), absent]

/-- A table loads as the threads of its rows, if every row is one. -/
theorem load_eq_ok_iff_forall₂ {t : Table} {s : Store} :
    t.load = .ok s ↔ ∃ loaded,
      List.Forall₂ (fun row thread => row.thread = .ok thread) t.rows loaded ∧
        Store.ofThreads loaded = s := by
  simp only [← threads_eq_ok_iff, load]
  cases read : threads t.rows with
  | error cause =>
    constructor
    · rintro ⟨⟩
    · rintro ⟨_, ⟨⟩, _⟩
  | ok loaded =>
    constructor
    · rintro ⟨⟩
      exact ⟨loaded, rfl, rfl⟩
    · rintro ⟨_, ⟨⟩, rfl⟩
      rfl

theorem wellKeyed_of_load {t : Table} {s : Store} (loads : t.load = .ok s) : s.WellKeyed := by
  obtain ⟨loaded, _, rfl⟩ := load_eq_ok_iff_forall₂.mp loads
  exact Store.ofThreads_wellKeyed loaded

/-- A table loads as a store exactly if, id by id, the row is that of the thread. -/
theorem load_eq_ok_iff {t : Table} {s : Store} :
    t.load = .ok s ↔ ∀ id, (t.get? id).mapM Row.thread = .ok (s.get? id) := by
  constructor
  · intro loads id
    obtain ⟨loaded, each, rfl⟩ := load_eq_ok_iff_forall₂.mp loads
    exact find?_of_forall₂ each t.distinct ∅ id (SortedMap.get?_empty id)
  · intro agrees
    -- Every row is under its id, so none of them can be corrupt if each id gives a thread.
    have readable : ∀ row ∈ t.rows, ∃ thread, row.thread = .ok thread := by
      intro row member
      have found := agrees row.id
      rw [get?_eq_some_iff.mpr ⟨member, rfl⟩] at found
      cases read : row.thread with
      | ok thread => exact ⟨thread, rfl⟩
      | error cause =>
        rw [Option.mapM_some, read] at found
        cases found
    obtain ⟨loaded, each⟩ := exists_forall₂_of_readable readable
    refine load_eq_ok_iff_forall₂.mpr ⟨loaded, each, ?_⟩
    apply SortedMap.ext
    intro id
    have found := find?_of_forall₂ each t.distinct ∅ id (SortedMap.get?_empty id)
    have expected := agrees id
    rw [get?, found] at expected
    exact Except.ok.inj expected

/-- A row that is read gives a thread, and no row gives none. -/
theorem isSome_of_mapM {row : Option Row} {held : Option Thread}
    (read : row.mapM Row.thread = .ok held) : row.isSome = held.isSome := by
  cases row with
  | none => cases read; rfl
  | some row =>
    rw [Option.mapM_some] at read
    obtain ⟨thread, _, rfl⟩ := map_eq_ok_iff.mp read
    rfl

/-- Every row gives a thread, so a table without threads has no rows. -/
theorem eq_empty_of_load {t : Table} (loads : t.load = .ok ∅) : t = ∅ := by
  have blank : t.rows = [] := by
    rw [List.eq_nil_iff_forall_not_mem]
    intro row member
    have found := isSome_of_mapM (load_eq_ok_iff.mp loads row.id)
    rw [get?_eq_some_iff.mpr ⟨member, rfl⟩] at found
    cases found
  obtain ⟨rows, _⟩ := t
  cases blank
  rfl

/-! ### Statements -/

/-- What an operation does to the rows of a table. -/
def written : StoreOperation → Operation Row
  | .replace id thread => .replace id (.ofThread id thread)
  | .remove ids => .remove ids
  | .removeAll => .removeAll

theorem get?_foldl_delete (t : Table) (ids : List String) (id : String) :
    ((ids.map Statement.delete).foldl Statement.run t).get? id =
      if id ∈ ids then none else t.get? id := by
  rw [List.foldl_map]
  exact Operation.view_foldl_drop (·.get? id) (fun t key => get?_erase t key id) ids t

/-- The statements of an operation act on each id by itself. -/
theorem get?_statements (t : Table) (op : StoreOperation) (id : String) :
    ((statementsOf op).foldl Statement.run t).get? id = (written op).act id (t.get? id) := by
  cases op with
  | replace key thread => exact get?_put t (.ofThread key thread) id
  | remove ids => exact get?_foldl_delete t ids id
  | removeAll => rfl

end Table

/-! ### Keeping a store -/

/-- The table holds the threads of the store, each under the name that the store has it under. -/
def Table.Keeps (t : Table) (s : Store) : Prop :=
  ∀ id, (t.get? id).mapM Row.thread = .ok ((s.get? id).map (·.filedAs id))

namespace Table

theorem keeps_iff_load_filed {t : Table} {s : Store} : t.Keeps s ↔ t.load = .ok s.filed := by
  rw [load_eq_ok_iff, Keeps]
  simp only [Store.get?_filed]

/-- An operation that is written keeps what it does. -/
theorem keeps_act {id : String} {row : Option Row} {held : Option Thread} (op : StoreOperation)
    (kept : row.mapM Row.thread = .ok (held.map (·.filedAs id))) :
    ((written op).act id row).mapM Row.thread = .ok ((op.act id held).map (·.filedAs id)) := by
  -- Under any other name than that of the operation the row and the thread are those of before.
  cases op with
  | replace key thread =>
    simp only [written, Operation.act]
    split
    next same =>
      subst same
      rw [Option.mapM_some, Row.thread_ofThread]
      rfl
    next => exact kept
  | remove ids =>
    simp only [written, Operation.act]
    split
    next => rfl
    next => exact kept
  | removeAll => rfl

theorem Keeps.statements {t : Table} {s : Store} (kept : t.Keeps s) (op : StoreOperation) :
    ((statementsOf op).foldl Statement.run t).Keeps (op.apply s) := by
  intro id
  rw [get?_statements, Operation.get?_apply]
  exact keeps_act op (kept id)

/-- The statements of operations lead from a kept store to the store after the operations. -/
theorem Keeps.run {t : Table} {s : Store} (kept : t.Keeps s) (ops : List StoreOperation) :
    ((ops.flatMap statementsOf).foldl Statement.run t).Keeps (Operation.applyAll s ops) := by
  -- Table and store move together, one operation at a time.
  induction ops generalizing t s with
  | nil => exact kept
  | cons op ops ih =>
    rw [List.flatMap_cons, List.foldl_append, Operation.applyAll_cons]
    exact ih (kept.statements op)

end Table

end Cache

end ThreadCache
