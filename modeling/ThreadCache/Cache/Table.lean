import ThreadCache.Cache.Row
import ThreadCache.Operation

/-!
# The table of threads

Rows in the order in which they were written, no two under one id, and the statements that change
them. A row that is written again moves to the end.
-/

namespace ThreadCache.Cache

structure Table where
  rows : List Row
  distinct : (rows.map (·.id)).Nodup
  deriving DecidableEq

namespace Table

def empty : Table := ⟨[], List.nodup_nil⟩

instance : EmptyCollection Table := ⟨empty⟩

def get? (t : Table) (id : String) : Option Row := t.rows.find? fun r => r.id = id

def contains (t : Table) (id : String) : Bool := (t.get? id).isSome

def size (t : Table) : Nat := t.rows.length

theorem nodup_filter {rows : List Row} (h : (rows.map (·.id)).Nodup) (p : Row → Bool) :
    ((rows.filter p).map (·.id)).Nodup :=
  h.sublist (List.filter_sublist.map _)

def erase (t : Table) (id : String) : Table :=
  ⟨t.rows.filter fun r => r.id ≠ id, nodup_filter t.distinct _⟩

/-- The table with a row at its end, in place of the one that had its id. -/
def put (t : Table) (row : Row) : Table where
  rows := (t.erase row.id).rows ++ [row]
  distinct := by
    have h := (t.erase row.id).distinct
    simp only [List.map_append, List.map_cons, List.map_nil]
    refine List.nodup_append.2 ⟨h, by simp, ?_⟩
    intro a ha b hb
    simp only [erase, List.mem_map, List.mem_filter, decide_eq_true_eq] at ha
    obtain ⟨r, ⟨_, hr⟩, rfl⟩ := ha
    simp only [List.mem_singleton] at hb
    exact hb ▸ hr

/-- Changes the row under an id; refused if two rows would then share one. -/
def modify? (t : Table) (id : String) (f : Row → Row) : Option Table :=
  let rows := t.rows.map fun r => if r.id = id then f r else r
  if h : (rows.map (·.id)).Nodup then some ⟨rows, h⟩ else none

/-- The threads of rows in order, the first corrupt row giving the error. -/
def threads : List Row → Except RowError (List Thread)
  | [] => .ok []
  | row :: rows => do
    let thread ← row.thread
    let others ← threads rows
    return thread :: others

def load (t : Table) : Except RowError Store := (threads t.rows).map Store.ofThreads

end Table

/-! ## Statements -/

inductive Statement
  | put (row : Row)
  | delete (id : String)
  | clear
  deriving DecidableEq

def Statement.run (t : Table) : Statement → Table
  | .put row => t.put row
  | .delete id => t.erase id
  | .clear => ∅

/-- The statements that make the change of an operation in the table. -/
def statementsOf : StoreOperation → List Statement
  | .replace id thread => [.put (.ofThread id thread)]
  | .remove ids => ids.map .delete
  | .removeAll => [.clear]

end ThreadCache.Cache
