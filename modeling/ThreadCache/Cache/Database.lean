import ThreadCache.Cache.Schema
import ThreadCache.Cache.Table

/-!
# The database

A table with transactions: a batch of operations is written as a whole or not at all. A statement
can fail because the database refuses the row, and, like the commit at the end, for any reason
outside of it.
-/

namespace ThreadCache.Cache

/-- The positions in a batch at which a statement fails for reasons outside the database. -/
abbrev Outage := Nat → Bool

def Outage.none : Outage := fun _ => false

structure Database where
  table : Table
  refusedInserts : List String
  refusedDeletes : List String
  isOpen : Bool
  deriving DecidableEq

inductive CacheError
  | unavailable
  | row (cause : RowError)
  deriving DecidableEq

def CacheError.message : CacheError → String
  | .unavailable => "Database error"
  | .row cause => cause.message

namespace Database

def fresh : Database := ⟨∅, [], [], true⟩

/-- Whether a statement meets a row that the database refuses to write or to delete. -/
def refuses (db : Database) (t : Table) : Statement → Bool
  | .put row => row.id ∈ db.refusedInserts
  | .delete id => id ∈ db.refusedDeletes && t.contains id
  | .clear => t.rows.any fun r => r.id ∈ db.refusedDeletes

/-- The table after statements and their commit; none if one of them fails. -/
def run (db : Database) (outage : Outage) (position : Nat) (t : Table) :
    List Statement → Option Table
  -- The position behind the last statement is that of the commit.
  | [] => if outage position then none else some t
  | s :: rest =>
    if outage position || db.refuses t s then none
    else db.run outage (position + 1) (s.run t) rest

/-- The database after a batch; an empty batch does not even need it to be open. -/
def apply (db : Database) (outage : Outage) (ops : List StoreOperation) :
    Except CacheError Database :=
  if ops.isEmpty then .ok db
  else if db.isOpen then
    match db.run outage 0 db.table (ops.flatMap statementsOf) with
    | some t => .ok { db with table := t }
    | none => .error .unavailable
  else .error .unavailable

/-- What can be read off the table, if the database is open. -/
def view (db : Database) (read : Table → Except RowError α) : Except CacheError α :=
  if db.isOpen then (read db.table).mapError .row else .error .unavailable

def load (db : Database) : Except CacheError Store := db.view Table.load

def get? (db : Database) (id : String) : Except CacheError (Option Thread) :=
  db.view fun t => (t.get? id).mapM Row.thread

def count (db : Database) : Except CacheError Nat := db.view fun t => .ok t.size

/-- The version of the layout, which is up to date in every open database. -/
def version (db : Database) : Except CacheError Int32 := db.view fun _ => .ok Schema.current

def refusals (db : Database) : Nat := db.refusedInserts.length + db.refusedDeletes.length

def refuseInsert (db : Database) (id : String) : Database :=
  { db with refusedInserts := db.refusedInserts ++ [id] }

def refuseDelete (db : Database) (id : String) : Database :=
  { db with refusedDeletes := db.refusedDeletes ++ [id] }

def acceptAll (db : Database) : Database := { db with refusedInserts := [], refusedDeletes := [] }

def close (db : Database) : Database := { db with isOpen := false }

def reopen (db : Database) : Database := { db with isOpen := true }

/-- Changes the row under an id past every refusal, and counts the rows that there are to change. -/
def edit (db : Database) (id : String) (f : Row → Row) : Except CacheError (Database × Nat) :=
  if db.isOpen then
    match db.table.modify? id f with
    | some t => .ok ({ db with table := t }, if db.table.contains id then 1 else 0)
    | none => .error .unavailable
  else .error .unavailable

end Database

end ThreadCache.Cache
