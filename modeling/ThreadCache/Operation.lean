import ThreadCache.Thread

/-!
# Store operations

The changes that turn one store into the next, in the order in which they are made. They are
polymorphic in what the store holds, so that the same operations can be run on threads, on rows and
on threads with a history.
-/

namespace ThreadCache

inductive Operation (α : Type)
  | replace (id : String) (value : α)
  | remove (ids : List String)
  | removeAll
  deriving DecidableEq

abbrev StoreOperation := Operation Thread

namespace Operation

def kind : Operation α → String
  | .replace .. => "replace"
  | .remove _ => "remove"
  | .removeAll => "remove_all"

def map (f : α → β) : Operation α → Operation β
  | .replace id value => .replace id (f value)
  | .remove ids => .remove ids
  | .removeAll => .removeAll

/-- The operation that puts a thread under its own name. -/
def put (thread : Thread) : StoreOperation := .replace thread.id thread

end Operation

end ThreadCache
