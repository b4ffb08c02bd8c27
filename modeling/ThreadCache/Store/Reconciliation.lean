import ThreadCache.Operation

/-!
# Reconciliation

Store operations are applied in order. Whether an entry came through a batch untouched is read off
the same application on traced values: the entries of the input are marked `kept`, the values of
the operations `fresh`, and an operation moves marks about without looking at them.
-/

namespace ThreadCache

/-- A value together with whether it was there before or is new. -/
inductive Traced (α : Type)
  | kept (value : α)
  | fresh (value : α)
  deriving DecidableEq

namespace Traced

def value : Traced α → α
  | .kept a => a
  | .fresh a => a

def isKept : Traced α → Bool
  | .kept _ => true
  | .fresh _ => false

end Traced

namespace Operation

def apply (m : SortedMap α) : Operation α → SortedMap α
  | .replace id value => m.insert id value
  | .remove ids => ids.foldl SortedMap.erase m
  | .removeAll => ∅

def applyAll (m : SortedMap α) (ops : List (Operation α)) : SortedMap α := ops.foldl apply m

@[simp] theorem applyAll_nil (m : SortedMap α) : applyAll m [] = m := rfl

@[simp] theorem applyAll_cons (m : SortedMap α) (op : Operation α) (ops : List (Operation α)) :
    applyAll m (op :: ops) = applyAll (op.apply m) ops := rfl

theorem applyAll_append (m : SortedMap α) (ops ops' : List (Operation α)) :
    applyAll m (ops ++ ops') = applyAll (applyAll m ops) ops' := List.foldl_append

end Operation

/-- A store whose map and whose entries are marked as kept from an earlier store or fresh. -/
abbrev TracedStore := Traced (SortedMap (Traced Thread))

namespace TracedStore

def store (t : TracedStore) : Store := t.value.map Traced.value

def keptKeys (t : TracedStore) : List String :=
  (t.value.entries.filter fun entry => entry.2.isKept).map (·.1)

def unchanged (s : Store) : TracedStore := .kept (s.map .kept)

/-- A store put in place of another one. -/
def adopted (s : Store) : TracedStore := .fresh (s.map .fresh)

/-- A store after a batch of operations: itself if there are none, and a new map otherwise. -/
def reconciled (s : Store) (ops : List StoreOperation) : TracedStore :=
  match ops with
  | [] => unchanged s
  -- Everything is kept to begin with, and only what operations write is fresh.
  | ops => .fresh (Operation.applyAll (s.map .kept) (ops.map (·.map .fresh)))

end TracedStore

end ThreadCache
