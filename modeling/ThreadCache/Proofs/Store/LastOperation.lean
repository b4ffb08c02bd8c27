import Mathlib.Data.List.Induction
import ThreadCache.Proofs.Store.Identity

/-!
# The last operation decides

A batch is applied from its first operation to its last one. At one name it can be read the other
way: what is there in the end is up to the last operation that touches the name, and nothing before
that operation matters.

## Main result

`last_operation_decides`: the last operation that touches a name leaves its own record there or
nothing, and without such an operation the record from before is there.

## Proof strategy

By induction from the end of the batch: its last operation touches the name and decides, or lets
the name be, so that the rest of the batch decides. Nothing is asked of what the operations write,
so the same holds of records with their marks, which tell the one that was there from the others.
-/

namespace ThreadCache

namespace Operation

variable {α β : Type}

/-- What the operation leaves under a name that it touches. -/
def left? : Operation α → Option α
  | .replace _ value => some value
  | .remove _ => none
  | .removeAll => none

theorem left?_map (f : α → β) (op : Operation α) : (op.map f).left? = op.left?.map f := by
  cases op <;> rfl

theorem act_of_touched {op : Operation α} {id : String} (touched : op.touches id)
    (held : Option α) : op.act id held = op.left? := by
  cases op with
  | replace key value => exact if_pos (by simpa [touches] using touched)
  | remove ids => exact if_pos (by simpa [touches] using touched)
  | removeAll => rfl

/-- A batch that is applied from its start can be read from its end. -/
theorem foldl_act_eq_last (ops : List (Operation α)) (id : String) (held : Option α) :
    ops.foldl (act id) held = (ops.findRev? (·.touches id)).elim held left? := by
  induction ops using List.reverseRecOn with
  | nil => rfl
  | append_singleton ops op ih =>
    rw [List.foldl_append, List.foldl_cons, List.foldl_nil, ih, List.findRev?_eq_find?_reverse,
      List.findRev?_eq_find?_reverse, List.reverse_append, List.reverse_singleton,
      List.singleton_append, List.find?_cons]
    cases touched : op.touches id with
    | true => exact act_of_touched touched _
    | false => exact act_of_untouched (by rw [touched]; exact Bool.false_ne_true) _

theorem get?_applyAll_eq_last (m : SortedMap α) (ops : List (Operation α)) (id : String) :
    (applyAll m ops).get? id = (ops.findRev? (·.touches id)).elim (m.get? id) left? := by
  rw [get?_applyAll, foldl_act_eq_last]

theorem findRev?_touches_map (f : α → β) (ops : List (Operation α)) (id : String) :
    (ops.map (map f)).findRev? (·.touches id) = (ops.findRev? (·.touches id)).map (map f) := by
  rw [List.findRev?_eq_find?_reverse, List.findRev?_eq_find?_reverse, ← List.map_reverse,
    List.find?_map]
  simp only [Function.comp_def, touches_map]

/-- Nothing that comes before everything is removed matters. -/
theorem applyAll_removeAll (m : SortedMap α) (before after : List (Operation α)) :
    applyAll m (before ++ [.removeAll] ++ after) = applyAll ∅ after := by
  rw [applyAll_append, applyAll_append]
  rfl

end Operation

namespace TracedStore

theorem get?_reconciled (s : Store) (ops : List StoreOperation) (id : String) :
    (reconciled s ops).value.get? id =
      (ops.findRev? (·.touches id)).elim ((s.get? id).map .kept) fun op => op.left?.map .fresh := by
  rw [value_reconciled, Operation.get?_applyAll_eq_last, Operation.findRev?_touches_map,
    SortedMap.get?_map]
  cases ops.findRev? (·.touches id) with
  | none => rfl
  | some op => exact Operation.left?_map Traced.fresh op

/--
The last operation that touches a name leaves its own value there or nothing, and without such an
operation what was there stays. The values may be of any kind, and so also records that are told
apart although they are equal. In a store what stays is kept, and what an operation leaves is fresh.
Hence nothing that comes before everything is removed matters, and a batch can be applied in parts.
-/
theorem last_operation_decides :
    (∀ (α : Type) (m : SortedMap α) (ops : List (Operation α)) (id : String),
      (Operation.applyAll m ops).get? id =
        (ops.findRev? (·.touches id)).elim (m.get? id) Operation.left?) ∧
      (∀ (s : Store) (ops : List StoreOperation) (id : String),
        (reconciled s ops).value.get? id =
          (ops.findRev? (·.touches id)).elim ((s.get? id).map .kept)
            fun op => op.left?.map .fresh) ∧
      ∀ (s : Store) (before after : List StoreOperation),
        (reconciled s (before ++ [.removeAll] ++ after)).store = (reconciled ∅ after).store ∧
          (reconciled s (before ++ after)).store =
            (reconciled (reconciled s before).store after).store := by
  refine ⟨fun _ => Operation.get?_applyAll_eq_last, get?_reconciled, fun s before after => ?_⟩
  simp only [store_reconciled]
  constructor
  · exact Operation.applyAll_removeAll s before after
  · exact Operation.applyAll_append s before after

end TracedStore

end ThreadCache
