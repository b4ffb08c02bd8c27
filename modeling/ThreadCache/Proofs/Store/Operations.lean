import ThreadCache.Store.Reconciliation

/-!
# Operations, name by name

An operation acts on each name by itself, so a batch is read at one name without looking at the
others.

## Main results

`get?_applyAll`: what a batch leaves under a name is the outcome of its operations on what was held
there. `applyAll_wellKeyed`: a batch whose records all go under their own names keeps every record
under its own name.
-/

namespace ThreadCache

namespace Operation

variable {α β : Type}

/-! ### One name -/

/-- What an operation does to what is held under a name. -/
def act (id : String) (held : Option α) : Operation α → Option α
  | .replace key value => if key = id then some value else held
  | .remove ids => if id ∈ ids then none else held
  | .removeAll => none

/-- Dropping names one after the other drops the listed ones, whatever they are dropped from. -/
theorem view_foldl_drop (view : β → Option α) {drop : β → String → β} {id : String}
    (drops : ∀ held key, view (drop held key) = if key = id then none else view held)
    (ids : List String) (held : β) :
    view (ids.foldl drop held) = if id ∈ ids then none else view held := by
  induction ids generalizing held with
  | nil => rfl
  | cons key ids ih =>
    rw [List.foldl_cons, ih, drops]
    -- A name that comes again is dropped then; otherwise only the first one can be it.
    by_cases later : id ∈ ids
    · simp [later]
    · simp [later, eq_comm (a := key)]

theorem get?_foldl_erase (m : SortedMap α) (ids : List String) (id : String) :
    (ids.foldl SortedMap.erase m).get? id = if id ∈ ids then none else m.get? id :=
  view_foldl_drop (·.get? id) (fun m key => SortedMap.get?_erase m key id) ids m

theorem get?_apply (m : SortedMap α) (op : Operation α) (id : String) :
    (op.apply m).get? id = op.act id (m.get? id) := by
  cases op with
  | replace key value => exact SortedMap.get?_insert m key value id
  | remove ids => exact get?_foldl_erase m ids id
  | removeAll => rfl

/-- A batch is read at one name without looking at the others. -/
theorem get?_applyAll (m : SortedMap α) (ops : List (Operation α)) (id : String) :
    (applyAll m ops).get? id = ops.foldl (act id) (m.get? id) := by
  induction ops generalizing m with
  | nil => rfl
  | cons op ops ih => rw [applyAll_cons, ih, get?_apply, List.foldl_cons]

/-! ### Operations under a function -/

theorem act_map (f : α → β) (op : Operation α) (id : String) (held : Option α) :
    (op.map f).act id (held.map f) = (op.act id held).map f := by
  cases op with
  | replace key value => simp only [map, act]; split <;> rfl
  | remove ids => simp only [map, act]; split <;> rfl
  | removeAll => rfl

theorem map_map (f : α → β) (g : β → γ) (op : Operation α) :
    (op.map f).map g = op.map (g ∘ f) := by
  cases op <;> rfl

theorem map_id (op : Operation α) : op.map id = op := by
  cases op <;> rfl

/-- Operations move values about without looking at them. -/
theorem map_applyAll (f : α → β) (m : SortedMap α) (ops : List (Operation α)) :
    (applyAll m ops).map f = applyAll (m.map f) (ops.map (map f)) := by
  apply SortedMap.ext
  intro id
  -- At one name only what is held there matters, so the induction is over the held value.
  rw [SortedMap.get?_map, get?_applyAll, get?_applyAll, SortedMap.get?_map]
  generalize m.get? id = held
  induction ops generalizing held with
  | nil => rfl
  | cons op ops ih => rw [List.map_cons, List.foldl_cons, List.foldl_cons, ih, ← act_map]

/-! ### Records under their own names -/

/-- Whatever the operation writes goes under the record's own name. -/
def OwnNamed : StoreOperation → Prop
  | .replace id thread => thread.id = id
  | _ => True

theorem ownNamed_put (thread : Thread) : (put thread).OwnNamed := rfl

theorem ownNamed_puts (threads : List Thread) : ∀ op ∈ threads.map put, op.OwnNamed := by
  intro op member
  obtain ⟨thread, _, rfl⟩ := List.mem_map.mp member
  exact ownNamed_put thread

theorem apply_wellKeyed {s : Store} {op : StoreOperation} (keyed : s.WellKeyed)
    (own : op.OwnNamed) : Store.WellKeyed (op.apply s) := by
  intro id thread found
  rw [get?_apply] at found
  -- What is there after the operation was put there under its own name, or was there before.
  cases op with
  | replace key value =>
    simp only [act] at found
    split at found
    next same =>
      cases found
      exact own.trans same
    · exact keyed id thread found
  | remove ids =>
    simp only [act] at found
    split at found
    · cases found
    · exact keyed id thread found
  | removeAll => cases found

theorem applyAll_wellKeyed {s : Store} {ops : List StoreOperation} (keyed : s.WellKeyed)
    (own : ∀ op ∈ ops, op.OwnNamed) : Store.WellKeyed (applyAll s ops) := by
  -- The store changes on the way, so the invariant is carried for whichever store comes next.
  induction ops generalizing s with
  | nil => exact keyed
  | cons op ops ih =>
    have first : Store.WellKeyed (op.apply s) :=
      apply_wellKeyed keyed (own op List.mem_cons_self)
    exact ih first fun o member => own o (List.mem_cons_of_mem _ member)

/-- Replacing values one after the other is inserting them. -/
theorem applyAll_replaces (m : SortedMap α) (entries : List (String × α)) :
    applyAll m (entries.map fun entry => .replace entry.1 entry.2) = m.insertMany entries := by
  induction entries generalizing m with
  | nil => rfl
  | cons entry entries ih => exact ih _

theorem applyAll_puts (m : Store) (threads : List Thread) :
    applyAll m (threads.map put) = m.insertMany (threads.map fun t => (t.id, t)) := by
  rw [← applyAll_replaces, List.map_map]
  rfl

end Operation

namespace Store

theorem empty_wellKeyed : WellKeyed ∅ := fun _ _ found => by cases found

theorem ofThreads_wellKeyed (threads : List Thread) : (ofThreads threads).WellKeyed := by
  have puts := Operation.applyAll_wellKeyed empty_wellKeyed (Operation.ownNamed_puts threads)
  rwa [Operation.applyAll_puts] at puts

end Store

/-! ### Marks -/

/-- Operations that write fresh values do what they do without marks. -/
theorem Operation.plain_applyAll (w : SortedMap (Traced Thread)) (ops : List StoreOperation) :
    (applyAll w (ops.map (·.map .fresh))).map Traced.value =
      applyAll (w.map Traced.value) ops := by
  have plain (o : StoreOperation) : (o.map Traced.fresh).map Traced.value = o := by
    rw [map_map]
    exact o.map_id
  rw [map_applyAll, List.map_map]
  simp only [Function.comp_def, plain, List.map_id']

namespace TracedStore

/-- The store of a reconciliation is the batch applied to the store it started from. -/
theorem store_reconciled (s : Store) (ops : List StoreOperation) :
    (reconciled s ops).store = Operation.applyAll s ops := by
  have unmarked : (s.map Traced.kept).map Traced.value = s :=
    SortedMap.map_map_eq_self (fun _ => rfl) s
  -- Without operations the store is marked as kept as a whole, so that case goes by itself.
  cases ops with
  | nil => exact unmarked
  | cons op ops => exact (Operation.plain_applyAll _ _).trans (by rw [unmarked])

theorem store_unchanged (s : Store) : (unchanged s).store = s :=
  SortedMap.map_map_eq_self (fun _ => rfl) s

theorem store_adopted (s : Store) : (adopted s).store = s :=
  SortedMap.map_map_eq_self (fun _ => rfl) s

end TracedStore

end ThreadCache
