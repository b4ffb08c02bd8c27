import ThreadCache.Proofs.Session.Failure
import ThreadCache.Proofs.Session.Turns
import ThreadCache.Proofs.Store.Effects

/-!
# The end of a session

The end of a session is to leave no thread behind, in memory or in the database. It empties a store
that has threads; an empty one is left alone, and the database with it.

## Main results

* `endsSession_clears`: after the end of a session the store is empty, and the table too unless a
  store that was put in place of the session's had hidden the rows.
* `endsSession_keeps_hidden_rows`: in that case the rows are still there.

## Proof strategy

A store with threads is cleared together with the table, whatever they were. For an empty store the
table must be empty to begin with, which it is if the session is in step with its database. An
adopted store breaks that, and the next snapshot mends it (`inStep_of_fullSync`), because it writes
the table anew. So the induction over the turns carries that the session is in step or has such a
snapshot ahead.
-/

namespace ThreadCache

open Cache (CacheError Database Outage Table)

namespace Action

def endsSession : Action → Bool
  | .endSession _ => true
  | .setNewSession change => change.cookieInvalidated
  | _ => false

/-- Among the actions, each that puts a store in place is followed by a snapshot. -/
def Settled (actions : List Action) : Prop :=
  ∀ before store after, actions = before ++ .setThreadStore store :: after →
    ∃ kind payload, .fullSync kind payload ∈ after

theorem Settled.tail {a : Action} {actions : List Action} (settled : Settled (a :: actions)) :
    Settled actions := by
  intro before store after parts
  exact settled (a :: before) store after (by rw [parts, List.cons_append])

end Action

theorem Store.reduce_of_endsSession {a : Action} (ends : a.endsSession) (d : Diagnostics)
    (s : Store) : s.reduce d a = s.clear := by
  -- The invalidated session is the only kind that is not one by its constructor.
  cases a with
  | endSession kind => rfl
  | setNewSession change =>
    simp only [Action.endsSession] at ends
    simp only [reduce, ends, if_true]
  | _ => cases ends

namespace Session

/-! ### Batches that are written -/

/-- Writing anything takes an open database. -/
theorem isOpen_of_written {s : Session} {db : Database} (held : s.database = some db) {now : Int64}
    {outage : Outage} {action : Action} {r : Reduction}
    (done : (s.dispatch now outage action).result = .ok r) (filled : r.operations ≠ []) :
    db.isOpen := by
  obtain ⟨rfl, _⟩ := dispatch_eq_ok done
  by_contra closed
  have failed : (s.dispatch now outage action).result = .error .unavailable :=
    (dispatch_of_failing held filled (.inl (Bool.eq_false_iff.mpr closed))).1
  rw [done] at failed
  cases failed

/-- A store with threads is cleared together with the table, whatever the table held. -/
theorem clear_of_filled {s : Session} {db : Database} (held : s.database = some db)
    (filled : s.store ≠ ∅) {now : Int64} {outage : Outage} {action : Action}
    (ends : action.endsSession) {r : Reduction}
    (done : (s.dispatch now outage action).result = .ok r) :
    db.isOpen ∧ (s.dispatch now outage action).session.database =
      some { db with table := ∅ } := by
  obtain ⟨same, after⟩ := dispatch_eq_ok done
  have operations : r.operations = [.removeAll] := by
    rw [same, reduction, Store.reduce_of_endsSession ends, Store.clear]
    exact if_neg fun empty => filled (SortedMap.isEmpty_iff.mp empty)
  refine ⟨isOpen_of_written held done (by simp [operations]), ?_⟩
  rw [after, held, operations]
  rfl

/-- An empty store is left alone together with the database. -/
theorem idle_of_empty {s : Session} (empty : s.store = ∅) {now : Int64} {outage : Outage}
    {action : Action} (ends : action.endsSession) {r : Reduction}
    (done : (s.dispatch now outage action).result = .ok r) :
    (s.dispatch now outage action).session.database = s.database := by
  obtain ⟨same, after⟩ := dispatch_eq_ok done
  have operations : r.operations = [] := by
    rw [same, reduction, Store.reduce_of_endsSession ends, Store.clear]
    exact if_pos (SortedMap.isEmpty_iff.mpr empty)
  rw [after, operations]
  cases s.database <;> rfl

theorem store_of_endsSession (s : Session) {now : Int64} {outage : Outage} {action : Action}
    (ends : action.endsSession) {r : Reduction}
    (done : (s.dispatch now outage action).result = .ok r) :
    (s.dispatch now outage action).session.store = ∅ := by
  obtain ⟨same, after⟩ := dispatch_eq_ok done
  rw [after, same, reduction, Store.reduce_of_endsSession ends]
  exact SortedMap.ext fun id => Store.get?_clear s.store id

/-! ### Back in step -/

/-- A snapshot that is written puts a session in step with its database, whatever they held. -/
theorem inStep_of_fullSync {s : Session} {db : Database} (held : s.database = some db)
    {now : Int64} {outage : Outage} {kind : FullSyncKind} {payload : FullSync} {r : Reduction}
    (done : (s.dispatch now outage (.fullSync kind payload)).result = .ok r) :
    (s.dispatch now outage (.fullSync kind payload)).session.InStep := by
  obtain ⟨same, after⟩ := dispatch_eq_ok done
  have operations : r.operations = .removeAll :: payload.threads.values.map .put := by
    rw [same]
    rfl
  have isOpen := isOpen_of_written held done (by simp [operations])
  -- Both start over from nothing, and take the same threads from there.
  have blank : ({ db with table := ∅ } : Database).load = .ok ∅ :=
    Database.load_eq_ok_iff.mpr ⟨isOpen, rfl⟩
  have own := Operation.ownNamed_puts payload.threads.values
  have store : r.store = Operation.applyAll ∅ (payload.threads.values.map .put) := by
    rw [same]
    exact Reduction.store_ofOperations s.store (.removeAll :: payload.threads.values.map .put) _
  have written := Database.load_after blank Store.empty_wellKeyed own
  have loads : (db.after (.removeAll :: payload.threads.values.map .put)).load =
      .ok (Operation.applyAll ∅ (payload.threads.values.map .put)) := written
  rw [after, held, operations, store]
  exact ⟨⟨_, rfl, loads⟩, Operation.applyAll_wellKeyed Store.empty_wellKeyed own⟩

/-- A session with a database keeps one. -/
theorem database_after {s : Session} (turn : Turn) (held : ∃ db, s.database = some db) :
    ∃ db, (s.after turn).database = some db := by
  obtain ⟨db, held⟩ := held
  unfold after
  rcases s.dispatch_cases turn.now turn.outage turn.action with ⟨_, _, next⟩ | ⟨_, next⟩
  · rw [next, forgetting_database, recorded_database]
    exact ⟨db, held⟩
  · rw [next, held]
    exact ⟨_, rfl⟩

/-- Turns that settle what they adopt lead from a session that is in step to one that is. -/
theorem inStep_of_settled {s : Session} {turns : List Turn}
    (undisturbed : (s.play turns).failure = none)
    (settled : Action.Settled (turns.map (·.action)))
    (held : ∃ db, s.database = some db)
    (ready : s.InStep ∨ ∃ kind payload, .fullSync kind payload ∈ turns.map (·.action)) :
    (s.play turns).session.InStep := by
  induction turns generalizing s with
  | nil =>
    rcases ready with inStep | ⟨_, _, member⟩
    · exact inStep
    · cases member
  | cons turn turns ih =>
    obtain ⟨r, done, later⟩ := play_cons_undisturbed undisturbed
    rw [play_cons_ok turn done]
    refine ih later settled.tail (database_after turn held) ?_
    -- The session is in step after this turn, or a snapshot is still ahead.
    rcases turn.action.reconciles_or_adopts with through | ⟨store, adopts⟩
    · rcases ready with inStep | ⟨kind, payload, member⟩
      · exact .inl (inStep.dispatch turn.now turn.outage through)
      · rcases List.mem_cons.mp member with here | ahead
        · obtain ⟨db, held⟩ := held
          obtain ⟨now, outage, action⟩ := turn
          cases here
          exact .inl (inStep_of_fullSync held done)
        · exact .inr ⟨kind, payload, ahead⟩
    · exact .inr (settled [] store _ (by rw [List.map_cons, adopts]; rfl))

/-! ### Ending -/

/--
After the end of a session the store is empty. The table is empty too, and every session that
restores from it has no threads, if there were threads in the store or every store that had been put
in its place was followed by a snapshot. An empty store, as in the remaining case, is left alone
together with the database.
-/
theorem endsSession_clears {s : Session} (start : s.InStep) {turns : List Turn}
    (undisturbed : (s.play turns).failure = none) {now : Int64} {outage : Outage} {action : Action}
    (ends : action.endsSession) {r : Reduction}
    (done : ((s.play turns).session.dispatch now outage action).result = .ok r) :
    let before := (s.play turns).session
    let after := (before.dispatch now outage action).session
    after.store = ∅ ∧
      (before.store ≠ ∅ ∨ Action.Settled (turns.map (·.action)) →
        ∃ db, after.database = some db ∧ db.table = ∅ ∧
          ∀ t : Session, t.database = some db → t.restore = .ok { t with store := ∅ }) ∧
      (before.store = ∅ → after.database = before.database) := by
  intro before after
  refine ⟨store_of_endsSession before ends done, ?_, fun empty => idle_of_empty empty ends done⟩
  -- An open database without rows restores as an empty store.
  have restores (db : Database) (isOpen : db.isOpen) (blank : db.table = ∅) (t : Session)
      (held : t.database = some db) : t.restore = .ok { t with store := ∅ } := by
    have loads : db.load = .ok ∅ := Database.load_eq_ok_iff.mpr ⟨isOpen, by rw [blank]; rfl⟩
    rw [restore_of_database held, loads]
    rfl
  intro visible
  obtain ⟨db, held, _⟩ := start.loads
  by_cases empty : before.store = ∅
  · have settled := visible.resolve_left fun filled => filled empty
    have inStep := inStep_of_settled undisturbed settled ⟨db, held⟩ (.inl start)
    obtain ⟨db', held', loads⟩ := inStep.loads
    obtain ⟨isOpen, read⟩ := Database.load_eq_ok_iff.mp loads
    have blank : db'.table = ∅ := Table.eq_empty_of_load (by rw [read]; exact congrArg _ empty)
    exact ⟨db', (idle_of_empty empty ends done).trans held', blank, restores db' isOpen blank⟩
  · have keeps : ∀ turn ∈ turns, ∀ t : Session, (∃ db, t.database = some db) →
        ∃ db, (t.after turn).database = some db := fun turn _ _ => database_after turn
    obtain ⟨db', held'⟩ := play_keeps keeps ⟨db, held⟩
    obtain ⟨isOpen, cleared⟩ := clear_of_filled held' empty ends done
    exact ⟨_, cleared, rfl, restores _ isOpen rfl⟩

/-- The rows of a thread that was joined go, although the store was another one in the meantime. -/
theorem endsSession_clears_adopted :
    let s := Session.new .standard (some .fresh)
    let join : Action := .updates .joinThread ⟨1, [.joinThread "e" 1 (.new "t" 3 0)]⟩
    let turns : List Turn :=
      [⟨0, .none, join⟩, ⟨1, .none, .setThreadStore (.ofThreads [.new "u" 3 0])⟩]
    let before := (s.play turns).session
    let after := (before.dispatch 2 .none (.setNewSession ⟨true, none⟩)).session
    (before.database.map fun db => db.table.rows.map (·.id)) = some ["t"] ∧
      after.store = ∅ ∧
      ∃ db, after.database = some db ∧ db.table = ∅ ∧
        ∀ t : Session, t.database = some db → t.restore = .ok { t with store := ∅ } := by
  intro s join turns before after
  have start : s.InStep := inStep_new .standard rfl rfl
  have undisturbed : (s.play turns).failure = none := rfl
  have filled : before.store ≠ ∅ := by decide +kernel
  have done : (before.dispatch 2 .none (.setNewSession ⟨true, none⟩)).result = .ok _ := rfl
  obtain ⟨store, cleared, _⟩ := endsSession_clears start undisturbed rfl done
  exact ⟨by decide +kernel, store, cleared (.inl filled)⟩

/--
An empty store is put in place of one with a thread, and the log-out that comes next writes
nothing: the thread is still in the table, and a restore brings it back.
-/
theorem endsSession_keeps_hidden_rows :
    let s := Session.new .standard (some .fresh)
    let join : Action := .updates .joinThread ⟨1, [.joinThread "e" 1 (.new "t" 3 0)]⟩
    let turns : List Turn := [⟨0, .none, join⟩, ⟨1, .none, .setThreadStore ∅⟩]
    let ended := (s.play turns).session.dispatch 2 .none (.endSession .logOut)
    s.InStep ∧ (s.play turns).failure = none ∧ (∃ r, ended.result = .ok r) ∧
      ended.session.store = ∅ ∧
      (ended.session.database.map fun db => db.table.rows.map (·.id)) = some ["t"] ∧
      (ended.session.restore.toOption.map fun restored => restored.store.keys) = some ["t"] := by
  intro s join turns ended
  refine ⟨inStep_new .standard rfl rfl, rfl, ⟨_, rfl⟩, by decide +kernel, by decide +kernel, ?_⟩
  decide +kernel

end Session

end ThreadCache
