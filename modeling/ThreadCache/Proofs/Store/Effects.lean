import ThreadCache.Proofs.Reduction

/-!
# What actions say of a thread

An action is read as a list of effects: deliveries of records, deletions, and edits of what is
there. The effects of an action do not depend on the store, and each is read at one name without
looking at the others.

## Main result

`get?_reduce`: what the store holds under a name after an action is the outcome of the action's
effects, one after the other, on what it held there before.

## Proof strategy

The reduction skips whatever would change nothing, looks threads up under one name and writes them
under another, and groups messages by thread before it decides. On a store that keeps every thread
under its own name each of these comes to the same as taking the effects in order, which is shown
for every kind of event and of action by itself.
-/

namespace ThreadCache

/-- What an action does to the threads, apart from any store. -/
inductive Effect
  | deliver (thread : Thread)
  | withdraw (id : String)
  | withdrawAll
  | expel (user : String)
  | subscribe (id : String) (subscription : Subscription)
  | mark (id : String) (unread : Bool)
  deriving DecidableEq

/-- What an effect does to what is held under a name. -/
def Effect.on (id : String) (held : Option Thread) : Effect → Option Thread
  | .deliver thread => if thread.id = id then some thread else held
  | .withdraw key => if key = id then none else held
  | .withdrawAll => none
  | .expel user => held.map (·.dropMember user)
  | .subscribe key subscription =>
    if key = id then held.map (·.withSubscription subscription) else held
  | .mark key unread => if key = id then held.map (·.withUnread unread) else held

/-- The effect of an event; an event of a kind not known here has none. -/
def UpdateEvent.effects : UpdateEvent → List Effect
  | .updateThread _ _ thread => [.deliver thread]
  | .joinThread _ _ thread => [.deliver thread]
  | .updateReadStatus _ _ threadID unread => [.mark threadID unread]
  | .deleteThread _ _ threadID => [.withdraw threadID]
  | .deleteAccount _ _ userID => [.expel userID]
  | .unhandled => []

/-- The effects of a correction: the threads that the server sent, and then its deletions. -/
def StateChanges.effects (changes : StateChanges) : List Effect :=
  (changes.threads.getD []).map .deliver ++ (changes.deleteIDs.getD []).map .withdraw

def Action.effects : Action → List Effect
  | .fullSync _ payload => .withdrawAll :: payload.threads.values.map .deliver
  | .endSession _ => [.withdrawAll]
  | .setNewSession change => if change.cookieInvalidated then [.withdrawAll] else []
  | .updates _ result => result.events.flatMap (·.effects)
  | .updateSubscription threadID subscription => [.subscribe threadID subscription]
  | .saveMessages messages currentAsOf =>
    (messages.filter fun m => currentAsOf ≤ m.time).map fun m => .mark m.threadID true
  | .processServerRequests requests =>
    ((ServerRequest.stateChanges? requests).map (·.effects)).getD []
  | .updateActivity unfocusedToUnread => unfocusedToUnread.map fun id => .mark id true
  | .startUnreadStatus threadID unread => [.mark threadID unread]
  | .confirmUnreadStatus threadID reset => if reset then [.mark threadID true] else []
  | .setThreadStore store => .withdrawAll :: store.values.map .deliver
  | .unrecognized => []

namespace Effect

/-! ### Lists of effects of one kind -/

theorem foldl_deliver (threads : List Thread) (id : String) (held : Option Thread) :
    (threads.map deliver).foldl (on id) held =
      (threads.map Operation.put).foldl (Operation.act id) held := by
  rw [List.foldl_map, List.foldl_map]
  rfl

theorem foldl_withdraw (ids : List String) (id : String) (held : Option Thread) :
    (ids.map withdraw).foldl (on id) held = if id ∈ ids then none else held := by
  rw [List.foldl_map]
  exact Operation.view_foldl_drop (fun held => held) (fun _ _ => rfl) ids held

theorem foldl_raise (ids : List String) (id : String) (held : Option Thread) :
    (ids.map fun key => mark key true).foldl (on id) held =
      if id ∈ ids then held.map (·.withUnread true) else held := by
  have twice (t : Thread) : (t.withUnread true).withUnread true = t.withUnread true := rfl
  -- Raising twice is raising once, so a name that is listed again makes no difference.
  induction ids generalizing held with
  | nil => rfl
  | cons key ids ih =>
    rw [List.map_cons, List.foldl_cons, ih]
    by_cases later : id ∈ ids
    · by_cases same : key = id
      · simp [later, on, same, Function.comp_def, twice]
      · simp [later, on, same]
    · simp [later, on, eq_comm (a := key)]

/-! ### Edits that do nothing -/

/-- An edit of one thread does nothing if the thread is not there or has it already. -/
theorem edit_idle (held : String → Option Thread) {key : String} {edit : Thread → Thread}
    (same : (held key).map edit = held key) (id : String) :
    (if key = id then (held id).map edit else held id) = held id := by
  split
  next name => rw [← name, same]
  · rfl

end Effect

/-! ### Threads put under their own names -/

/-- Of threads that are put, those of a name decide what is under it, and they agree. -/
theorem Store.get?_puts (s : Store) {threads : List Thread} {id : String} {written : Option Thread}
    (puts : ∀ t, t ∈ threads ∧ t.id = id ↔ written = some t) :
    (s.insertMany (threads.map fun t => (t.id, t))).get? id = written.or (s.get? id) := by
  cases written with
  | none =>
    refine SortedMap.get?_insertMany_of_absent ?_ s
    rintro entry member name
    obtain ⟨t, listed, rfl⟩ := List.mem_map.mp member
    cases (puts t).mp ⟨listed, name⟩
  | some t =>
    obtain ⟨listed, name⟩ := (puts t).mpr rfl
    refine SortedMap.get?_insertMany_of_unique ?_ ?_ s
    · exact List.mem_map.mpr ⟨t, listed, Prod.ext name rfl⟩
    · rintro entry member same
      obtain ⟨other, among, rfl⟩ := List.mem_map.mp member
      exact (Option.some.inj ((puts other).mp ⟨among, same⟩)).symm

/-! ### Events -/

namespace Thread

theorem withUnread_eq_self {t : Thread} {unread : Bool} (same : t.unread = unread) :
    t.withUnread unread = t := by
  subst same
  rfl

theorem withoutMember?_eq_some {t shrunk : Thread} {user : String}
    (found : t.withoutMember? user = some shrunk) :
    t.hasMember user = true ∧ shrunk = t.dropMember user := by
  unfold withoutMember? at found
  split at found
  next member => exact ⟨member, (Option.some.inj found).symm⟩
  · cases found

end Thread

namespace Folding

variable {w : Working}

theorem get?_write (w : Working) (thread : Thread) (id : String) :
    (plain (write w thread).threads).get? id =
      (Effect.deliver thread).on id ((plain w).get? id) := by
  unfold write
  split
  next same =>
    -- The record that is already there is delivered once more.
    have held : (plain w).get? thread.id = some thread := by rwa [plain, SortedMap.get?_map]
    simp only [idle, Effect.on]
    split
    next name => rw [← name, held]
    · rfl
  · rw [plain_insert_fresh, SortedMap.get?_insert]
    rfl

theorem get?_mark (w : Working) (key : String) (unread : Bool) (id : String) :
    (plain (mark w key unread).threads).get? id =
      (Effect.mark key unread).on id ((plain w).get? id) := by
  unfold mark
  split
  next absent =>
    have none : (plain w).get? key = none := by rw [plain, SortedMap.get?_map, absent]; rfl
    exact (Effect.edit_idle (plain w).get? (by rw [none]; rfl) id).symm
  -- The thread under the name of the event is written back under that name.
  next held found =>
    have found := get?_plain found
    split
    next same =>
      refine (Effect.edit_idle (plain w).get? ?_ id).symm
      rw [found, Option.map_some, Thread.withUnread_eq_self same]
    · simp only [Effect.on]
      rw [plain_insert_fresh, SortedMap.get?_insert]
      split
      next name => rw [← name, found]; rfl
      · rfl

theorem get?_delete (w : Working) (key id : String) :
    (plain (delete w key).threads).get? id =
      (Effect.withdraw key).on id ((plain w).get? id) := by
  unfold delete
  split
  · change ((w.erase key).map Traced.value).get? id = _
    rw [SortedMap.map_erase, SortedMap.get?_erase]
    rfl
  -- What is not there is not deleted, and deleting it would do nothing.
  next absent =>
    have none : (plain w).get? key = none := by
      rw [plain, SortedMap.get?_map]
      simpa [SortedMap.contains] using absent
    simp only [idle, Effect.on]
    split
    next name => rw [← name, none]
    · rfl

/-- Which threads lose a member does not depend on the marks. -/
theorem shrunk_eq (w : Working) (user : String) :
    shrunk w user = (plain w).values.filterMap (·.withoutMember? user) := by
  simp only [shrunk, plain, SortedMap.map, SortedMap.values, List.map_map, List.filterMap_map]
  rfl

theorem mem_shrunk_iff {user : String} {thread : Thread} :
    thread ∈ shrunk w user ↔
      ∃ id held, (plain w).get? id = some held ∧ held.withoutMember? user = some thread := by
  rw [shrunk_eq, List.mem_filterMap]
  simp only [SortedMap.mem_values_iff]
  constructor
  · rintro ⟨held, ⟨id, found⟩, lost⟩
    exact ⟨id, held, found, lost⟩
  · rintro ⟨id, held, found, lost⟩
    exact ⟨held, ⟨id, found⟩, lost⟩

theorem get?_expel (keyed : (plain w).WellKeyed) (user id : String) :
    (plain (expel w user).threads).get? id = (Effect.expel user).on id ((plain w).get? id) := by
  have writes : plain (expel w user).threads =
      (plain w).insertMany ((shrunk w user).map fun t => (t.id, t)) := by
    rw [expel_threads, plain, Operation.plain_applyAll]
    exact Operation.applyAll_puts _ _
  -- A thread that lost the member and goes under the name came from that name.
  have puts : ∀ t, t ∈ shrunk w user ∧ t.id = id ↔
      ((plain w).get? id).bind (·.withoutMember? user) = some t := by
    intro t
    rw [mem_shrunk_iff, Option.bind_eq_some_iff]
    constructor
    · rintro ⟨⟨key, held, found, lost⟩, name⟩
      obtain ⟨_, shrink⟩ := Thread.withoutMember?_eq_some lost
      have same : key = id := by rw [← keyed key held found, ← name, shrink]; rfl
      subst same
      exact ⟨held, found, lost⟩
    · rintro ⟨held, found, lost⟩
      obtain ⟨_, shrink⟩ := Thread.withoutMember?_eq_some lost
      refine ⟨⟨id, held, found, lost⟩, ?_⟩
      rw [shrink]
      exact keyed id held found
  -- So only the thread under the name decides, which loses the member if it has it.
  rw [writes, Store.get?_puts _ puts]
  cases (plain w).get? id with
  | none => rfl
  | some held =>
    cases has : held.hasMember user with
    | false =>
      have stays : held.withoutMember? user = none := by simp [Thread.withoutMember?, has]
      rw [Option.bind_some, stays, Effect.on, Option.map_some, Thread.dropMember_eq_self has]
      rfl
    | true =>
      have lost : held.withoutMember? user = some (held.dropMember user) := by
        rw [Thread.withoutMember?, if_pos has]
      rw [Option.bind_some, lost]
      rfl

/-- An event does to each name what its effect says. -/
theorem get?_step (keyed : (plain w).WellKeyed) (event : UpdateEvent) (id : String) :
    (plain (step w event).threads).get? id =
      event.effects.foldl (Effect.on id) ((plain w).get? id) := by
  cases event with
  | updateThread _ _ thread => exact get?_write w thread id
  | joinThread _ _ thread => exact get?_write w thread id
  | updateReadStatus _ _ key unread => exact get?_mark w key unread id
  | deleteThread _ _ key => exact get?_delete w key id
  | deleteAccount _ _ user => exact get?_expel keyed user id
  | unhandled => rfl

theorem get?_run (keyed : (plain w).WellKeyed) (events : List UpdateEvent) (id : String) :
    (plain (run w events).threads).get? id =
      (events.flatMap (·.effects)).foldl (Effect.on id) ((plain w).get? id) := by
  -- The invariant is that of the fold: the working threads go by their own names.
  induction events generalizing w with
  | nil => rfl
  | cons event events ih =>
    rw [List.flatMap_cons, List.foldl_append, ← get?_step keyed event id]
    exact ih (step_wellKeyed keyed event)

end Folding

/-- Events do to each name what their effects say, in their order. -/
theorem Store.get?_fold {s : Store} (keyed : s.WellKeyed) (events : List UpdateEvent)
    (id : String) :
    (s.fold events).store.get? id =
      (events.flatMap (·.effects)).foldl (Effect.on id) (s.get? id) := by
  have named := Folding.get?_run (w := s.map .kept) (by rwa [plain_kept]) events id
  rwa [plain_kept] at named

namespace Store

variable {s : Store}

/-! ### Threads that become unread -/

/-- The thread under a name, if there is one and it has been read. -/
def read? (s : Store) (id : String) : Option Thread := (s.get? id).filter fun t => !t.unread

theorem read?_eq_some_iff {id : String} {thread : Thread} :
    s.read? id = some thread ↔ s.get? id = some thread ∧ thread.unread = false := by
  rw [read?, Option.filter_eq_some_iff, Bool.not_eq_true']

theorem raised?_eq (s : Store) (id : String) :
    s.raised? id = (s.read? id).map (·.withUnread true) := by
  unfold raised? read?
  cases s.get? id with
  | none => rfl
  | some thread => cases unread : thread.unread <;> simp [Option.filter, unread]

theorem raised?_eq_some (keyed : s.WellKeyed) {id : String} {thread : Thread}
    (raised : s.raised? id = some thread) :
    thread.id = id ∧ (s.get? id).map (·.withUnread true) = some thread := by
  rw [raised?_eq, Option.map_eq_some_iff] at raised
  obtain ⟨held, read, rfl⟩ := raised
  obtain ⟨found, _⟩ := read?_eq_some_iff.mp read
  exact ⟨keyed id held found, by rw [found]; rfl⟩

theorem raised?_eq_none {id : String} (kept : s.raised? id = none) :
    (s.get? id).map (·.withUnread true) = s.get? id := by
  cases found : s.get? id with
  | none => rfl
  | some held =>
    have unread : held.unread = true := by
      simpa [raised?_eq, read?, found, Option.filter] using kept
    rw [Option.map_some, Thread.withUnread_eq_self unread]

/-- Raising the threads under some names marks those names as unread. -/
theorem get?_raised (keyed : s.WellKeyed) (ids : List String) (id : String) :
    (Operation.applyAll s ((ids.filterMap s.raised?).map .put)).get? id =
      if id ∈ ids then (s.get? id).map (·.withUnread true) else s.get? id := by
  -- What is put under a name has been raised from that name.
  have puts : ∀ t, t ∈ ids.filterMap s.raised? ∧ t.id = id ↔
      (if id ∈ ids then s.raised? id else none) = some t := by
    intro t
    constructor
    · rintro ⟨member, name⟩
      obtain ⟨key, listed, raised⟩ := List.mem_filterMap.mp member
      have same : key = id := (raised?_eq_some keyed raised).1.symm.trans name
      subst same
      rw [if_pos listed]
      exact raised
    · intro raised
      split at raised
      next listed =>
        exact ⟨List.mem_filterMap.mpr ⟨id, listed, raised⟩, (raised?_eq_some keyed raised).1⟩
      · cases raised
  rw [Operation.applyAll_puts, get?_puts s puts]
  split
  · -- A thread that is unread already, or that is not there, is not put and need not be.
    cases raised : s.raised? id with
    | none => rw [Option.none_or, raised?_eq_none raised]
    | some thread => rw [Option.some_or, (raised?_eq_some keyed raised).2]
  · rw [Option.none_or]

/-- Putting names in their order drops repetitions and no name. -/
theorem mem_distinct_iff {ids : List String} {id : String} :
    id ∈ (SortedMap.ofList (ids.map fun id => (id, ()))).keys ↔ id ∈ ids := by
  rw [SortedMap.mem_keys_iff]
  by_cases listed : id ∈ ids
  · have entry : (id, ()) ∈ ids.map fun id => (id, ()) := List.mem_map.mpr ⟨id, listed, rfl⟩
    have found := SortedMap.get?_insertMany_of_unique entry (fun _ _ _ => rfl) SortedMap.empty
    exact iff_of_true ⟨(), found⟩ listed
  · refine iff_of_false ?_ listed
    rintro ⟨_, found⟩
    rw [SortedMap.ofList, SortedMap.get?_insertMany_of_absent] at found
    · cases found
    · rintro entry member name
      obtain ⟨key, mem, rfl⟩ := List.mem_map.mp member
      exact listed (name ▸ mem)

theorem get?_raise (keyed : s.WellKeyed) (ids : List String) (id : String) :
    (s.raise ids).store.get? id =
      (ids.map fun key => Effect.mark key true).foldl (Effect.on id) (s.get? id) := by
  rw [raise, Reduction.store_ofOperations, get?_raised keyed, Effect.foldl_raise]
  simp only [mem_distinct_iff]

def collect (times : SortedMap Int64) (message : MessageInfo) : SortedMap Int64 :=
  let time := match times.get? message.threadID with
    | none => message.time
    | some earlier => if earlier ≤ message.time then message.time else earlier
  times.insert message.threadID time

theorem latestTimes_eq (messages : List MessageInfo) :
    latestTimes messages = messages.foldl collect ∅ := rfl

theorem le_collect_iff (times : SortedMap Int64) (message : MessageInfo) (bound : Int64)
    (id : String) :
    (∃ time, (collect times message).get? id = some time ∧ bound ≤ time) ↔
      (∃ time, times.get? id = some time ∧ bound ≤ time) ∨
        (message.threadID = id ∧ bound ≤ message.time) := by
  rw [collect, SortedMap.get?_insert]
  by_cases same : message.threadID = id
  · subst same
    cases found : times.get? message.threadID with
    | none => simp
    | some earlier =>
      -- The later of the two times is late enough exactly when one of them is.
      simp only [if_true, Option.some.injEq, exists_eq_left', true_and, Int64.le_iff_toInt_le]
      split <;> omega
  · simp [same]

/-- The latest time of a thread is late enough exactly when one of its messages is. -/
theorem le_latestTimes_iff (messages : List MessageInfo) (bound : Int64) (id : String) :
    (∃ time, (latestTimes messages).get? id = some time ∧ bound ≤ time) ↔
      ∃ m ∈ messages, m.threadID = id ∧ bound ≤ m.time := by
  -- The times collected so far count like messages that came before.
  have collected (times : SortedMap Int64) :
      (∃ time, (messages.foldl collect times).get? id = some time ∧ bound ≤ time) ↔
        (∃ time, times.get? id = some time ∧ bound ≤ time) ∨
          ∃ m ∈ messages, m.threadID = id ∧ bound ≤ m.time := by
    induction messages generalizing times with
    | nil => simp
    | cons m messages ih =>
      rw [List.foldl_cons, ih, le_collect_iff]
      simp only [List.mem_cons, exists_eq_or_imp, or_assoc]
  rw [latestTimes_eq, collected]
  simp

/-- The threads with a message that is not older than the state of the updates, each once. -/
def recent (messages : List MessageInfo) (currentAsOf : Int64) : List String :=
  ((latestTimes messages).entries.filter fun entry => currentAsOf ≤ entry.2).map (·.1)

theorem mem_recent_iff {messages : List MessageInfo} {currentAsOf : Int64} {id : String} :
    id ∈ recent messages currentAsOf ↔
      ∃ m ∈ messages, m.threadID = id ∧ currentAsOf ≤ m.time := by
  have latest := le_latestTimes_iff messages currentAsOf id
  simp only [SortedMap.get?_eq_some_iff] at latest
  simp only [recent, List.mem_map, List.mem_filter, decide_eq_true_eq, Prod.exists,
    exists_and_right, exists_eq_right]
  exact latest

theorem saveMessages_eq (s : Store) (messages : List MessageInfo) (currentAsOf : Int64) :
    s.saveMessages messages currentAsOf =
      .ofOperations s (((recent messages currentAsOf).filterMap s.raised?).map .put) [] := by
  rw [recent, List.filterMap_map, List.filterMap_filter]
  simp only [decide_eq_true_eq, Function.comp_def]
  rfl

theorem get?_saveMessages (keyed : s.WellKeyed) (messages : List MessageInfo)
    (currentAsOf : Int64) (id : String) :
    (s.saveMessages messages currentAsOf).store.get? id =
      ((messages.filter fun m => currentAsOf ≤ m.time).map fun m =>
        Effect.mark m.threadID true).foldl (Effect.on id) (s.get? id) := by
  -- The times are compared thread by thread here, and message by message in the effects.
  have marks : ((messages.filter fun m => currentAsOf ≤ m.time).map fun m =>
      Effect.mark m.threadID true) =
        ((messages.filter fun m => currentAsOf ≤ m.time).map (·.threadID)).map
          fun key => Effect.mark key true := by
    rw [List.map_map]
    rfl
  have names : id ∈ recent messages currentAsOf ↔
      id ∈ (messages.filter fun m => currentAsOf ≤ m.time).map (·.threadID) := by
    simp only [mem_recent_iff, List.mem_map, List.mem_filter, decide_eq_true_eq]
    constructor
    · rintro ⟨m, member, name, late⟩
      exact ⟨m, ⟨member, late⟩, name⟩
    · rintro ⟨m, ⟨member, late⟩, name⟩
      exact ⟨m, member, name, late⟩
  rw [saveMessages_eq, Reduction.store_ofOperations, get?_raised keyed, marks,
    Effect.foldl_raise]
  simp only [names]

/-! ### Policies about one thread -/

theorem get?_eq_none_of_isEmpty (empty : s.isEmpty = true) (id : String) : s.get? id = none := by
  have none : s.entries = [] := List.isEmpty_iff.mp empty
  rw [SortedMap.get?, none]
  rfl

/-- Putting an edited thread back edits what is held under its name. -/
theorem get?_put_edited (keyed : s.WellKeyed) {key : String} {thread : Thread}
    (found : s.get? key = some thread) (edit : Thread → Thread)
    (same : (edit thread).id = thread.id) (id : String) :
    (Operation.applyAll s [.put (edit thread)]).get? id =
      if key = id then (s.get? id).map edit else s.get? id := by
  -- The edited thread goes under its own name, which is the name it was found under.
  rw [Operation.get?_applyAll, List.foldl_cons, List.foldl_nil]
  change (if (edit thread).id = id then _ else _) = _
  rw [same, keyed key thread found]
  split
  next name => rw [← name, found]; rfl
  · rfl

theorem get?_clear (s : Store) (id : String) : s.clear.store.get? id = none := by
  rw [clear, Reduction.store_ofOperations]
  -- An empty store is left alone; it holds nothing under any name to begin with.
  split
  next empty => exact get?_eq_none_of_isEmpty empty id
  · rfl

theorem get?_fullSync (s : Store) (payload : FullSync) (id : String) :
    (s.fullSync payload).store.get? id =
      (payload.threads.values.map Effect.deliver).foldl (Effect.on id) none := by
  rw [fullSync, Reduction.store_ofOperations, Operation.applyAll_cons, Operation.get?_applyAll,
    Effect.foldl_deliver]
  rfl

theorem get?_subscribe (keyed : s.WellKeyed) (key : String) (subscription : Subscription)
    (id : String) :
    (s.subscribe key subscription).store.get? id =
      (Effect.subscribe key subscription).on id (s.get? id) := by
  unfold subscribe
  -- A choice for a thread that is not there is not kept anywhere.
  split
  next absent =>
    rw [Reduction.store_unchanged]
    exact (Effect.edit_idle s.get? (by rw [absent]; rfl) id).symm
  next thread found =>
    rw [Reduction.store_ofOperations]
    exact get?_put_edited keyed found (·.withSubscription subscription) rfl id

theorem get?_startUnreadStatus (keyed : s.WellKeyed) (key : String) (unread : Bool)
    (id : String) :
    (s.startUnreadStatus key unread).store.get? id =
      (Effect.mark key unread).on id (s.get? id) := by
  unfold startUnreadStatus
  split
  next absent =>
    rw [Reduction.store_unchanged]
    exact (Effect.edit_idle s.get? (by rw [absent]; rfl) id).symm
  next thread found =>
    rw [Reduction.store_ofOperations]
    exact get?_put_edited keyed found (·.withUnread unread) rfl id

theorem get?_confirmUnreadStatus (keyed : s.WellKeyed) (key : String) (reset : Bool)
    (id : String) :
    (s.confirmUnreadStatus key reset).store.get? id =
      (if reset then [Effect.mark key true] else []).foldl (Effect.on id) (s.get? id) := by
  unfold confirmUnreadStatus
  -- Only a reset has an effect, so without one the store must come through unchanged.
  cases reset with
  | false =>
    split
    · rw [Reduction.store_unchanged]; rfl
    · rw [if_neg (by simp), Reduction.store_unchanged]; rfl
  | true =>
    change _ = (Effect.mark key true).on id (s.get? id)
    split
    next absent =>
      rw [Reduction.store_unchanged]
      exact (Effect.edit_idle s.get? (by rw [absent]; rfl) id).symm
    next thread found =>
      split
      · rw [Reduction.store_ofOperations]
        exact get?_put_edited keyed found (·.withUnread true) rfl id
      next unread =>
        -- The thread is unread already, and marking it does nothing.
        have same : thread.withUnread true = thread :=
          Thread.withUnread_eq_self (by simpa using unread)
        rw [Reduction.store_unchanged]
        exact (Effect.edit_idle s.get? (by rw [found, Option.map_some, same]) id).symm

theorem foldl_correction (changes : StateChanges) (id : String) (held : Option Thread) :
    (correction changes).foldl (Operation.act id) held =
      changes.effects.foldl (Effect.on id) held := by
  -- Deliveries come before deletions on both sides.
  rw [correction, StateChanges.effects, List.foldl_append, List.foldl_append,
    Effect.foldl_deliver, Effect.foldl_withdraw]
  cases changes.deleteIDs with
  | none => simp
  | some ids => rfl

theorem get?_correct (d : Diagnostics) (s : Store) (action : Action)
    (requests : List ServerRequest) (id : String) :
    (s.correct d action requests).store.get? id =
      (((ServerRequest.stateChanges? requests).map (·.effects)).getD []).foldl (Effect.on id)
        (s.get? id) := by
  rw [(correct_outcome d s action requests).2, Operation.get?_applyAll, corrections]
  cases ServerRequest.stateChanges? requests with
  | none => rfl
  | some changes => exact foldl_correction changes id (s.get? id)

/-- Delivering the threads of a store in their order gives the store. -/
theorem foldl_values {store : Store} (keyed : store.WellKeyed) (id : String) :
    (store.values.map Effect.deliver).foldl (Effect.on id) none = store.get? id := by
  have own : store.values.map (fun t => (t.id, t)) = store.entries := by
    rw [SortedMap.values, List.map_map]
    refine (List.map_congr_left ?_).trans (List.map_id _)
    rintro ⟨key, thread⟩ member
    exact Prod.ext (keyed key thread (SortedMap.get?_eq_some_iff.mpr member)) rfl
  have whole : Operation.applyAll ∅ (store.values.map .put) = store := by
    rw [Operation.applyAll_puts, own]
    exact SortedMap.ofList_entries store
  rw [Effect.foldl_deliver]
  exact (Operation.get?_applyAll ∅ _ id).symm.trans (congrArg (·.get? id) whole)

/-! ### All actions -/

/-- An action does to each name what its effects say, in their order. -/
theorem get?_reduce (d : Diagnostics) (keyed : s.WellKeyed) {a : Action} (tidy : a.Tidy)
    (id : String) :
    (s.reduce d a).store.get? id = a.effects.foldl (Effect.on id) (s.get? id) := by
  cases a with
  | fullSync _ payload => exact get?_fullSync s payload id
  | endSession _ => exact get?_clear s id
  | setNewSession change =>
    simp only [reduce, Action.effects]
    split
    · exact get?_clear s id
    · exact congrArg (·.get? id) (Reduction.store_unchanged s [])
  | updates _ result =>
    change (s.update result.events).store.get? id = _
    rw [update, Reduction.store_ofOperations, ← fold_store keyed]
    exact get?_fold keyed result.events id
  | updateSubscription key subscription => exact get?_subscribe keyed key subscription id
  | saveMessages messages currentAsOf => exact get?_saveMessages keyed messages currentAsOf id
  | processServerRequests requests => exact get?_correct d s _ requests id
  | updateActivity ids => exact get?_raise keyed ids id
  | startUnreadStatus key unread => exact get?_startUnreadStatus keyed key unread id
  | confirmUnreadStatus key reset => exact get?_confirmUnreadStatus keyed key reset id
  | setThreadStore store =>
    rw [reduce_setThreadStore]
    exact (foldl_values (tidy store rfl) id).symm
  | unrecognized => exact congrArg (·.get? id) (Reduction.store_unchanged s [])

/-- A run does to each name what the effects of its actions say, in their order. -/
theorem get?_reduceAll (keyed : s.WellKeyed) {steps : List (Diagnostics × Action)}
    (tidy : ∀ step ∈ steps, step.2.Tidy) (id : String) :
    (s.reduceAll steps).get? id =
      (steps.flatMap fun step => step.2.effects).foldl (Effect.on id) (s.get? id) := by
  -- A tidy action leaves every thread under its own name, as the next action needs it.
  induction steps generalizing s with
  | nil => rfl
  | cons step steps ih =>
    have first : step.2.Tidy := tidy step List.mem_cons_self
    rw [List.flatMap_cons, List.foldl_append, ← get?_reduce step.1 keyed first]
    exact ih (reduce_wellKeyed step.1 keyed first) fun other member =>
      tidy other (List.mem_cons_of_mem _ member)

end Store

end ThreadCache
