import Mathlib.Data.List.Nodup
import ThreadCache.Proofs.Store.Identity
import ThreadCache.Proofs.Store.Independence
import ThreadCache.Proofs.Store.Unread

/-!
# No operation is idle

Whoever stores and shows the threads does so operation by operation, so an operation that changes
nothing is work for nothing.

## Main result

`operations_effective`: each operation of a batch of events changes the store that it comes to, and
a thread that no event changes is not named by any; and the operations that make threads unread name
each thread once, and only threads that were read.

## Proof strategy

An event puts threads that are not there as they are, each once and in the order of their names, or
it removes one thread that is there (`Store.Change`, `Folding.step_change`). From this alone it
follows that each of its operations changes something when its turn comes, and that there is
something else in the end under each name that one of them touches. Both are carried from one event
to a whole batch. Messages and activity put threads that are not there as they are, too.
-/

namespace ThreadCache

namespace Operation

variable {α : Type}

/-- Each operation of the batch changes what those before it lead to. -/
def Effective (m : SortedMap α) : List (Operation α) → Prop
  | [] => True
  | op :: ops => op.apply m ≠ m ∧ Effective (op.apply m) ops

theorem effective_append {m : SortedMap α} {ops ops' : List (Operation α)} :
    Effective m (ops ++ ops') ↔ Effective m ops ∧ Effective (applyAll m ops) ops' := by
  induction ops generalizing m with
  | nil => simp [Effective]
  | cons op ops ih => rw [List.cons_append, Effective, Effective, ih, applyAll_cons, and_assoc]

theorem Effective.changes {m : SortedMap α} {before after : List (Operation α)}
    {op : Operation α} (effective : Effective m (before ++ op :: after)) :
    op.apply (applyAll m before) ≠ applyAll m before :=
  (effective_append.mp effective).2.1

theorem touches_put {thread : Thread} {id : String} :
    (put thread).touches id ↔ thread.id = id := decide_eq_true_iff

end Operation

/-! ### Changes of a store -/

namespace Store

variable {s : Store}

/-- Threads that are named once each, in the order of their names, and not there as they are. -/
structure News (s : Store) (threads : List Thread) : Prop where
  ascending : threads.Pairwise fun t u => t.id < u.id
  differ : ∀ t ∈ threads, s.get? t.id ≠ some t

/-- The operations that one event may have. -/
inductive Change (s : Store) : List StoreOperation → Prop
  | puts {threads : List Thread} (news : s.News threads) : Change s (threads.map .put)
  | removal {id : String} {thread : Thread} (there : s.get? id = some thread) :
      Change s [.remove [id]]

namespace News

variable {threads : List Thread}

theorem nil : s.News [] := ⟨.nil, List.forall_mem_nil _⟩

theorem single {thread : Thread} (differs : s.get? thread.id ≠ some thread) : s.News [thread] :=
  ⟨List.pairwise_singleton _ _, List.forall_mem_singleton.mpr differs⟩

theorem effective (news : s.News threads) : Operation.Effective s (threads.map .put) := by
  induction threads generalizing s with
  | nil => trivial
  | cons t threads ih =>
    obtain ⟨ascending, differ⟩ := news
    rw [List.pairwise_cons] at ascending
    have first : (Operation.apply s (.put t)).get? t.id = some t := by
      rw [Operation.get?_apply]
      exact if_pos rfl
    refine ⟨fun same => differ t List.mem_cons_self (same ▸ first), ih ⟨ascending.2, ?_⟩⟩
    -- The first thread does not get in the way of the others, which go by other names.
    intro u member
    have other : t.id ≠ u.id := fun name => String.lt_irrefl u.id (name ▸ ascending.1 u member)
    rw [Operation.get?_apply, Operation.act_of_untouched (by rwa [Operation.touches_put])]
    exact differ u (List.mem_cons_of_mem _ member)

theorem get?_puts (news : s.News threads) {thread : Thread} (member : thread ∈ threads) :
    (Operation.applyAll s (threads.map .put)).get? thread.id = some thread := by
  have distinct : (threads.map (·.id)).Nodup := by
    refine List.pairwise_map.mpr (news.ascending.imp ?_)
    intro t u before name
    exact String.lt_irrefl u.id (name ▸ before)
  have entry : (thread.id, thread) ∈ threads.map fun t => (t.id, t) :=
    List.mem_map.mpr ⟨thread, member, rfl⟩
  rw [Operation.applyAll_puts]
  refine SortedMap.get?_insertMany_of_unique entry ?_ s
  rintro entry among name
  obtain ⟨t, listed, rfl⟩ := List.mem_map.mp among
  exact List.inj_on_of_nodup_map distinct listed member name

end News

namespace Change

variable {ops : List StoreOperation}

theorem nil : s.Change [] := .puts News.nil

theorem effective (change : s.Change ops) : Operation.Effective s ops := by
  cases change with
  | puts news => exact news.effective
  | @removal id thread there =>
    refine ⟨fun same => ?_, trivial⟩
    have gone : (Operation.apply s (.remove [id])).get? id = none := by
      rw [Operation.get?_apply]
      exact if_pos List.mem_cons_self
    rw [same, there] at gone
    cases gone

/-- Where one of the operations touches, there is something else in the end. -/
theorem moves (change : s.Change ops) {op : StoreOperation} (member : op ∈ ops) {id : String}
    (touched : op.touches id) : (Operation.applyAll s ops).get? id ≠ s.get? id := by
  cases change with
  | puts news =>
    obtain ⟨thread, listed, rfl⟩ := List.mem_map.mp member
    obtain rfl : thread.id = id := Operation.touches_put.mp touched
    rw [news.get?_puts listed]
    exact (news.differ thread listed).symm
  | @removal key thread there =>
    cases List.mem_singleton.mp member
    obtain rfl : id = key := by simpa [Operation.touches] using touched
    rw [there, Operation.get?_applyAll]
    change (if id ∈ [id] then none else _) ≠ _
    rw [if_pos List.mem_cons_self]
    exact (Option.some_ne_none thread).symm

/-- All in all nothing changes only if there is no operation. -/
theorem eq_nil_iff (change : s.Change ops) : ops = [] ↔ Operation.applyAll s ops = s := by
  constructor
  · rintro rfl
    rfl
  · intro same
    have idle (op : StoreOperation) (id : String) (member : op ∈ ops) : ¬ op.touches id :=
      fun touched => change.moves member touched (congrArg (SortedMap.get? · id) same)
    -- There is no operation that touches nothing.
    cases change with
    | @puts threads news =>
      cases threads with
      | nil => rfl
      | cons t threads =>
        exact absurd (Operation.touches_put.mpr rfl) (idle (.put t) t.id List.mem_cons_self)
    | @removal id thread there =>
      exact absurd (by simp [Operation.touches]) (idle (.remove [id]) id List.mem_cons_self)

end Change

theorem WellKeyed.values_ascending (keyed : s.WellKeyed) :
    s.values.Pairwise fun t u => t.id < u.id := by
  refine List.pairwise_map.mpr (s.ascending.imp_of_mem fun {a b} one other before => ?_)
  rw [keyed a.1 a.2 (SortedMap.get?_eq_some_iff.mpr one),
    keyed b.1 b.2 (SortedMap.get?_eq_some_iff.mpr other)]
  exact before

end Store

/-! ### One event -/

theorem Thread.dropMember_ne {t : Thread} {user : String} (member : t.hasMember user = true) :
    t.dropMember user ≠ t := by
  intro same
  have left : (t.dropMember user).hasMember user = false := by simp [hasMember, dropMember]
  rw [same, member] at left
  cases left

theorem Thread.withUnread_ne {t : Thread} {unread : Bool} (differs : t.unread ≠ unread) :
    t.withUnread unread ≠ t :=
  fun same => differs (congrArg Thread.unread same).symm

namespace Folding

variable {w : Working}

theorem write_change (w : Working) (thread : Thread) :
    (plain w).Change (write w thread).operations := by
  unfold write
  split
  · exact .nil
  next differs =>
    rw [← SortedMap.get?_map] at differs
    exact .puts (.single differs)

theorem mark_change (keyed : (plain w).WellKeyed) (id : String) (unread : Bool) :
    (plain w).Change (mark w id unread).operations := by
  unfold mark
  split
  · exact .nil
  next held found =>
    split
    · exact .nil
    next differs =>
      have there := get?_plain found
      have news : (plain w).News [held.value.withUnread unread] := by
        refine .single ?_
        change (plain w).get? held.value.id ≠ _
        rw [keyed id held.value there, there]
        exact fun same => Thread.withUnread_ne differs (Option.some.inj same).symm
      exact .puts news

theorem delete_change (w : Working) (id : String) :
    (plain w).Change (delete w id).operations := by
  unfold delete
  split
  next known =>
    obtain ⟨held, found⟩ := Option.isSome_iff_exists.mp known
    exact .removal (get?_plain found)
  · exact .nil

theorem expel_change (keyed : (plain w).WellKeyed) (user : String) :
    (plain w).Change (expel w user).operations := by
  refine .puts ⟨?_, fun thread member => ?_⟩
  · rw [shrunk_eq]
    -- A thread keeps its name when it loses a member.
    refine keyed.values_ascending.filterMap _ fun t u before t' lost u' lost' => ?_
    rw [(Thread.withoutMember?_eq_some lost).2, (Thread.withoutMember?_eq_some lost').2]
    exact before
  · obtain ⟨id, held, found, lost⟩ := mem_shrunk_iff.mp member
    obtain ⟨has, rfl⟩ := Thread.withoutMember?_eq_some lost
    change (plain w).get? held.id ≠ _
    rw [keyed id held found, found]
    exact fun same => Thread.dropMember_ne has (Option.some.inj same).symm

/-- Whatever the event, it puts threads that are not there as they are or removes one that is. -/
theorem step_change (keyed : (plain w).WellKeyed) (event : UpdateEvent) :
    (plain w).Change (step w event).operations := by
  cases event with
  | updateThread _ _ thread => exact write_change w thread
  | joinThread _ _ thread => exact write_change w thread
  | updateReadStatus _ _ id unread => exact mark_change keyed id unread
  | deleteThread _ _ id => exact delete_change w id
  | deleteAccount _ _ user => exact expel_change keyed user
  | unhandled => exact .nil

/-! ### A batch of events -/

theorem run_effective (keyed : (plain w).WellKeyed) (events : List UpdateEvent) :
    Operation.Effective (plain w) (run w events).operations := by
  induction events generalizing w with
  | nil => trivial
  | cons event events ih =>
    have others := ih (step_wellKeyed keyed event)
    rw [step_plain w keyed event] at others
    exact Operation.effective_append.mpr ⟨(step_change keyed event).effective, others⟩

/-- No event of the batch changes, when its turn comes, what is under a name. -/
def Unmoved (w : Working) (events : List UpdateEvent) (id : String) : Prop :=
  ∀ passed event, passed ++ [event] <+: events →
    (run w (passed ++ [event])).store.get? id = (run w passed).store.get? id

theorem untouched_of_unmoved (keyed : (plain w).WellKeyed) {events : List UpdateEvent}
    {id : String} (unmoved : Unmoved w events id) :
    ∀ op ∈ (run w events).operations, ¬ op.touches id := by
  induction events generalizing w with
  | nil => exact fun _ member => nomatch member
  | cons event events ih =>
    have still : (plain (step w event).threads).get? id = (plain w).get? id :=
      unmoved [] event (List.cons_prefix_cons.mpr ⟨rfl, List.nil_prefix⟩)
    have others : Unmoved (step w event).threads events id := fun passed next earlier =>
      unmoved (event :: passed) next (List.cons_prefix_cons.mpr ⟨rfl, earlier⟩)
    intro op member touched
    rcases List.mem_append.mp member with first | later
    · rw [step_plain w keyed event] at still
      exact (step_change keyed event).moves first touched still
    · exact ih (step_wellKeyed keyed event) others op later touched

theorem unmoved_of_untouched (keyed : (plain w).WellKeyed) {events : List UpdateEvent}
    {id : String} (untouched : ∀ op ∈ (run w events).operations, ¬ op.touches id) :
    Unmoved w events id := by
  have still {passed : List UpdateEvent} (earlier : passed <+: events) :
      (run w passed).store.get? id = (plain w).get? id := by
    obtain ⟨later, rfl⟩ := earlier
    change (plain (run w passed).threads).get? id = _
    rw [run_plain keyed, Operation.get?_applyAll]
    refine Operation.foldl_act_of_untouched (fun op member => untouched op ?_) _
    rw [run_append]
    exact List.mem_append_left _ member
  intro passed event earlier
  rw [still earlier, still ((List.prefix_append passed [event]).trans earlier)]

end Folding

/-- The action tells of messages or of activity. -/
def Action.Alerts : Action → Prop
  | .saveMessages .. => True
  | .updateActivity _ => True
  | _ => False

theorem Action.Alerts.reconciles {a : Action} (alerts : a.Alerts) : a.Reconciles := by
  rintro store rfl
  exact alerts.elim

namespace Store

variable {s : Store}

/-- The marks of a fold are those of the store that its operations lead to. -/
theorem fold_threads (keyed : s.WellKeyed) (events : List UpdateEvent) :
    (s.fold events).threads = (TracedStore.reconciled s (s.fold events).operations).value := by
  rw [TracedStore.value_reconciled]
  exact Folding.run_threads (by rwa [plain_kept]) events

/-! ### Threads that become unread -/

/-- The names that an alert goes by, each once and in their order. -/
theorem names_of_alerts {a : Action} (alerts : a.Alerts) :
    ∃ names : List String, names.Pairwise (· < ·) ∧ (∀ id, id ∈ names ↔ a.Raises id) ∧
      ∀ d s, reduce d s a = .ofOperations s ((names.filterMap s.raised?).map .put) [] := by
  cases a with
  | saveMessages messages currentAsOf =>
    refine ⟨recent messages currentAsOf, ?_, fun id => mem_recent_iff, fun _ s => ?_⟩
    · exact List.pairwise_map.mpr ((latestTimes messages).ascending.filter _)
    · exact saveMessages_eq s messages currentAsOf
  | updateActivity ids =>
    refine ⟨(SortedMap.ofList (ids.map fun id => (id, ()))).keys, ?_, fun id => mem_distinct_iff,
      fun _ _ => rfl⟩
    exact List.pairwise_map.mpr (SortedMap.ascending _)
  | _ => exact alerts.elim

/-- An alert marks the threads that it raises and that were read, in the order of their names. -/
theorem operations_of_alerts (d : Diagnostics) (keyed : s.WellKeyed) {a : Action}
    (alerts : a.Alerts) :
    ∃ threads : List Thread, threads.Pairwise (fun t u => t.id < u.id) ∧
      (∀ t, t ∈ threads ↔ s.get? t.id = some t ∧ t.unread = false ∧ a.Raises t.id) ∧
      (s.reduce d a).operations = threads.map fun t => .put (t.withUnread true) := by
  obtain ⟨names, ascending, raises, reduced⟩ := names_of_alerts alerts
  have named {id : String} {t : Thread} (read : s.read? id = some t) : t.id = id :=
    keyed id t (read?_eq_some_iff.mp read).1
  refine ⟨names.filterMap s.read?, ?_, fun t => ?_, ?_⟩
  · refine ascending.filterMap _ fun id id' before t read t' read' => ?_
    rwa [named read, named read']
  · rw [List.mem_filterMap]
    constructor
    · rintro ⟨id, listed, read⟩
      obtain rfl : t.id = id := named read
      obtain ⟨held, unread⟩ := read?_eq_some_iff.mp read
      exact ⟨held, unread, (raises t.id).mp listed⟩
    · rintro ⟨held, unread, raised⟩
      exact ⟨t.id, (raises t.id).mpr raised, read?_eq_some_iff.mpr ⟨held, unread⟩⟩
  · rw [reduced, funext s.raised?_eq, ← List.map_filterMap]
    exact List.map_map

/-- To mark threads that were read is to change them. -/
theorem change_of_read {threads : List Thread}
    (ascending : threads.Pairwise fun t u => t.id < u.id)
    (read : ∀ t ∈ threads, s.get? t.id = some t ∧ t.unread = false) :
    s.Change (threads.map fun t => .put (t.withUnread true)) := by
  have news : s.News (threads.map (·.withUnread true)) := by
    refine ⟨List.pairwise_map.mpr ascending, List.forall_mem_map.mpr fun t member => ?_⟩
    obtain ⟨held, unread⟩ := read t member
    change s.get? t.id ≠ _
    rw [held]
    refine fun same => Thread.withUnread_ne ?_ (Option.some.inj same).symm
    rw [unread]
    exact Bool.false_ne_true
  have change := Change.puts news
  rw [List.map_map] at change
  exact change

/--
Each operation of a batch of events changes the store that the ones before it lead to. A name that
none of them touches is one under which no event changes anything when its turn comes, and the
record there is the one from before. Messages and activity mark the threads that they raise and that
were read, each once and in the order of their names; they mark none only if the store stays as it
is.
-/
theorem operations_effective (keyed : s.WellKeyed) :
    (∀ events : List UpdateEvent,
      let ops := (s.fold events).operations
      (∀ before op after, ops = before ++ op :: after →
        let reached := (TracedStore.reconciled s before).store
        (TracedStore.reconciled reached [op]).store ≠ reached) ∧
      ∀ id,
        ((∀ passed event, passed ++ [event] <+: events →
          (s.fold (passed ++ [event])).store.get? id = (s.fold passed).store.get? id) ↔
            ∀ op ∈ ops, ¬ op.touches id) ∧
        ((∀ op ∈ ops, ¬ op.touches id) → ∀ thread, s.get? id = some thread →
          (s.fold events).threads.get? id = some (.kept thread) ∧
            (TracedStore.reconciled s ops).value.get? id = some (.kept thread))) ∧
    ∀ (d : Diagnostics) (a : Action), a.Alerts →
      let r := s.reduce d a
      (∃ threads : List Thread, r.operations = threads.map (fun t => .put (t.withUnread true)) ∧
        threads.Pairwise (fun t u => t.id < u.id) ∧
        ∀ t, t ∈ threads ↔ s.get? t.id = some t ∧ t.unread = false ∧ a.Raises t.id) ∧
      (r.operations = [] ↔ r.store = s) := by
  refine ⟨fun events => ?_, fun d a alerts => ?_⟩
  · intro ops
    have plain : (Folding.plain (s.map .kept)).WellKeyed := by rwa [plain_kept]
    refine ⟨fun before op after parts => ?_, fun id => ⟨⟨?_, ?_⟩, fun untouched thread held => ?_⟩⟩
    · have effective := Folding.run_effective plain events
      rw [plain_kept] at effective
      simp only [TracedStore.store_reconciled]
      exact (parts ▸ effective : Operation.Effective s (before ++ op :: after)).changes
    · exact Folding.untouched_of_unmoved plain
    · exact Folding.unmoved_of_untouched plain
    · have kept := TracedStore.kept_iff.mpr ⟨held, untouched⟩
      exact ⟨fold_threads keyed events ▸ kept, kept⟩
  · intro r
    obtain ⟨threads, ascending, marked, operations⟩ := operations_of_alerts d keyed alerts
    have change : s.Change r.operations := by
      refine operations ▸ change_of_read ascending fun t member => ?_
      obtain ⟨held, unread, _⟩ := (marked t).mp member
      exact ⟨held, unread⟩
    have store : r.store = Operation.applyAll s r.operations := reduce_store d s alerts.reconciles
    rw [store]
    exact ⟨⟨threads, operations, ascending, marked⟩, change.eq_nil_iff⟩

/--
A thread is told what it is already, marked twice, and loses a member twice, beside one that nobody
speaks of. Then there is activity in both, which is told twice, and an old message.
-/
theorem operations_effective_repeated :
    let thread : Thread := { Thread.new "t" 3 0 with members := [.new "a" none, .new "b" none] }
    let quiet : Thread := .new "q" 3 0
    let s : Store := .ofThreads [thread, quiet]
    let d : Diagnostics := ⟨[], [], .standard, 0⟩
    let events : List UpdateEvent :=
      [.updateThread "1" 1 thread, .updateReadStatus "2" 2 "t" true,
        .updateReadStatus "3" 3 "t" true, .deleteAccount "4" 4 "a", .deleteAccount "5" 5 "a",
        .deleteThread "6" 6 "x"]
    let marked := thread.withUnread true
    let reached := (TracedStore.reconciled s [.put marked]).store
    let activity : Action := .updateActivity ["t", "q", "x", "t"]
    let message : Action := .saveMessages [⟨none, "q", 2⟩] 3
    s.WellKeyed ∧
      (s.fold events).operations = [.put marked] ++ .put (marked.dropMember "a") :: [] ∧
      (TracedStore.reconciled reached [.put (marked.dropMember "a")]).store ≠ reached ∧
      (∀ op ∈ (s.fold events).operations, ¬ op.touches "q") ∧
      (∀ passed event, passed ++ [event] <+: events →
        (s.fold (passed ++ [event])).store.get? "q" = (s.fold passed).store.get? "q") ∧
      (s.fold events).threads.get? "q" = some (.kept quiet) ∧
      activity.Alerts ∧ message.Alerts ∧
      (∃ threads : List Thread, (s.reduce d activity).operations =
          threads.map (fun t => .put (t.withUnread true)) ∧
        threads.Pairwise (fun t u => t.id < u.id) ∧ quiet ∈ threads ∧ thread ∈ threads) ∧
      (s.reduce d message).operations = [] := by
  intro thread quiet s d events marked reached activity message
  obtain ⟨batches, alerts⟩ := operations_effective (s := s) (ofThreads_wellKeyed _)
  obtain ⟨effective, each⟩ := batches events
  have parts : (s.fold events).operations =
      [.put marked] ++ .put (marked.dropMember "a") :: [] := by decide +kernel
  have untouched : ∀ op ∈ (s.fold events).operations, ¬ op.touches "q" := by decide +kernel
  obtain ⟨unmoved, kept⟩ := each "q"
  obtain ⟨⟨threads, operations, ascending, mem⟩, _⟩ := alerts d activity trivial
  obtain ⟨_, idle⟩ := alerts d message trivial
  refine ⟨ofThreads_wellKeyed _, parts, effective _ _ _ parts, untouched, unmoved.mpr untouched,
    (kept untouched quiet (by decide +kernel)).1, trivial, trivial, ?_, ?_⟩
  · exact ⟨threads, operations, ascending, (mem quiet).mpr (by decide +kernel),
      (mem thread).mpr (by decide +kernel)⟩
  · exact idle.mpr (by decide +kernel)

end Store

end ThreadCache
