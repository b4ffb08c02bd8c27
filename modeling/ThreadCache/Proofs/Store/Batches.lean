import ThreadCache.Proofs.Store.Effects

/-!
# Batches of update events

A batch is folded over all the threads at once. What it makes of one thread can be read off the
events alone, and so can what it makes of a thread that has been through the batch before.

## Main results

* `fold_by_thread`: the fold leaves under a name what the events leave there one after the other,
  and batches that have for each thread the same events in the same order end alike.
* `redelivered`: a batch that starts with the events of the one before it makes up for that one.

## Proof strategy

The first result reads the fold name by name (`get?_fold`); an event that does not concern a thread
can be left out of its reading. For the second one, an effect that comes again later need not have
come before (`Effect.on_again`), whatever came between. So the effects of the first batch can be
taken away one by one, each because of its second coming.
-/

namespace ThreadCache

/-! ### Events at one name -/

namespace UpdateEvent

/-- What an event does to what is held under a name. -/
def on (id : String) (held : Option Thread) : UpdateEvent → Option Thread
  | .updateThread _ _ thread => if thread.id = id then some thread else held
  | .joinThread _ _ thread => if thread.id = id then some thread else held
  | .updateReadStatus _ _ threadID unread =>
    if threadID = id then held.map (·.withUnread unread) else held
  | .deleteThread _ _ threadID => if threadID = id then none else held
  | .deleteAccount _ _ userID => held.map (·.dropMember userID)
  | .unhandled => held

/-- The event is about the thread of a name; the end of an account is about every thread. -/
def concerns (id : String) : UpdateEvent → Bool
  | .updateThread _ _ thread => thread.id = id
  | .joinThread _ _ thread => thread.id = id
  | .updateReadStatus _ _ threadID _ => threadID = id
  | .deleteThread _ _ threadID => threadID = id
  | .deleteAccount .. => true
  | .unhandled => false

theorem on_eq_effects (event : UpdateEvent) (id : String) (held : Option Thread) :
    event.on id held = event.effects.foldl (Effect.on id) held := by
  cases event <;> rfl

theorem foldl_on_eq_effects (events : List UpdateEvent) (id : String) (held : Option Thread) :
    events.foldl (on id) held = (events.flatMap (·.effects)).foldl (Effect.on id) held := by
  induction events generalizing held with
  | nil => rfl
  | cons event events ih =>
    rw [List.foldl_cons, ih, on_eq_effects, List.flatMap_cons, List.foldl_append]

theorem on_of_unconcerned {event : UpdateEvent} {id : String} (apart : ¬ event.concerns id)
    (held : Option Thread) : event.on id held = held := by
  cases event with
  | updateThread _ _ thread => exact if_neg (by simpa [concerns] using apart)
  | joinThread _ _ thread => exact if_neg (by simpa [concerns] using apart)
  | updateReadStatus _ _ key unread => exact if_neg (by simpa [concerns] using apart)
  | deleteThread _ _ key => exact if_neg (by simpa [concerns] using apart)
  | deleteAccount _ _ user => exact absurd rfl apart
  | unhandled => rfl

/-- What events leave under a name is up to those that concern it. -/
theorem foldl_on_filter (events : List UpdateEvent) (id : String) (held : Option Thread) :
    (events.filter (·.concerns id)).foldl (on id) held = events.foldl (on id) held := by
  induction events generalizing held with
  | nil => rfl
  | cons event events ih =>
    by_cases about : event.concerns id
    · rw [List.filter_cons_of_pos about, List.foldl_cons, List.foldl_cons, ih]
    · rw [List.filter_cons_of_neg about, ih, List.foldl_cons, on_of_unconcerned about]

end UpdateEvent

namespace Store

variable {s : Store}

theorem get?_fold_eq_foldl (keyed : s.WellKeyed) (events : List UpdateEvent) (id : String) :
    (s.fold events).store.get? id = events.foldl (UpdateEvent.on id) (s.get? id) := by
  rw [get?_fold keyed, UpdateEvent.foldl_on_eq_effects]

/--
A fold does to each thread what the events say of it, one after the other and without regard to
other threads. So batches, such as one and a reordering of it, end alike if for each thread they
have the same events that concern it in the same order.
-/
theorem fold_by_thread (keyed : s.WellKeyed) (events : List UpdateEvent) :
    (∀ id, (s.fold events).store.get? id = events.foldl (UpdateEvent.on id) (s.get? id)) ∧
      ∀ others : List UpdateEvent,
        (∀ id, events.filter (·.concerns id) = others.filter (·.concerns id)) →
          (s.fold events).store = (s.fold others).store := by
  have named := get?_fold_eq_foldl keyed
  refine ⟨named events, fun others same => SortedMap.ext fun id => ?_⟩
  -- At each name only the events that concern it count, and those are the same in both batches.
  calc (s.fold events).store.get? id
      = events.foldl (UpdateEvent.on id) (s.get? id) := named events id
    _ = (events.filter (·.concerns id)).foldl (UpdateEvent.on id) (s.get? id) :=
        (UpdateEvent.foldl_on_filter events id _).symm
    _ = (others.filter (·.concerns id)).foldl (UpdateEvent.on id) (s.get? id) := by rw [same id]
    _ = others.foldl (UpdateEvent.on id) (s.get? id) := UpdateEvent.foldl_on_filter others id _
    _ = (s.fold others).store.get? id := (named others id).symm

/-- Events about two threads are moved past each other, on either side of the end of an account. -/
theorem fold_by_thread_reordered :
    let one : Thread := { Thread.new "t" 3 0 with members := [.new "a" none, .new "b" none] }
    let s : Store := .ofThreads [one, .new "u" 3 0]
    let events : List UpdateEvent :=
      [.updateReadStatus "1" 1 "t" true, .deleteThread "2" 2 "u", .deleteAccount "3" 3 "a",
        .unhandled, .joinThread "4" 4 (.new "u" 5 1), .updateReadStatus "5" 5 "t" false]
    let others : List UpdateEvent :=
      [.deleteThread "2" 2 "u", .updateReadStatus "1" 1 "t" true, .deleteAccount "3" 3 "a",
        .updateReadStatus "5" 5 "t" false, .unhandled, .joinThread "4" 4 (.new "u" 5 1)]
    events.Perm others ∧
      (s.fold events).store.get? "t" = some { one with members := [.new "b" none] } ∧
      (∀ id, (s.fold events).store.get? id = events.foldl (UpdateEvent.on id) (s.get? id)) ∧
      (s.fold events).store = (s.fold others).store := by
  intro one s events others
  have keyed : s.WellKeyed := ofThreads_wellKeyed _
  have same (id : String) : events.filter (·.concerns id) = others.filter (·.concerns id) := by
    by_cases t : "t" = id
    · subst t; rfl
    · by_cases u : "u" = id
      · subst u; rfl
      · simp [events, others, UpdateEvent.concerns, Thread.new, t, u]
  obtain ⟨named, alike⟩ := fold_by_thread keyed events
  refine ⟨by decide +kernel, by decide +kernel, named, alike others same⟩

end Store

/-! ### Effects that come again -/

namespace Thread

theorem dropMember_twice (t : Thread) (user : String) :
    (t.dropMember user).dropMember user = t.dropMember user := by
  simp [dropMember]

theorem dropMember_again (t : Thread) (user other : String) :
    ((t.dropMember user).dropMember other).dropMember user =
      (t.dropMember other).dropMember user := by
  simp only [dropMember, List.filter_filter]
  congr 2
  grind

end Thread

namespace Effect

theorem map_twice (edit : Thread → Thread) (twice : ∀ t, edit (edit t) = edit t)
    (held : Option Thread) : (held.map edit).map edit = held.map edit := by
  cases held with
  | none => rfl
  | some t => exact congrArg some (twice t)

/-- An edit that makes up for itself across every other edit does so across every effect. -/
theorem map_on_map (edit : Thread → Thread) (twice : ∀ t, edit (edit t) = edit t)
    (expel : ∀ t user, edit ((edit t).dropMember user) = edit (t.dropMember user))
    (subscribe : ∀ t choice, edit ((edit t).withSubscription choice) =
      edit (t.withSubscription choice))
    (mark : ∀ t unread, edit ((edit t).withUnread unread) = edit (t.withUnread unread))
    (id : String) (held : Option Thread) (between : Effect) :
    (on id (held.map edit) between).map edit = (on id held between).map edit := by
  have idle := map_twice edit twice held
  -- A delivery or a deletion forgets what was held; on another thread the effect is idle.
  cases between with
  | deliver thread =>
    simp only [on]
    split
    · rfl
    · exact idle
  | withdraw key =>
    simp only [on]
    split
    · rfl
    · exact idle
  | withdrawAll => rfl
  | expel user =>
    cases held with
    | none => rfl
    | some t => exact congrArg some (expel t user)
  | subscribe key choice =>
    simp only [on]
    split
    · cases held with
      | none => rfl
      | some t => exact congrArg some (subscribe t choice)
    · exact idle
  | mark key unread =>
    simp only [on]
    split
    · cases held with
      | none => rfl
      | some t => exact congrArg some (mark t unread)
    · exact idle

/-- An effect that comes again later need not have come before. -/
theorem on_again (id : String) (held : Option Thread) (e between : Effect) :
    on id (on id (on id held e) between) e = on id (on id held between) e := by
  -- The second coming decides by itself, or it is idle both times, or it edits once more.
  cases e with
  | deliver thread => simp only [on]; split <;> rfl
  | withdraw key => simp only [on]; split <;> rfl
  | withdrawAll => rfl
  | expel user =>
    exact map_on_map (·.dropMember user) (fun t => t.dropMember_twice user)
      (fun t => t.dropMember_again user)
      (fun t choice => (t.withSubscription choice).dropMember_twice user)
      (fun t unread => (t.withUnread unread).dropMember_twice user) id held between
  | subscribe key choice =>
    simp only [on]
    split
    · exact map_on_map (·.withSubscription choice) (fun _ => rfl) (fun _ _ => rfl)
        (fun _ _ => rfl) (fun _ _ => rfl) id held between
    · rfl
  | mark key unread =>
    simp only [on]
    split
    · exact map_on_map (·.withUnread unread) (fun _ => rfl) (fun _ _ => rfl)
        (fun _ _ => rfl) (fun _ _ => rfl) id held between
    · rfl

theorem on_twice (id : String) (held : Option Thread) (e : Effect) :
    on id (on id held e) e = on id held e := by
  cases e with
  | deliver thread => simp only [on]; split <;> rfl
  | withdraw key => simp only [on]; split <;> rfl
  | withdrawAll => rfl
  | expel user => exact map_twice (·.dropMember user) (fun t => t.dropMember_twice user) held
  | subscribe key choice =>
    simp only [on]
    split
    · exact map_twice (·.withSubscription choice) (fun _ => rfl) held
    · rfl
  | mark key unread =>
    simp only [on]
    split
    · exact map_twice (·.withUnread unread) (fun _ => rfl) held
    · rfl

/-- The same with any effects in between. -/
theorem foldl_on_again (id : String) (held : Option Thread) (e : Effect) (between : List Effect) :
    on id (between.foldl (on id) (on id held e)) e = on id (between.foldl (on id) held) e := by
  -- The effect may as well come once more behind the first one in between, as it does at the end.
  induction between generalizing held with
  | nil => exact on_twice id held e
  | cons first between ih =>
    calc on id ((first :: between).foldl (on id) (on id held e)) e
        = on id (between.foldl (on id) (on id (on id (on id held e) first) e)) e := (ih _).symm
      _ = on id (between.foldl (on id) (on id (on id held first) e)) e := by rw [on_again]
      _ = on id ((first :: between).foldl (on id) held) e := ih _

/-- Effects that come again later, whatever came between, need not have come before. -/
theorem foldl_on_resent (id : String) (held : Option Thread) (effects between : List Effect) :
    (effects ++ between ++ effects).foldl (on id) held =
      (between ++ effects).foldl (on id) held := by
  -- The first effect of the early list is made up for by the first one of the late list.
  induction effects generalizing held between with
  | nil => rw [List.nil_append, List.append_nil]
  | cons e effects ih =>
    have moved := ih held (between ++ [e])
    simp only [List.foldl_append, List.foldl_cons, List.foldl_nil] at moved ⊢
    rw [← moved, ← List.foldl_append, ← List.foldl_append, foldl_on_again]

end Effect

namespace Store

variable {s : Store}

/-- A run that is taken up once more from its beginning ends as if it had not been begun before. -/
theorem reduceAll_resent (keyed : s.WellKeyed) {sent again : List (Diagnostics × Action)}
    (tidySent : ∀ step ∈ sent, step.2.Tidy) (tidyAgain : ∀ step ∈ again, step.2.Tidy)
    (rest : List Effect) (starts : again.flatMap (fun step => step.2.effects) =
      sent.flatMap (fun step => step.2.effects) ++ rest) :
    s.reduceAll (sent ++ again) = s.reduceAll again := by
  have tidy : ∀ step ∈ sent ++ again, step.2.Tidy := by
    intro step member
    rcases List.mem_append.mp member with early | late
    · exact tidySent step early
    · exact tidyAgain step late
  apply SortedMap.ext
  intro id
  rw [get?_reduceAll keyed tidy, get?_reduceAll keyed tidyAgain, List.flatMap_append, starts]
  -- The effects of what was sent stand twice, with nothing in between.
  have resent := Effect.foldl_on_resent id (s.get? id) (sent.flatMap fun step => step.2.effects) []
  rw [List.append_nil, List.nil_append, List.foldl_append] at resent
  rw [List.foldl_append, List.foldl_append, resent, ← List.foldl_append]

/-- How a batch of events comes: with an action of a kind, up to a time, before a reporter. -/
structure Carrier where
  kind : UpdatesKind
  currentAsOf : Int64
  diagnostics : Diagnostics

/-- The action of a carrier that carries events, with what a report of it would say. -/
def Carrier.carrying (c : Carrier) (events : List UpdateEvent) : Diagnostics × Action :=
  (c.diagnostics, .updates c.kind ⟨c.currentAsOf, events⟩)

theorem Carrier.tidy (c : Carrier) (events : List UpdateEvent) :
    ∀ step ∈ [c.carrying events], step.2.Tidy := by
  intro step member
  rw [List.mem_singleton.mp member]
  exact fun _ same => by cases same

/--
Events that are delivered twice are delivered once, even if they undo each other on the way. More
generally a batch that starts with the events of the one before it makes up for that one.
-/
theorem redelivered (keyed : s.WellKeyed) (earlier later : List UpdateEvent)
    (first second alone : Carrier) :
    s.reduceAll [first.carrying earlier, second.carrying earlier] =
        s.reduceAll [first.carrying earlier] ∧
      s.reduceAll [first.carrying earlier, second.carrying (earlier ++ later)] =
        s.reduceAll [alone.carrying (earlier ++ later)] := by
  have effects (c : Carrier) (events : List UpdateEvent) :
      [c.carrying events].flatMap (fun step => step.2.effects) = events.flatMap (·.effects) :=
    List.append_nil _
  constructor
  · refine reduceAll_resent keyed (first.tidy earlier) (second.tidy earlier) [] ?_
    rw [effects, effects, List.append_nil]
  -- How the events come makes no difference to what they do.
  · have same : s.reduceAll [second.carrying (earlier ++ later)] =
        s.reduceAll [alone.carrying (earlier ++ later)] := rfl
    refine (reduceAll_resent keyed (first.tidy earlier) (second.tidy (earlier ++ later))
      (later.flatMap (·.effects)) ?_).trans same
    rw [effects, effects, List.flatMap_append]

/-- Events that undo each other: a thread is deleted, joined anew, marked, and loses a member. -/
theorem redelivered_undone :
    let fresh : Thread := { Thread.new "t" 5 1 with members := [.new "a" none, .new "b" none] }
    let s : Store := .ofThreads [.new "t" 3 0, .new "u" 3 0]
    let earlier : List UpdateEvent :=
      [.deleteThread "1" 1 "t", .joinThread "2" 2 fresh, .updateReadStatus "3" 3 "t" true,
        .deleteAccount "4" 4 "a"]
    let later : List UpdateEvent := [.updateReadStatus "5" 5 "u" true]
    let first : Carrier := ⟨.joinThread, 4, [], [], .standard, 0⟩
    let second : Carrier := ⟨.incrementalSync, 5, [], [], .standard, 1⟩
    (s.reduceAll [first.carrying earlier]).get? "t" =
        some ({ fresh with members := [.new "b" none] }.withUnread true) ∧
      s.reduceAll [first.carrying earlier, second.carrying earlier] =
        s.reduceAll [first.carrying earlier] ∧
      s.reduceAll [first.carrying earlier, second.carrying (earlier ++ later)] =
        s.reduceAll [second.carrying (earlier ++ later)] := by
  intro fresh s earlier later first second
  refine ⟨by decide +kernel, ?_⟩
  exact redelivered (ofThreads_wellKeyed _) earlier later first second second

end Store

end ThreadCache
