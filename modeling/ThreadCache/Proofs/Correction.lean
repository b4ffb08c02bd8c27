import ThreadCache.Proofs.Reduction

/-!
# Corrections by the server

A state check may bring threads and deletions for whatever the client got wrong. What it brings
decides what the store holds afterwards, and a report tells of it if that is anything new.

## Main results

* `check_state_corrects`: what the first state check makes of the store, when it is reported, and
  that the corrections which lead to another store do lead there.

## Proof strategy

The threads are put one by one, so the last one of a name stays, and the deletions come after all of
them. A correction that leads to a store sends no thread but those of that store; so whatever it
sends under a name is what the store has there, and what it does not send was there before.
-/

namespace ThreadCache

/-- The last of the threads that go by a name. -/
def lastNamed? (id : String) (threads : List Thread) : Option Thread :=
  (threads.filter fun thread => thread.id = id).getLast?

theorem lastNamed?_cons (id : String) (thread : Thread) (threads : List Thread) :
    lastNamed? id (thread :: threads) =
      (lastNamed? id threads).or (if thread.id = id then some thread else none) := by
  unfold lastNamed?
  by_cases named : thread.id = id
  · rw [List.filter_cons_of_pos (by simpa using named), List.getLast?_cons, if_pos named]
    cases (threads.filter fun thread => thread.id = id).getLast? <;> rfl
  · rw [List.filter_cons_of_neg (by simpa using named), if_neg named, Option.or_none]

theorem mem_of_lastNamed? {id : String} {thread : Thread} {threads : List Thread}
    (last : lastNamed? id threads = some thread) : thread ∈ threads ∧ thread.id = id := by
  have member := List.mem_of_getLast? last
  rw [List.mem_filter] at member
  exact ⟨member.1, of_decide_eq_true member.2⟩

theorem lastNamed?_eq_none_iff {id : String} {threads : List Thread} :
    lastNamed? id threads = none ↔ ∀ thread ∈ threads, thread.id ≠ id := by
  rw [lastNamed?, List.getLast?_eq_none_iff, List.filter_eq_nil_iff]
  simp

namespace StateChanges

/-- The threads that are sent; a list that is missing is an empty one. -/
def sent (changes : StateChanges) : List Thread := changes.threads.getD []

def deleted (changes : StateChanges) : List String := changes.deleteIDs.getD []

/--
The changes lead from one store to another: they send threads of the other store only, and all those
that the one does not hold as they are, and they delete what the other store does not have.
-/
structure Lead (changes : StateChanges) (s t : Store) : Prop where
  sound : ∀ thread ∈ changes.sent, thread ∈ t.values
  complete : ∀ thread ∈ t.values, s.get? thread.id ≠ some thread → thread ∈ changes.sent
  withdraws : ∀ id ∈ s.keys, id ∉ t.keys → id ∈ changes.deleted
  spares : ∀ id ∈ changes.deleted, id ∉ t.keys

end StateChanges

/-- The requests before the first state check do not matter, and neither do those after it. -/
theorem ServerRequest.stateChanges?_of_first {skipped : List ServerRequest}
    (others : ∀ request ∈ skipped, request = .other) (hashes : SortedMap Int64)
    (changes : Option StateChanges) (later : List ServerRequest) :
    stateChanges? (skipped ++ .checkState hashes changes :: later) = changes := by
  induction skipped with
  | nil => rfl
  | cons request skipped ih =>
    cases others request List.mem_cons_self
    exact ih fun next member => others next (List.mem_cons_of_mem _ member)

namespace Store

/-! ### What a correction leaves under a name -/

theorem foldl_puts (threads : List Thread) (id : String) (held : Option Thread) :
    (threads.map Operation.put).foldl (Operation.act id) held =
      (lastNamed? id threads).or held := by
  induction threads generalizing held with
  | nil => rfl
  | cons thread threads ih =>
    -- Whatever the first thread does, a later one of its name has the last word.
    rw [List.map_cons, List.foldl_cons, ih, lastNamed?_cons, Option.or_assoc]
    simp only [Operation.put, Operation.act]
    split <;> rfl

theorem get?_correction (s : Store) (changes : StateChanges) (id : String) :
    (Operation.applyAll s (correction changes)).get? id =
      if id ∈ changes.deleted then none else (lastNamed? id changes.sent).or (s.get? id) := by
  rw [Operation.get?_applyAll, correction, List.foldl_append, ← StateChanges.sent, foldl_puts,
    StateChanges.deleted]
  cases changes.deleteIDs with
  | none => simp
  | some ids => rfl

end Store

/-! ### Corrections that lead to another store -/

namespace StateChanges.Lead

variable {changes : StateChanges} {s t : Store} {id : String}

/-- What is sent under a name is what the other store has there. -/
theorem held_of_sent (lead : changes.Lead s t) (keyed : t.WellKeyed) {thread : Thread}
    (last : lastNamed? id changes.sent = some thread) : t.get? id = some thread := by
  obtain ⟨among, named⟩ := mem_of_lastNamed? last
  obtain ⟨key, held⟩ := SortedMap.mem_values_iff.mp (lead.sound thread among)
  rw [← named, keyed key thread held, held]

theorem absent_of_deleted (lead : changes.Lead s t) (gone : id ∈ changes.deleted) :
    t.get? id = none := by
  cases held : t.get? id with
  | none => rfl
  | some thread => exact absurd (SortedMap.mem_keys_iff.mpr ⟨thread, held⟩) (lead.spares id gone)

/-- What is neither sent nor deleted is the same in both stores. -/
theorem same_of_untouched (lead : changes.Lead s t) (keyed : t.WellKeyed)
    (unsent : lastNamed? id changes.sent = none) (kept : id ∉ changes.deleted) :
    s.get? id = t.get? id := by
  cases held : t.get? id with
  | none =>
    have absent : id ∉ t.keys := fun known => by
      obtain ⟨_, found⟩ := SortedMap.mem_keys_iff.mp known
      rw [held] at found
      cases found
    cases before : s.get? id with
    | none => rfl
    | some old =>
      have known : id ∈ s.keys := SortedMap.mem_keys_iff.mpr ⟨old, before⟩
      exact absurd (lead.withdraws id known absent) kept
  | some thread =>
    have named : thread.id = id := keyed id thread held
    -- A thread that the one store does not hold as it is would have been sent.
    refine Decidable.byContradiction fun differs => ?_
    have among := lead.complete thread (SortedMap.mem_values_iff.mpr ⟨id, held⟩) (by rwa [named])
    exact lastNamed?_eq_none_iff.mp unsent thread among named

theorem applyAll_correction (lead : changes.Lead s t) (keyed : t.WellKeyed) :
    Operation.applyAll s (Store.correction changes) = t := by
  apply SortedMap.ext
  intro id
  rw [Store.get?_correction]
  split
  next gone => exact (lead.absent_of_deleted gone).symm
  next kept =>
    cases last : lastNamed? id changes.sent with
    | some thread => exact (lead.held_of_sent keyed last).symm
    | none => exact lead.same_of_untouched keyed last kept

/-- The changes that lead to a store lead from it to itself. -/
theorem again (lead : changes.Lead s t) (keyed : t.WellKeyed) : changes.Lead t t where
  sound := lead.sound
  complete thread member differs := by
    obtain ⟨key, held⟩ := SortedMap.mem_values_iff.mp member
    exact absurd (by rw [keyed key thread held, held]) differs
  withdraws _ known absent := absurd known absent
  spares := lead.spares

end StateChanges.Lead

/-! ### Reports -/

theorem Diagnostics.detect_self (d : Diagnostics) (action : Action) (s : Store) :
    d.detect action s s = none := if_pos rfl

theorem Diagnostics.detect_of_ne (d : Diagnostics) (action : Action) {s t : Store} (ne : s ≠ t) :
    ∃ report, d.detect action s t = some report ∧ report.beforeAction = s ∧ report.pushResult = t :=
  ⟨_, if_neg ne, rfl, rfl⟩

/-- The reduction with reports that do not show the action. -/
def Reduction.unattributed (r : Reduction) : Reduction :=
  { r with reports := r.reports.map fun report => { report with action := .null } }

namespace Store

/-- Only corrections are reported. -/
theorem reports_eq_nil (d : Diagnostics) (s : Store) {action : Action}
    (other : ∀ requests, action ≠ .processServerRequests requests) :
    (s.reduce d action).reports = [] := by
  cases action with
  | processServerRequests requests => exact absurd rfl (other requests)
  | setNewSession change =>
    simp only [reduce]
    split <;> rfl
  | updateSubscription id subscription =>
    simp only [reduce, subscribe]
    split <;> rfl
  | startUnreadStatus id unread =>
    simp only [reduce, startUnreadStatus]
    split <;> rfl
  | confirmUnreadStatus id reset =>
    simp only [reduce, confirmUnreadStatus]
    split
    · rfl
    · split <;> rfl
  | _ => rfl

/-- The reduction of requests of which the first state check brings the given changes. -/
theorem reduce_of_first {requests : List ServerRequest} {changes : StateChanges}
    (first : ServerRequest.stateChanges? requests = some changes) (d : Diagnostics) (s : Store) :
    let r := s.reduce d (.processServerRequests requests)
    let result := Operation.applyAll s (correction changes)
    r.store = result ∧ r.operations = correction changes ∧
      r.reports = (d.detect (.processServerRequests requests) s result).toList := by
  obtain ⟨operations, store⟩ := correct_outcome d s (.processServerRequests requests) requests
  have reports := correct_reports d s (.processServerRequests requests) requests
  simp only [corrections, first, Option.map_some, Option.getD_some, Option.bind_some] at *
  exact ⟨store, operations, reports⟩

theorem unattributed_of_first {requests others : List ServerRequest}
    (same : ServerRequest.stateChanges? requests = ServerRequest.stateChanges? others)
    (d : Diagnostics) (s : Store) :
    (s.reduce d (.processServerRequests requests)).unattributed =
      (s.reduce d (.processServerRequests others)).unattributed := by
  refine correct_showing s same rfl fun after => ?_
  -- The action shows in the report and nowhere else.
  simp only [Diagnostics.detect]
  split <;> rfl

/--
The first state check alone decides. It leaves under a name nothing that it deletes, or else the
last thread that it sends under the name, or else what was there. Its changes are reported, once and
as the only changes that ever are, if they make another store of the one before; and if they lead to
another store they make that one, so that nothing is left to report when they come again.
-/
theorem check_state_corrects (d : Diagnostics) (s : Store) {skipped : List ServerRequest}
    (others : ∀ request ∈ skipped, request = .other) (hashes : SortedMap Int64)
    (changes : StateChanges) (later : List ServerRequest) :
    let action (later : List ServerRequest) : Action :=
      .processServerRequests (skipped ++ .checkState hashes (some changes) :: later)
    let r := s.reduce d (action later)
    (∀ id, r.store.get? id =
        if id ∈ changes.deleted then none else (lastNamed? id changes.sent).or (s.get? id)) ∧
      (∀ later', (s.reduce d (action later')).unattributed = r.unattributed) ∧
      (r.store = s → r.reports = []) ∧
      (r.store ≠ s → ∃ report, r.reports = [report] ∧ report.beforeAction = s ∧
        report.pushResult = r.store) ∧
      (∀ other, (∀ requests, other ≠ .processServerRequests requests) →
        (s.reduce d other).reports = []) ∧
      ∀ t : Store, t.WellKeyed → changes.Lead s t →
        r.store = t ∧ r.reports.length = (if s = t then 0 else 1) ∧
          ∀ d', (r.store.reduce d' (action later)).reports = [] := by
  intro action r
  have first (later : List ServerRequest) :=
    ServerRequest.stateChanges?_of_first others hashes (some changes) later
  obtain ⟨store, _, reports⟩ := reduce_of_first (first later) d s
  refine ⟨fun id => ?_, fun later' => ?_, fun same => ?_, fun differs => ?_,
    fun other apart => reports_eq_nil d s apart, fun t keyed lead => ?_⟩
  · rw [store]
    exact get?_correction s changes id
  · exact unattributed_of_first ((first later').trans (first later).symm) d s
  · rw [reports, ← store, same, Diagnostics.detect_self]
    rfl
  · obtain ⟨report, found, before, after⟩ := d.detect_of_ne (action later) differs.symm
    rw [store] at found
    exact ⟨report, by rw [reports, found]; rfl, before, after⟩
  -- The changes lead to the store `t`, and from there to itself.
  · have result := lead.applyAll_correction keyed
    have stable := (lead.again keyed).applyAll_correction keyed
    rw [result] at store reports
    refine ⟨store, ?_, fun d' => ?_⟩
    · rw [reports]
      split
      next same => rw [same, Diagnostics.detect_self]; rfl
      next differs =>
        obtain ⟨report, found, _⟩ := d.detect_of_ne (action later) differs
        rw [found]
        rfl
    · obtain ⟨_, _, repeated⟩ := reduce_of_first (first later) d' t
      rw [store, repeated, stable, Diagnostics.detect_self]
      rfl

/--
A client that lacks a thread, has another one too many and a third one wrong is set right by a check
that lists threads and deletions more than once, and again by the same check without a report.
-/
theorem check_state_corrects_drifted :
    let d : Diagnostics := ⟨[], [], .standard, 0⟩
    let s : Store := .ofThreads [.new "a" 3 0, .new "b" 3 0, .new "c" 3 0]
    let t : Store := .ofThreads [.new "b" 5 1, .new "c" 3 0, .new "d" 3 0]
    let changes : StateChanges :=
      ⟨some [.new "d" 3 0, .new "b" 5 1, .new "d" 3 0], some ["a", "e", "a"]⟩
    let skipped : List ServerRequest := [.other, .other]
    let later : List ServerRequest := [.checkState ∅ (some ⟨none, some ["b"]⟩)]
    let action : Action :=
      .processServerRequests (skipped ++ .checkState ∅ (some changes) :: later)
    let r := s.reduce d action
    (∀ request ∈ skipped, request = .other) ∧ t.WellKeyed ∧ changes.Lead s t ∧ r.store ≠ s ∧
      (∃ report, r.reports = [report] ∧ report.beforeAction = s ∧ report.pushResult = r.store) ∧
      (s.reduce d (.endSession .logOut)).reports = [] ∧ r.store = t ∧
      ∀ d', (r.store.reduce d' action).reports = [] := by
  intro d s t changes skipped later action r
  have others : ∀ request ∈ skipped, request = .other := by decide
  have keyed : t.WellKeyed := ofThreads_wellKeyed _
  have lead : changes.Lead s t :=
    ⟨by decide +kernel, by decide +kernel, by decide +kernel, by decide +kernel⟩
  have differs : s ≠ t := by decide +kernel
  obtain ⟨_, _, _, reported, unreported, leads⟩ :=
    check_state_corrects d s others ∅ changes later
  obtain ⟨store, _, repeated⟩ := leads t keyed lead
  have changed : r.store ≠ s := fun same => differs (same.symm.trans store)
  exact ⟨others, keyed, lead, changed, reported changed,
    unreported (.endSession .logOut) (fun _ same => nomatch same), store, repeated⟩

end Store

end ThreadCache
