import Mathlib.Data.List.Basic
import ThreadCache.Proofs.Store.Provenance

/-!
# Threads that become unread

New messages, activity in other threads and a reset by the server make threads unread, and together
with the choice of a subscription they do nothing else.

## Main result

`raised_in_any_order`: after such actions a thread is unread if it was or if one of the actions
raises it, and has the subscription that was chosen last; so the order of the actions does not
matter but for the choices of one thread.

## Proof strategy

The actions are read as their effects, each of which marks a thread as unread or chooses a
subscription. A thread that is there comes through such effects as the record that it was with its
edits (`Effect.foldl_on_of_raising`), and what the edits come to is read off the effects as a set,
but for the subscriptions (`Thread.edited_of_raising`).
-/

namespace ThreadCache

/-! ### Actions that raise threads -/

/-- The effect marks a thread as unread or chooses a subscription. -/
def Effect.Raising : Effect → Prop
  | .mark _ unread => unread = true
  | .subscribe .. => True
  | _ => False

namespace Action

/-- The action makes threads unread or chooses a subscription, and does nothing else. -/
def Raising : Action → Prop
  | .saveMessages .. => True
  | .updateActivity _ => True
  | .confirmUnreadStatus .. => True
  | .updateSubscription .. => True
  | _ => False

instance : (a : Action) → Decidable a.Raising
  | .saveMessages .. | .updateActivity _ | .confirmUnreadStatus .. | .updateSubscription .. =>
    isTrue trivial
  | .fullSync .. | .endSession _ | .setNewSession _ | .updates .. | .processServerRequests _
  | .startUnreadStatus .. | .setThreadStore _ | .unrecognized => isFalse id

/--
The action makes a thread unread: it has a message in it that is not older than the state of the
updates, lists it, or says that the server reset it.
-/
def Raises (id : String) : Action → Prop
  | .saveMessages messages currentAsOf => ∃ m ∈ messages, m.threadID = id ∧ currentAsOf ≤ m.time
  | .updateActivity ids => id ∈ ids
  | .confirmUnreadStatus key reset => key = id ∧ reset = true
  | _ => False

instance (id : String) : (a : Action) → Decidable (a.Raises id)
  | .saveMessages messages currentAsOf =>
    inferInstanceAs (Decidable (∃ m ∈ messages, m.threadID = id ∧ currentAsOf ≤ m.time))
  | .updateActivity ids => inferInstanceAs (Decidable (id ∈ ids))
  | .confirmUnreadStatus key reset => inferInstanceAs (Decidable (key = id ∧ reset = true))
  | .fullSync .. | .endSession _ | .setNewSession _ | .updates .. | .updateSubscription ..
  | .processServerRequests _ | .startUnreadStatus .. | .setThreadStore _ | .unrecognized =>
    isFalse False.elim

/-- The subscription that the action chooses for a thread. -/
def subscription? (id : String) : Action → Option Subscription
  | .updateSubscription key subscription => if key = id then some subscription else none
  | _ => none

variable {a : Action}

theorem Raising.tidy (raising : a.Raising) : a.Tidy := by
  rintro store rfl
  exact raising.elim

theorem Raising.effects (raising : a.Raising) : ∀ e ∈ a.effects, e.Raising := by
  intro e member
  cases a with
  | saveMessages messages currentAsOf =>
    obtain ⟨_, _, rfl⟩ := List.mem_map.mp member
    rfl
  | updateActivity ids =>
    obtain ⟨_, _, rfl⟩ := List.mem_map.mp member
    rfl
  | confirmUnreadStatus key reset =>
    rw [Action.effects] at member
    split at member
    · cases List.mem_singleton.mp member
      rfl
    · cases member
  | updateSubscription key subscription =>
    cases List.mem_singleton.mp member
    trivial
  | _ => exact raising.elim

/-- A raising action raises the threads that its effects mark. -/
theorem Raising.mark_mem_iff (raising : a.Raising) (id : String) :
    .mark id true ∈ a.effects ↔ a.Raises id := by
  cases a with
  | saveMessages messages currentAsOf =>
    simp only [Action.effects, Raises, List.mem_map, List.mem_filter, decide_eq_true_eq,
      Effect.mark.injEq, and_true]
    constructor
    · rintro ⟨m, ⟨among, late⟩, name⟩
      exact ⟨m, among, name, late⟩
    · rintro ⟨m, among, name, late⟩
      exact ⟨m, ⟨among, late⟩, name⟩
  | updateActivity ids => simp [Action.effects, Raises]
  | confirmUnreadStatus key reset =>
    cases reset <;> simp [Action.effects, Raises, eq_comm]
  | updateSubscription key subscription => simp [Action.effects, Raises]
  | _ => exact raising.elim

theorem Raising.filterMap_effects (raising : a.Raising) (id : String) :
    a.effects.filterMap (Effect.subscription? id) = (a.subscription? id).toList := by
  cases a with
  | saveMessages messages currentAsOf =>
    simp [Action.effects, subscription?, List.filterMap_map, Function.comp_def,
      Effect.subscription?]
  | updateActivity ids =>
    simp [Action.effects, subscription?, List.filterMap_map, Function.comp_def,
      Effect.subscription?]
  | confirmUnreadStatus key reset =>
    cases reset <;> simp [Action.effects, subscription?, Effect.subscription?]
  | updateSubscription key subscription =>
    by_cases same : key = id <;> simp [Action.effects, subscription?, Effect.subscription?, same]
  | _ => exact raising.elim

end Action

/-! ### Effects that raise threads -/

namespace Effect

variable {effects : List Effect}

/-- A thread stays where it is. -/
theorem on_of_raising {e : Effect} (raising : e.Raising) (id : String) (t : Thread) :
    ∃ u, e.on id (some t) = some u := by
  cases e with
  | mark key unread =>
    rw [on]
    split
    · exact ⟨_, rfl⟩
    · exact ⟨t, rfl⟩
  | subscribe key subscription =>
    rw [on]
    split
    · exact ⟨_, rfl⟩
    · exact ⟨t, rfl⟩
  | _ => exact raising.elim

/-- A thread that is there comes through with its edits, and one that is not is not made. -/
theorem foldl_on_of_raising (raising : ∀ e ∈ effects, e.Raising) {id : String}
    {held : Option Thread} (named : ∀ t, held = some t → t.id = id) :
    effects.foldl (on id) held = held.map (·.edited effects) := by
  induction effects using List.reverseRecOn with
  | nil => simp only [List.foldl_nil, Thread.edited_nil, Option.map_id']
  | append_singleton effects e ih =>
    have last : e.Raising := raising e (List.mem_append_right _ List.mem_cons_self)
    have undelivered : ¬ e.Delivers id := by
      rintro ⟨record, rfl, _⟩
      exact last.elim
    rw [List.foldl_append, List.foldl_cons, List.foldl_nil,
      ih fun other member => raising other (List.mem_append_left _ member)]
    cases held with
    | none => exact on_none undelivered
    | some t =>
      obtain rfl : t.id = id := named t rfl
      obtain ⟨u, there⟩ := on_of_raising last t.id (t.edited effects)
      rw [Option.map_some, there, on_edited undelivered there, Option.map_some]

theorem unread?_of_raising (raising : ∀ e ∈ effects, e.Raising) {id : String} {unread : Bool} :
    unread ∈ effects.filterMap (unread? id) ↔ unread = true ∧ .mark id true ∈ effects := by
  rw [List.mem_filterMap]
  constructor
  · rintro ⟨e, member, marks⟩
    cases e with
    | mark key flag =>
      rw [unread?] at marks
      split at marks
      next name =>
        cases marks
        have set : unread = true := raising _ member
        subst name set
        exact ⟨rfl, member⟩
      · cases marks
    | _ => cases marks
  · rintro ⟨rfl, member⟩
    exact ⟨_, member, if_pos rfl⟩

end Effect

/-- The record with what raising effects come to, in whatever order they came. -/
theorem Thread.edited_of_raising (t : Thread) {effects : List Effect}
    (raising : ∀ e ∈ effects, e.Raising) :
    t.edited effects =
      (t.withSubscription ((effects.filterMap (Effect.subscription? t.id)).getLast?.getD
        t.currentUser.subscription)).withUnread
          (t.unread || decide (.mark t.id true ∈ effects)) := by
  have members : t.members.filter (fun m => .expel m.id ∉ effects) = t.members := by
    refine List.filter_eq_self.mpr fun m _ => decide_eq_true fun expelled => ?_
    exact (raising _ expelled).elim
  have unread : (effects.filterMap (Effect.unread? t.id)).getLast?.getD t.unread =
      (t.unread || decide (.mark t.id true ∈ effects)) := by
    cases last : (effects.filterMap (Effect.unread? t.id)).getLast? with
    | none =>
      -- Nothing marks the thread, or there would be a last mark.
      have unmarked : .mark t.id true ∉ effects := fun marked => by
        have said := (Effect.unread?_of_raising raising).mpr ⟨rfl, marked⟩
        rw [List.getLast?_eq_none_iff.mp last] at said
        cases said
      simp [unmarked]
    | some flag =>
      obtain ⟨rfl, marked⟩ := (Effect.unread?_of_raising raising).mp (List.mem_of_getLast? last)
      simp [marked]
  unfold edited
  rw [members]
  unfold Thread.unread at unread
  rw [unread]
  rfl

/-- Maps that hold something under the same names have the same names. -/
theorem SortedMap.keys_congr {α β : Type} {m : SortedMap α} {m' : SortedMap β}
    (same : ∀ id, (m.get? id).isSome = (m'.get? id).isSome) : m.keys = m'.keys := by
  have bare : m.map (fun _ => ()) = m'.map fun _ => () := by
    apply SortedMap.ext
    intro id
    have both := same id
    rw [get?_map, get?_map]
    cases held : m.get? id <;> cases held' : m'.get? id <;> simp_all
  have names {γ : Type} (m : SortedMap γ) : (m.map fun _ => ()).keys = m.keys := by
    simp [keys, map]
  rw [← names m, bare, names m']

namespace Store

variable {s : Store} {steps : List (Diagnostics × Action)}

/-! ### Runs -/

/-- Every thread stays where it is, with the last choice for it, and unread if it is raised. -/
theorem get?_reduceAll_of_raising (keyed : s.WellKeyed)
    (raising : ∀ step ∈ steps, step.2.Raising) (id : String) :
    (s.reduceAll steps).get? id = (s.get? id).map fun t =>
      (t.withSubscription ((steps.filterMap (·.2.subscription? id)).getLast?.getD
        t.currentUser.subscription)).withUnread
          (t.unread || decide (∃ step ∈ steps, step.2.Raises id)) := by
  let effects := steps.flatMap fun step => step.2.effects
  have all : ∀ e ∈ effects, e.Raising := by
    intro e member
    obtain ⟨step, among, said⟩ := List.mem_flatMap.mp member
    exact (raising step among).effects e said
  have marked : .mark id true ∈ effects ↔ ∃ step ∈ steps, step.2.Raises id := by
    rw [List.mem_flatMap]
    exact exists_congr fun step =>
      and_congr_right fun among => (raising step among).mark_mem_iff id
  have chosen : effects.filterMap (Effect.subscription? id) =
      steps.filterMap (·.2.subscription? id) := by
    rw [List.filterMap_flatMap, List.filterMap_eq_flatMap_toList]
    exact List.flatMap_congr fun step among => (raising step among).filterMap_effects id
  rw [get?_reduceAll keyed fun step member => (raising step member).tidy]
  rw [Effect.foldl_on_of_raising all (keyed id)]
  refine Option.map_congr fun t held => ?_
  obtain rfl : t.id = id := keyed id t held
  rw [t.edited_of_raising all, chosen]
  simp only [marked]

/-- Such actions in another order lead to the same store if each thread has its choices in order. -/
theorem reduceAll_of_perm (keyed : s.WellKeyed) (raising : ∀ step ∈ steps, step.2.Raising)
    {steps' : List (Diagnostics × Action)}
    (reordered : (steps.map (·.2)).Perm (steps'.map (·.2)))
    (choices : ∀ id, steps.filterMap (·.2.subscription? id) =
      steps'.filterMap (·.2.subscription? id)) : s.reduceAll steps' = s.reduceAll steps := by
  have raised (id : String) :
      (∃ step ∈ steps', step.2.Raises id) ↔ ∃ step ∈ steps, step.2.Raises id := by
    have listed (l : List (Diagnostics × Action)) :
        (∃ step ∈ l, step.2.Raises id) ↔ ∃ a ∈ l.map (·.2), a.Raises id :=
      ⟨fun ⟨step, member, raises⟩ => ⟨step.2, List.mem_map_of_mem member, raises⟩,
        fun ⟨_, member, raises⟩ =>
          have ⟨step, among, action⟩ := List.mem_map.mp member
          ⟨step, among, action ▸ raises⟩⟩
    rw [listed, listed]
    exact exists_congr fun a => and_congr_left' reordered.mem_iff.symm
  have raising' : ∀ step ∈ steps', step.2.Raising := by
    rw [← List.forall_mem_map] at raising ⊢
    exact fun a member => raising a (reordered.mem_iff.mpr member)
  apply SortedMap.ext
  intro id
  rw [get?_reduceAll_of_raising keyed raising, get?_reduceAll_of_raising keyed raising',
    choices id]
  simp only [raised]

/--
After actions that make threads unread or choose a subscription there are the threads that there
were. Each of them is unread if it was or if one of the actions raises it, has the subscription that
was chosen last for it, and is otherwise as it was. So it does not matter in which order the actions
come, but for the choices of one thread.
-/
theorem raised_in_any_order (keyed : s.WellKeyed) (raising : ∀ step ∈ steps, step.2.Raising) :
    (s.reduceAll steps).keys = s.keys ∧
      (∀ id thread, s.get? id = some thread →
        ∃ raised, (s.reduceAll steps).get? id = some raised ∧
          (raised.unread = true ↔ thread.unread = true ∨ ∃ step ∈ steps, step.2.Raises id) ∧
          raised.currentUser.subscription =
            (steps.filterMap (·.2.subscription? id)).getLast?.getD
              thread.currentUser.subscription ∧
          raised = (thread.withSubscription raised.currentUser.subscription).withUnread
            raised.unread) ∧
      ∀ steps' : List (Diagnostics × Action), (steps.map (·.2)).Perm (steps'.map (·.2)) →
        (∀ id, steps.filterMap (·.2.subscription? id) =
          steps'.filterMap (·.2.subscription? id)) →
        s.reduceAll steps' = s.reduceAll steps := by
  refine ⟨?_, fun id thread found => ?_, fun _ => reduceAll_of_perm keyed raising⟩
  · refine SortedMap.keys_congr fun id => ?_
    rw [get?_reduceAll_of_raising keyed raising, Option.isSome_map]
  · rw [get?_reduceAll_of_raising keyed raising, found]
    refine ⟨_, rfl, ?_, rfl, rfl⟩
    change (thread.unread || decide _) = true ↔ _
    rw [Bool.or_eq_true, decide_eq_true_eq]

/-- A message of the last moment, activity that is told twice, and two choices for one thread. -/
theorem raised_in_any_order_mixed :
    let d : Diagnostics := ⟨[], [], .standard, 0⟩
    let s : Store := .ofThreads [.new "t" 3 0, .new "u" 3 0, .new "v" 3 0]
    let messages : Action :=
      .saveMessages [⟨none, "t", 4⟩, ⟨none, "v", 3⟩, ⟨none, "t", 5⟩, ⟨none, "t", 2⟩] 5
    let activity : Action := .updateActivity ["u", "x", "u"]
    let read : Action := .confirmUnreadStatus "v" false
    let first : Action := .updateSubscription "t" ⟨false, true⟩
    let second : Action := .updateSubscription "t" ⟨false, false⟩
    let other : Action := .updateSubscription "u" ⟨true, false⟩
    let steps : List (Diagnostics × Action) :=
      [(d, first), (d, messages), (d, read), (d, second), (d, activity), (d, other)]
    let steps' : List (Diagnostics × Action) :=
      [(d, other), (d, activity), (d, first), (d, second), (d, messages), (d, read)]
    s.WellKeyed ∧ (∀ step ∈ steps, step.2.Raising) ∧
      (steps.map (·.2)).Perm (steps'.map (·.2)) ∧
      (∀ id, steps.filterMap (·.2.subscription? id) = steps'.filterMap (·.2.subscription? id)) ∧
      (s.reduceAll steps).keys = s.keys ∧
      (s.reduceAll steps).values.map (fun t => (t.id, t.unread, t.currentUser.subscription)) =
        [("t", true, ⟨false, false⟩), ("u", true, ⟨true, false⟩), ("v", false, .everywhere)] ∧
      (∃ raised, (s.reduceAll steps).get? "t" = some raised ∧ raised.unread = true ∧
        raised.currentUser.subscription = ⟨false, false⟩) ∧
      s.reduceAll steps' = s.reduceAll steps := by
  intro d s messages activity read first second other steps steps'
  have keyed : s.WellKeyed := ofThreads_wellKeyed _
  have raising : ∀ step ∈ steps, step.2.Raising := by decide
  have reordered : (steps.map (·.2)).Perm (steps'.map (·.2)) := by decide +kernel
  have choices (id : String) :
      steps.filterMap (·.2.subscription? id) = steps'.filterMap (·.2.subscription? id) := by
    by_cases one : "t" = id
    · subst one
      decide
    · by_cases two : "u" = id
      · subst two
        decide
      · simp [steps, steps', Action.subscription?, first, second, other, messages, activity, read,
          one, two]
  obtain ⟨keys, each, any_order⟩ := raised_in_any_order keyed raising
  obtain ⟨raised, found, unread, subscription, _⟩ := each "t" (.new "t" 3 0) (by decide +kernel)
  have late : ∃ step ∈ steps, step.2.Raises "t" := ⟨(d, messages), by simp [steps], by decide⟩
  exact ⟨keyed, raising, reordered, choices, keys, by decide +kernel,
    ⟨raised, found, unread.mpr (.inr late), subscription⟩, any_order steps' reordered choices⟩

end Store

end ThreadCache
