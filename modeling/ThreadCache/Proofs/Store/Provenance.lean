import Mathlib.Data.List.Induction
import ThreadCache.Proofs.Store.Effects

/-!
# Where cached records come from

## Main result

`provenance`: after any actions that start from nothing, every record in the store is the one that
was delivered last under its name, with the members dropped who left every thread since then, the
subscription that was chosen last since then, and the unread flag that was set last since then.

## Proof strategy

The effects of all the actions are taken together in one list, and the induction removes the last
effect of it. Either that effect delivers the record, or the record was there before and the effect
edited it; an effect that is neither leaves nothing under the name.
-/

namespace ThreadCache

def Effect.expelled? : Effect → Option String
  | .expel user => some user
  | _ => none

def Effect.subscription? (id : String) : Effect → Option Subscription
  | .subscribe key subscription => if key = id then some subscription else none
  | _ => none

def Effect.unread? (id : String) : Effect → Option Bool
  | .mark key unread => if key = id then some unread else none
  | _ => none

/--
A record after effects that neither delivered it again nor withdrew it. Nothing but its members,
its subscription and its unread flag changes.
-/
def Thread.edited (t : Thread) (effects : List Effect) : Thread :=
  { t with
    members := t.members.filter fun m => .expel m.id ∉ effects
    currentUser := { t.currentUser with
      subscription :=
        (effects.filterMap (Effect.subscription? t.id)).getLast?.getD t.currentUser.subscription
      unread := (effects.filterMap (Effect.unread? t.id)).getLast?.getD t.currentUser.unread } }

namespace Thread

theorem edited_nil (t : Thread) : t.edited [] = t := by
  have all : t.members.filter (fun m => decide (Effect.expel m.id ∉ [])) = t.members :=
    List.filter_eq_self.mpr (by simp)
  unfold edited
  rw [all]
  rfl

/-- An effect of another kind, or on another thread, edits nothing. -/
theorem edited_append_of_idle (t : Thread) (effects : List Effect) {e : Effect}
    (noExpulsion : e.expelled? = none) (noChoice : e.subscription? t.id = none)
    (noMark : e.unread? t.id = none) : t.edited (effects ++ [e]) = t.edited effects := by
  -- The expulsions in the longer list are those in the shorter one.
  have expelled (user : String) :
      Effect.expel user ∈ effects ++ [e] ↔ Effect.expel user ∈ effects := by
    rw [List.mem_append, List.mem_singleton]
    refine or_iff_left fun same => ?_
    rw [← same] at noExpulsion
    cases noExpulsion
  simp only [edited, expelled, List.filterMap_append, List.filterMap_cons, noChoice, noMark,
    List.filterMap_nil, List.append_nil]

theorem edited_append_expel (t : Thread) (effects : List Effect) (user : String) :
    t.edited (effects ++ [.expel user]) = (t.edited effects).dropMember user := by
  -- Members are dropped at once here and one expulsion after the other in the store.
  have members : t.members.filter (fun m => Effect.expel m.id ∉ effects ++ [.expel user]) =
      (t.members.filter fun m => Effect.expel m.id ∉ effects).filter (·.id != user) := by
    rw [List.filter_filter]
    refine List.filter_congr fun m _ => ?_
    simp [and_comm, Bool.beq_eq_decide_eq, bne]
  simp only [edited, dropMember, members, List.filterMap_append, List.filterMap_cons,
    Effect.subscription?, Effect.unread?, List.filterMap_nil, List.append_nil]

theorem edited_append_subscribe (t : Thread) (effects : List Effect)
    (subscription : Subscription) :
    t.edited (effects ++ [.subscribe t.id subscription]) =
      (t.edited effects).withSubscription subscription := by
  simp [edited, withSubscription, List.filterMap_append, Effect.subscription?, Effect.unread?]

theorem edited_append_mark (t : Thread) (effects : List Effect) (unread : Bool) :
    t.edited (effects ++ [.mark t.id unread]) = (t.edited effects).withUnread unread := by
  simp [edited, withUnread, List.filterMap_append, Effect.subscription?, Effect.unread?]

end Thread

/-! ### One effect -/

namespace Effect

/-- The effect delivers a record under a name. -/
def Delivers (id : String) (e : Effect) : Prop := ∃ record, e = .deliver record ∧ record.id = id

theorem on_of_delivers {id : String} {held : Option Thread} {e : Effect} {thread : Thread}
    (delivered : e.Delivers id) (there : e.on id held = some thread) : e = .deliver thread := by
  obtain ⟨record, rfl, name⟩ := delivered
  rw [on, if_pos name] at there
  rw [Option.some.inj there]

/-- Nothing appears under a name but by a delivery. -/
theorem on_none {id : String} {e : Effect} (undelivered : ¬ e.Delivers id) :
    e.on id none = none := by
  -- All effects but deliveries change what is there already.
  cases e with
  | deliver record => exact if_neg fun name => undelivered ⟨record, rfl, name⟩
  | withdraw key => exact ite_self none
  | withdrawAll => rfl
  | expel user => rfl
  | subscribe key subscription => exact ite_self none
  | mark key unread => exact ite_self none

/-- An effect that does not deliver a record edits the one that is there. -/
theorem on_edited {t : Thread} {effects : List Effect} {e : Effect} {thread : Thread}
    (undelivered : ¬ e.Delivers t.id) (there : e.on t.id (some (t.edited effects)) = some thread) :
    thread = t.edited (effects ++ [e]) := by
  -- An effect on another name is idle for this thread, and both sides leave it alone.
  cases e with
  | deliver record =>
    have other : record.id ≠ t.id := fun name => undelivered ⟨record, rfl, name⟩
    rw [on, if_neg other] at there
    have idle := Thread.edited_append_of_idle t effects (e := .deliver record) rfl rfl rfl
    exact (Option.some.inj there).symm.trans idle.symm
  | withdraw key =>
    rw [on] at there
    split at there
    · cases there
    · have idle := Thread.edited_append_of_idle t effects (e := .withdraw key) rfl rfl rfl
      exact (Option.some.inj there).symm.trans idle.symm
  | withdrawAll => cases there
  | expel user =>
    rw [Thread.edited_append_expel]
    exact (Option.some.inj there).symm
  | subscribe key subscription =>
    rw [on] at there
    split at there
    next name =>
      rw [name, Thread.edited_append_subscribe]
      exact (Option.some.inj there).symm
    next other =>
      have idle := Thread.edited_append_of_idle t effects (e := .subscribe key subscription) rfl
        (if_neg other) rfl
      exact (Option.some.inj there).symm.trans idle.symm
  | mark key unread =>
    rw [on] at there
    split at there
    next name =>
      rw [name, Thread.edited_append_mark]
      exact (Option.some.inj there).symm
    next other =>
      have idle := Thread.edited_append_of_idle t effects (e := .mark key unread) rfl rfl
        (if_neg other)
      exact (Option.some.inj there).symm.trans idle.symm

/-! ### All effects -/

/-- What effects leave under a name was delivered there, and is the last such delivery, edited. -/
theorem foldl_on_eq_some {id : String} {effects : List Effect} {thread : Thread}
    (there : effects.foldl (on id) none = some thread) :
    ∃ before record after, effects = before ++ .deliver record :: after ∧ record.id = id ∧
      (∀ e ∈ after, ¬ e.Delivers id) ∧ thread = record.edited after := by
  -- The last effect is taken off: what is there now came from it, or from before and through it.
  induction effects using List.reverseRecOn generalizing thread with
  | nil => cases there
  | append_singleton effects e ih =>
    rw [List.foldl_append, List.foldl_cons, List.foldl_nil] at there
    by_cases delivered : e.Delivers id
    · obtain ⟨record, rfl, name⟩ := delivered
      cases on_of_delivers ⟨record, rfl, name⟩ there
      exact ⟨effects, thread, [], rfl, name, List.forall_mem_nil _, thread.edited_nil.symm⟩
    · cases held : effects.foldl (on id) none with
      | none =>
        rw [held, on_none delivered] at there
        cases there
      | some earlier =>
        obtain ⟨before, record, after, rfl, name, undelivered, rfl⟩ := ih held
        refine ⟨before, record, after ++ [e], by simp, name, ?_, ?_⟩
        · intro other member
          rcases List.mem_append.mp member with early | last
          · exact undelivered other early
          · exact List.mem_singleton.mp last ▸ delivered
        · subst name
          rw [held] at there
          exact on_edited delivered there

end Effect

/-! ### Runs -/

/-- Every record in the store is the last delivery of its name, with the edits made since then. -/
theorem Store.provenance (steps : List (Diagnostics × Action))
    (tidy : ∀ step ∈ steps, step.2.Tidy) {id : String} {thread : Thread}
    (present : (reduceAll ∅ steps).get? id = some thread) :
    ∃ before record after,
      steps.flatMap (fun step => step.2.effects) = before ++ .deliver record :: after ∧
        record.id = id ∧ (∀ e ∈ after, ¬ e.Delivers id) ∧ thread = record.edited after := by
  -- The whole run is one list of effects, read at the one name.
  rw [get?_reduceAll Store.empty_wellKeyed tidy] at present
  exact Effect.foldl_on_eq_some present

/-- A snapshot delivers a thread, one of its members leaves, and the user chooses a subscription. -/
theorem Store.provenance_after_snapshot :
    let delivered : Thread := { Thread.new "t" 3 0 with members := [.new "a" none, .new "b" none] }
    let d : Diagnostics := ⟨[], [], .standard, 0⟩
    let steps : List (Diagnostics × Action) :=
      [(d, .fullSync .logIn ⟨SortedMap.ofList [("stray", delivered)], 1⟩),
        (d, .updates .processUpdates ⟨2, [.deleteAccount "1" 2 "a"]⟩),
        (d, .updateSubscription "t" ⟨false, true⟩),
        (d, .updateActivity ["t"])]
    ∃ thread, (reduceAll ∅ steps).get? "t" = some thread ∧
      thread.members = [.new "b" none] ∧ thread.unread ∧
      ∃ before record after,
        steps.flatMap (fun step => step.2.effects) = before ++ .deliver record :: after ∧
          record.id = "t" ∧ (∀ e ∈ after, ¬ e.Delivers "t") ∧ thread = record.edited after := by
  intro delivered d steps
  have tidy : ∀ step ∈ steps, step.2.Tidy := by
    simp [steps, Action.Tidy]
  have present : (reduceAll ∅ steps).get? "t" = some { delivered with
      members := [.new "b" none]
      currentUser := ⟨none, ∅, ⟨false, true⟩, true⟩ } := by
    decide +kernel
  exact ⟨_, present, rfl, rfl, provenance steps tidy present⟩

end ThreadCache
