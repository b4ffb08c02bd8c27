import Mathlib.Data.List.DropRight
import ThreadCache.Proofs.Correction
import ThreadCache.Proofs.Session.Failure

/-!
# What the history holds

An action is recorded before it is known whether it can be written, and dropped again if it cannot
be; but what it displaced does not come back.

## Main result

`history_of_run`: the history holds the latest of the actions that were written, as many as there is
room for, or one less after an action that was not; and a report lists the history that ends with
the action that it is about.

## Proof strategy

The invariant is `History.Reflects`. However often actions fail, only the first of them displaces an
entry, because the next one finds the room that was made. Recording and forgetting both begin by
making room for one entry, and what is left then is the same whether or not the history was short of
one before (`rtake_of_room`).
-/

namespace ThreadCache

open Cache (CacheError Database Outage)

/-! ### Attempts -/

/-- An action that is of interest, and whether it was written. -/
abbrev Attempt := ActionSummary × Bool

namespace Attempt

/-- The actions that were written, of those that were attempted. -/
def written (attempts : List Attempt) : List ActionSummary := (attempts.filter (·.2)).map (·.1)

/-- The latest attempt, if there was any, was written. -/
def settled (attempts : List Attempt) : Bool := attempts.getLast?.all (·.2)

theorem written_concat (past : List Attempt) (summary : ActionSummary) (done : Bool) :
    written (past ++ [(summary, done)]) = written past ++ if done then [summary] else [] := by
  cases done <;> simp [written]

theorem settled_concat (past : List Attempt) (summary : ActionSummary) (done : Bool) :
    settled (past ++ [(summary, done)]) = done := by
  simp [settled]

end Attempt

namespace Session

/-- The attempt that a move is; actions of no interest do not count, and neither does a restore. -/
def attempt (uninteresting : List String) (s : Session) : Move → List Attempt
  | .dispatch now outage action =>
    if action.typeName ∈ uninteresting then []
    else [(History.summarize action now, (s.dispatch now outage action).result.isOk)]
  | .restore => []

def attempts (uninteresting : List String) (s : Session) : List Move → List Attempt
  | [] => []
  | m :: moves => s.attempt uninteresting m ++ (s.move m).attempts uninteresting moves

end Session

/-! ### The invariant -/

namespace History

/-- How many of the actions that were written a history has room for after some attempts. -/
def depth (capacity : Nat) (past : List Attempt) : Nat :=
  if Attempt.settled past then capacity else capacity - 1

/-- The history holds the latest of the actions that were written. -/
structure Reflects (h : History) (capacity : Nat) (uninteresting : List String)
    (past : List Attempt) : Prop where
  capacity_eq : h.capacity = capacity
  uninteresting_eq : h.uninteresting = uninteresting
  summaries_eq : h.summaries = (Attempt.written past).rtake (depth capacity past)

theorem rtake_min {α : Type} (l : List α) (n : Nat) : l.rtake (min l.length n) = l.rtake n := by
  rw [List.rtake, List.rtake]
  congr 1
  omega

/-- With room for one more made, it does not matter whether the list had been one short. -/
theorem rtake_of_room {α : Type} {l : List α} {n k : Nat} (short : k = n ∨ k = n + 1) :
    (if (l.rtake k).length = n + 1 then (l.rtake k).drop 1 else l.rtake k) = l.rtake n := by
  simp only [List.rtake, List.length_drop, List.drop_drop]
  split
  · congr 1
    omega
  · congr 1
    omega

variable {h : History} {capacity : Nat} {uninteresting : List String} {past : List Attempt}

theorem Reflects.room (before : h.Reflects capacity uninteresting past) (positive : 0 < capacity) :
    (if h.summaries.length = h.capacity then h.summaries.drop 1 else h.summaries) =
      (Attempt.written past).rtake (capacity - 1) := by
  obtain ⟨n, rfl⟩ := Nat.exists_eq_succ_of_ne_zero positive.ne'
  rw [before.summaries_eq, before.capacity_eq]
  refine rtake_of_room ?_
  unfold depth
  split
  · exact .inr rfl
  · exact .inl rfl

theorem Reflects.push (before : h.Reflects capacity uninteresting past) (positive : 0 < capacity)
    (summary : ActionSummary) :
    (h.push summary).Reflects capacity uninteresting (past ++ [(summary, true)]) := by
  refine ⟨before.capacity_eq, before.uninteresting_eq, ?_⟩
  obtain ⟨n, rfl⟩ := Nat.exists_eq_succ_of_ne_zero positive.ne'
  rw [Attempt.written_concat, depth, Attempt.settled_concat, if_pos rfl, if_pos rfl,
    Nat.succ_eq_add_one, List.rtake_concat_succ, History.push, before.room positive]
  rfl

/-- Forgetting an action leaves the room that was made for it. -/
theorem Reflects.discard (before : h.Reflects capacity uninteresting past)
    (positive : 0 < capacity) (summary : ActionSummary) :
    (h.push summary).discardLatest.Reflects capacity uninteresting
      (past ++ [(summary, false)]) := by
  refine ⟨before.capacity_eq, before.uninteresting_eq, ?_⟩
  rw [Attempt.written_concat, depth, Attempt.settled_concat, if_neg Bool.false_ne_true,
    if_neg Bool.false_ne_true, List.append_nil, ← before.room positive]
  exact List.dropLast_concat

theorem isInteresting_push (h : History) (summary : ActionSummary) (action : Action) :
    (h.push summary).isInteresting action = h.isInteresting action := rfl

theorem Reflects.isInteresting (before : h.Reflects capacity uninteresting past) (action : Action) :
    h.isInteresting action = !decide (action.typeName ∈ uninteresting) := by
  rw [History.isInteresting, before.uninteresting_eq, List.contains_eq_mem]

theorem Reflects.record_of_interest (before : h.Reflects capacity uninteresting past)
    {action : Action} (interesting : action.typeName ∉ uninteresting) (now : Int64) :
    h.record action now = h.push (summarize action now) := by
  rw [History.record, before.isInteresting, decide_eq_false interesting]
  rfl

theorem reflects_new (capacity : Nat) (uninteresting : List String) :
    (new capacity uninteresting).Reflects (max capacity 1) uninteresting [] :=
  ⟨rfl, rfl, (List.rtake_nil _).symm⟩

end History

namespace Session

/-! ### Runs -/

theorem restored_history {s restored : Session} (read : s.restore = .ok restored) :
    restored.history = s.history := by
  cases held : s.database with
  | none =>
    rw [restore_of_none held] at read
    cases read
    rfl
  | some db =>
    obtain ⟨threads, _, rfl⟩ := restore_eq_ok held read
    rfl

theorem recorded_history (s : Session) (now : Int64) (action : Action) :
    (s.recorded now action).history = s.history.record action now := rfl

theorem forgetting_history (s : Session) (action : Action) :
    (s.forgetting action).history =
      if s.history.isInteresting action then s.history.discardLatest else s.history := by
  unfold forgetting
  split <;> rfl

variable {s : Session} {capacity : Nat} {uninteresting : List String} {past : List Attempt}

theorem reflects_dispatch (before : s.history.Reflects capacity uninteresting past)
    (positive : 0 < capacity) (now : Int64) (outage : Outage) (action : Action) :
    (s.dispatch now outage action).session.history.Reflects capacity uninteresting
      (past ++ s.attempt uninteresting (.dispatch now outage action)) := by
  have interest := before.isInteresting action
  rw [attempt]
  split
  -- An action of no interest is neither recorded nor forgotten.
  next boring =>
    have same : (s.recorded now action).history = s.history := by
      rw [recorded_history, History.record, interest, decide_eq_true boring]
      rfl
    rw [List.append_nil]
    rcases s.dispatch_cases now outage action with ⟨_, _, after⟩ | ⟨_, after⟩
    · rw [after, forgetting_history, same, interest, decide_eq_true boring]
      exact before
    · rw [after]
      dsimp only
      rw [same]
      exact before
  next kept =>
    have recorded : (s.recorded now action).history =
        s.history.push (History.summarize action now) := before.record_of_interest kept now
    have still : (s.recorded now action).history.isInteresting action = true := by
      rw [recorded, History.isInteresting_push, interest, decide_eq_false kept]
      rfl
    rcases s.dispatch_cases now outage action with ⟨_, failed, after⟩ | ⟨done, after⟩
    · rw [after, forgetting_history, if_pos still, recorded, failed]
      exact before.discard positive _
    · rw [after, done]
      dsimp only
      rw [recorded]
      exact before.push positive _

theorem reflects_move (before : s.history.Reflects capacity uninteresting past)
    (positive : 0 < capacity) (m : Move) :
    (s.move m).history.Reflects capacity uninteresting (past ++ s.attempt uninteresting m) := by
  cases m with
  | dispatch now outage action => exact reflects_dispatch before positive now outage action
  | restore =>
    rw [attempt, List.append_nil, move]
    split
    next restored read => rwa [restored_history read]
    · exact before

theorem reflects_moved (before : s.history.Reflects capacity uninteresting past)
    (positive : 0 < capacity) (moves : List Move) :
    (s.moved moves).history.Reflects capacity uninteresting
      (past ++ s.attempts uninteresting moves) := by
  induction moves generalizing s past with
  | nil => rwa [attempts, List.append_nil]
  | cons m moves ih =>
    rw [attempts, ← List.append_assoc]
    exact ih (reflects_move before positive m)

/-! ### Reports -/

theorem lastActions_of_detect {d : Diagnostics} {action : Action} {before after : Store}
    {report : Report} (found : d.detect action before after = some report) :
    report.lastActions = d.history := by
  unfold Diagnostics.detect at found
  split at found
  · cases found
  · cases found
    rfl

theorem lastActions_of_reduce {d : Diagnostics} {store : Store} {action : Action} {report : Report}
    (told : report ∈ (store.reduce d action).reports) : report.lastActions = d.history := by
  by_cases correction : ∃ requests, action = .processServerRequests requests
  · obtain ⟨requests, rfl⟩ := correction
    rw [Store.reduce, Store.correct_reports, Option.mem_toList] at told
    obtain ⟨changes, _, found⟩ := Option.bind_eq_some_iff.mp told
    exact lastActions_of_detect found
  · rw [Store.reports_eq_nil d store fun requests same => correction ⟨requests, same⟩] at told
    cases told

/-- The history that ends with an action is what a report of the action lists. -/
theorem lastActions_of_report {now : Int64} {outage : Outage} {action : Action} {r : Reduction}
    (done : (s.dispatch now outage action).result = .ok r) {report : Report}
    (told : report ∈ r.reports) :
    report.lastActions = (s.dispatch now outage action).session.history.summaries := by
  obtain ⟨rfl, after⟩ := dispatch_eq_ok done
  rw [after]
  exact lastActions_of_reduce told

/--
The history holds the latest of the actions of interest that were written, the oldest first: as many
as there is room for if the latest action of interest was written, and otherwise one less. A report
of an action lists the history with the action in it, so that an action of interest comes last.
-/
theorem history_of_run {s : Session} {capacity : Nat} {uninteresting : List String}
    (blank : s.history = .new capacity uninteresting) (moves : List Move) :
    let attempts := s.attempts uninteresting moves
    let kept := Attempt.written attempts
    let room := max capacity 1
    let reached := s.moved moves
    reached.history.summaries =
        (if Attempt.settled attempts then kept.rtake (min kept.length room)
        else kept.rtake (min kept.length (room - 1))) ∧
      ∀ (now : Int64) (outage : Outage) (action : Action) (r : Reduction),
        (reached.dispatch now outage action).result = .ok r → ∀ report ∈ r.reports,
          report.lastActions = (reached.dispatch now outage action).session.history.summaries ∧
            (action.typeName ∉ uninteresting →
              report.lastActions.getLast? = some (History.summarize action now)) := by
  intro attempts kept room reached
  have positive : 0 < room := by omega
  have start : s.history.Reflects room uninteresting [] := by
    rw [blank]
    exact History.reflects_new capacity uninteresting
  have reflects : reached.history.Reflects room uninteresting attempts :=
    reflects_moved start positive moves
  constructor
  · rw [reflects.summaries_eq, History.depth]
    split <;> rw [History.rtake_min]
  · intro now outage action r done report told
    have listed := lastActions_of_report done told
    refine ⟨listed, fun interesting => ?_⟩
    have after := (dispatch_eq_ok done).2
    have recorded := reflects.record_of_interest interesting now
    rw [listed, after]
    dsimp only
    rw [recorded_history, recorded]
    exact List.getLast?_concat

/--
Two actions are written and fill the history, and two are not, of which only the first costs an
entry; saved messages do not count. The correction that comes next is reported with what is left.
-/
theorem history_of_run_failing :
    let db : Database := { Database.fresh with refusedInserts := ["bad"] }
    let settings := { Settings.standard with capacity := 2, uninteresting := ["SAVE_MESSAGES"] }
    let s := Session.new settings (some db)
    let join (id : String) : Action := .updates .joinThread ⟨1, [.joinThread "e" 1 (.new id 3 0)]⟩
    let moves : List Move :=
      [.restore, .dispatch 1 .none (join "a"), .dispatch 2 .none (join "b"),
        .dispatch 3 .none (join "bad"), .dispatch 4 .none (.saveMessages [] 0),
        .dispatch 5 .none (join "bad")]
    let check : Action := .processServerRequests [.checkState ∅ (some ⟨none, some ["a"]⟩)]
    s.history = .new 2 ["SAVE_MESSAGES"] ∧
      (s.attempts ["SAVE_MESSAGES"] moves).map (·.2) = [true, true, false, false] ∧
      (s.moved moves).history.summaries = [History.summarize (join "b") 2] ∧
      check.typeName ∉ ["SAVE_MESSAGES"] ∧
      ∃ r report, ((s.moved moves).dispatch 6 .none check).result = .ok r ∧ report ∈ r.reports ∧
        report.lastActions =
          ((s.moved moves).dispatch 6 .none check).session.history.summaries ∧
        report.lastActions.getLast? = some (History.summarize check 6) := by
  intro db settings s join moves check
  have blank : s.history = .new 2 ["SAVE_MESSAGES"] := rfl
  have interesting : check.typeName ∉ ["SAVE_MESSAGES"] := by decide
  obtain ⟨held, reported⟩ := history_of_run blank moves
  have attempted : (s.attempts ["SAVE_MESSAGES"] moves).map (·.2) = [true, true, false, false] := by
    decide +kernel
  have room : (s.moved moves).history.summaries = [History.summarize (join "b") 2] := by
    rw [held]
    decide +kernel
  rcases (s.moved moves).dispatch_cases 6 .none check with ⟨cause, failed, _⟩ | ⟨done, _⟩
  · have written : ((s.moved moves).dispatch 6 .none check).result.isOk = true := by decide +kernel
    rw [failed] at written
    cases written
  · obtain ⟨report, told⟩ := List.exists_mem_of_ne_nil ((s.moved moves).reduction 6 check).reports
      (by decide +kernel)
    obtain ⟨listed, last⟩ := reported 6 .none check _ done report told
    exact ⟨blank, attempted, room, interesting, _, report, done, told, listed, last interesting⟩

end Session

end ThreadCache
