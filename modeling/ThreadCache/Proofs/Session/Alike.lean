import ThreadCache.Proofs.Session.Agreement

/-!
# Sessions that differ in their histories

A report says when it was made and what had happened before. Neither is anything that two sessions
with the same threads need to have in common, so they are compared with that part left out.

## Main result

`Alike.dispatch`: sessions that are alike make the same operations of an action, write reports that
look the same, and are alike afterwards.

## Proof strategy

What is left out is a `Blur`: relations between times and between histories, of which recording
respects the second, and a view of reports that does not show what is related. A reduction reads
the history in its report only, so everything else about it is the same (`Store.reduce_shown`).
-/

namespace ThreadCache

open Cache (CacheError Database Outage)

/-! ### What is left out -/

/-- A way to look at times, histories and reports. -/
structure Blur where
  sameTime : Int64 → Int64 → Prop
  same : History → History → Prop
  shown : Report → Report
  same_record : ∀ {h h' : History} {time time' : Int64} (action : Action), same h h' →
    sameTime time time' → same (h.record action time) (h'.record action time')
  shown_congr : ∀ {h h' : History} {time time' : Int64} (report : Report), same h h' →
    sameTime time time' →
      shown { report with lastActions := h.summaries, time := time } =
        shown { report with lastActions := h'.summaries, time := time' }

def ActionSummary.timeless (s : ActionSummary) : ActionSummary := { s with time := 0 }

def History.timeless (h : History) : History :=
  { h with summaries := h.summaries.map ActionSummary.timeless }

/-- Recording does not look at the times that are recorded already. -/
theorem History.timeless_record (h : History) (action : Action) (time : Int64) :
    (h.record action time).timeless = h.timeless.record action 0 := by
  unfold record
  -- Whether an action is kept depends on its kind, and whether there is room on how many there are.
  have kept : h.timeless.isInteresting action = h.isInteresting action := rfl
  rw [kept]
  split
  · simp only [push, timeless, List.length_map, List.map_append]
    split
    · rw [List.map_drop]
      rfl
    · rfl
  · rfl

namespace Blur

/-- Reports without their history and without their time. -/
def bare : Blur where
  sameTime _ _ := True
  same _ _ := True
  shown report := { report with lastActions := [], time := 0 }
  same_record _ _ _ := trivial
  shown_congr _ _ _ := rfl

/-- Histories and reports without their times. -/
def timeless : Blur where
  sameTime _ _ := True
  same h h' := h.timeless = h'.timeless
  shown report :=
    { report with lastActions := report.lastActions.map ActionSummary.timeless, time := 0 }
  same_record action same _ := by
    rw [History.timeless_record, History.timeless_record, same]
  shown_congr report same _ := by
    have summaries := congrArg History.summaries same
    simp only [History.timeless] at summaries
    rw [summaries]

/-- Nothing is left out. -/
def exact : Blur where
  sameTime time time' := time = time'
  same h h' := h = h'
  shown report := report
  same_record action same sameTime := by rw [same, sameTime]
  shown_congr report same sameTime := by rw [same, sameTime]

end Blur

/-! ### Reductions -/

/-- The reduction as it shows through a blur. -/
def Reduction.shown (b : Blur) (r : Reduction) : Reduction :=
  { r with reports := r.reports.map b.shown }

@[simp] theorem Reduction.shown_operations (b : Blur) (r : Reduction) :
    (r.shown b).operations = r.operations := rfl

@[simp] theorem Reduction.shown_store (b : Blur) (r : Reduction) :
    (r.shown b).store = r.store := rfl

theorem Reduction.shown_eq_iff {b : Blur} {r r' : Reduction} :
    r.shown b = r'.shown b ↔
      r.threads = r'.threads ∧ r.operations = r'.operations ∧
        r.reports.map b.shown = r'.reports.map b.shown ∧ r.notices = r'.notices := by
  simp only [shown, Reduction.mk.injEq]

/-- Where histories look the same, so do reductions. -/
theorem Store.reduce_shown {b : Blur} {h h' : History} {time time' : Int64} (same : b.same h h')
    (sameTime : b.sameTime time time') (secrets : List String) (platform : Platform) (s : Store)
    (action : Action) :
    (s.reduce ⟨h.summaries, secrets, platform, time⟩ action).shown b =
      (s.reduce ⟨h'.summaries, secrets, platform, time'⟩ action).shown b := by
  -- No other action than a correction looks at the diagnostics, and that for its report alone.
  cases action with
  | processServerRequests requests =>
    refine correct_showing s rfl rfl fun after => ?_
    simp only [Diagnostics.detect]
    split
    · rfl
    · let report : Report := ⟨.threadInconsistency, platform, s,
        redact secrets (Wire.action.write (.processServerRequests requests)), after, [], 0⟩
      exact congrArg some (b.shown_congr report same sameTime)
  | _ => rfl

/-! ### Sessions -/

namespace Session

/-- The sessions have everything in common but what is left out of their histories. -/
structure Alike (b : Blur) (s t : Session) : Prop where
  store : s.store = t.store
  history : b.same s.history t.history
  secrets : s.secrets = t.secrets
  platform : s.platform = t.platform
  database : s.database = t.database

/-- What there is to tell of a reduction, as it shows through a blur. -/
def seen (b : Blur) (r : Reduction) : List StoreOperation × List Report :=
  (r.operations, r.reports.map b.shown)

theorem dispatch_eq_ok {s : Session} {now : Int64} {outage : Outage} {action : Action}
    (done : (s.dispatch now outage action).result = .ok r) :
    r = s.reduction now action ∧ (s.dispatch now outage action).session =
      { s.recorded now action with
        store := r.store
        database := s.database.map (·.after r.operations) } := by
  rcases s.dispatch_cases now outage action with ⟨cause, failed, _⟩ | ⟨result, after⟩
  · rw [failed] at done
    cases done
  · rw [result] at done
    cases done
    exact ⟨rfl, after⟩

theorem Alike.reduction {b : Blur} {s t : Session} (alike : s.Alike b t) (now now' : Int64)
    (sameTime : b.sameTime now now') (action : Action) :
    (s.reduction now action).shown b = (t.reduction now' action).shown b := by
  obtain ⟨store, history, secrets, platform, _⟩ := alike
  have recorded := b.same_record action history sameTime
  change (s.store.reduce ⟨_, s.secrets, s.platform, now⟩ action).shown b =
    (t.store.reduce ⟨_, t.secrets, t.platform, now'⟩ action).shown b
  rw [← store, ← secrets, ← platform]
  exact Store.reduce_shown recorded sameTime s.secrets s.platform s.store action

/-- Sessions that are alike stay alike and tell the same of an action that is written. -/
theorem Alike.dispatch {b : Blur} {s t : Session} (alike : s.Alike b t) {action : Action}
    {now now' : Int64} (sameTime : b.sameTime now now') {outage outage' : Outage} {r r' : Reduction}
    (one : (s.dispatch now outage action).result = .ok r)
    (other : (t.dispatch now' outage' action).result = .ok r') :
    seen b r = seen b r' ∧
      (s.dispatch now outage action).session.Alike b (t.dispatch now' outage' action).session := by
  obtain ⟨rfl, after⟩ := dispatch_eq_ok one
  obtain ⟨rfl, after'⟩ := dispatch_eq_ok other
  -- The reductions differ in their reports only, and there in what does not show.
  have reduced := alike.reduction now now' sameTime action
  have operations := congrArg Reduction.operations reduced
  have stores := congrArg Reduction.store reduced
  simp only [Reduction.shown_operations, Reduction.shown_store] at operations stores
  constructor
  · exact Prod.ext operations (congrArg Reduction.reports reduced)
  · rw [after, after']
    constructor
    · exact stores
    · exact b.same_record action alike.history sameTime
    · exact alike.secrets
    · exact alike.platform
    · dsimp only
      rw [operations, alike.database]

end Session

end ThreadCache
