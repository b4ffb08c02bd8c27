import ThreadCache.Proofs.Redaction
import ThreadCache.Proofs.Session.Failure
import ThreadCache.Proofs.Session.Turns

/-!
# Cookies stay out of sight

The cookie that comes with a new session is a credential. It may be part of an action, but nothing
that an action leaves behind may depend on it.

## Main result

`cookies_unseen`: runs that differ in their cookies and in the times of their turns alone go alike,
failures included; and where cookies are secret, a report of a new session does not tell them apart.

## Proof strategy

An action is compared by what is left of it without its cookie. The kind of an action, its summary
and its reduction are those of what is left (`dispatch_withoutCookie`), so two runs take the same
actions as far as a session can see. What remains is that times show nowhere but in the history and
in reports, whether a turn fails or not (`Alike.dispatch_alike`). A report holds its action as JSON
with every value under a secret name masked, which leaves nothing of a cookie
(`shown_setNewSession`).
-/

namespace ThreadCache

open Cache (CacheError Database Outage)

/-! ### Actions without their cookies -/

def Action.withoutCookie : Action → Action
  | .setNewSession change => .setNewSession { change with cookie := none }
  | action => action

/-- The turns differ in their times and in their cookies alone, and the same fails in them. -/
structure Turn.SameButCookie (turn turn' : Turn) : Prop where
  action : turn.action.withoutCookie = turn'.action.withoutCookie
  outage : turn.outage = turn'.outage

/-- No part of a dispatch looks at a cookie. -/
theorem Session.dispatch_withoutCookie (s : Session) (now : Int64) (outage : Outage)
    (action : Action) :
    s.dispatch now outage action.withoutCookie = s.dispatch now outage action := by
  cases action <;> rfl

/-! ### One turn -/

/-- The dispatches leave sessions that are alike and tell the same, as it shows through a blur. -/
structure Dispatch.Alike (b : Blur) (d d' : Dispatch) : Prop where
  session : d.session.Alike b d'.session
  threads : d.threads = d'.threads
  notices : d.notices = d'.notices
  result : d.result.map (·.shown b) = d'.result.map (·.shown b)

theorem History.timeless_withRoomFor (h : History) (action : Action) :
    (h.withRoomFor action).timeless = h.timeless.withRoomFor action := by
  unfold withRoomFor
  -- Room is made by the kind of the action and by how many entries there are, not by their times.
  have kept : h.timeless.isInteresting action = h.isInteresting action := rfl
  have many : h.timeless.summaries.length = h.summaries.length := List.length_map ..
  have capacity : h.timeless.capacity = h.capacity := rfl
  rw [kept, many, capacity]
  split
  · simp only [timeless, List.map_tail]
  · rfl

namespace Session

theorem announced_shown (b : Blur) (action : Action) (r : Reduction) :
    announced action (r.shown b) = announced action r := by
  simp only [announced, Reduction.shown, List.isEmpty_map, List.length_map]

/-- What is left of sessions that are alike after an action that could not be written is alike. -/
theorem Alike.forgetting_recorded {s t : Session} (alike : s.Alike .timeless t) (now now' : Int64)
    (action : Action) :
    ((s.recorded now action).forgetting action).Alike .timeless
      ((t.recorded now' action).forgetting action) := by
  rw [Session.forgetting_recorded, Session.forgetting_recorded]
  have history : (s.history.withRoomFor action).timeless =
      (t.history.withRoomFor action).timeless := by
    rw [History.timeless_withRoomFor, History.timeless_withRoomFor]
    exact congrArg (·.withRoomFor action) alike.history
  exact ⟨alike.store, history, alike.secrets, alike.platform, alike.database⟩

/-- Sessions that are alike make the same of an action, at whatever times and if it fails too. -/
theorem Alike.dispatch_alike {s t : Session} (alike : s.Alike .timeless t) (now now' : Int64)
    (outage : Outage) (action : Action) :
    (s.dispatch now outage action).Alike .timeless (t.dispatch now' outage action) := by
  have reduced := alike.reduction now now' trivial action
  obtain ⟨threads, operations, _, notices⟩ := Reduction.shown_eq_iff.mp reduced
  rw [dispatch_eq, dispatch_eq, alike.persisted_reduction now now' trivial outage action]
  cases t.persisted outage (t.reduction now' action).operations with
  | error cause =>
    refine ⟨alike.forgetting_recorded now now' action, ?_, ?_, rfl⟩
    · exact congrArg TracedStore.unchanged alike.store
    · dsimp only
      rw [operations, notices]
  | ok database =>
    refine ⟨⟨?_, ?_, alike.secrets, alike.platform, rfl⟩, threads, ?_, congrArg Except.ok reduced⟩
    · exact congrArg TracedStore.store threads
    · exact Blur.timeless.same_record action alike.history trivial
    · dsimp only
      rw [notices, ← announced_shown .timeless, reduced, announced_shown]

theorem Alike.dispatch_cookie {s t : Session} (alike : s.Alike .timeless t) {turn turn' : Turn}
    (same : turn.SameButCookie turn') :
    (s.dispatch turn.now turn.outage turn.action).Alike .timeless
      (t.dispatch turn'.now turn'.outage turn'.action) := by
  rw [← s.dispatch_withoutCookie, ← t.dispatch_withoutCookie, same.action, same.outage]
  exact alike.dispatch_alike turn.now turn'.now turn'.outage turn'.action.withoutCookie

/-! ### Runs -/

/-- What comes of each of the turns, whether they fail or not. -/
def dispatches (s : Session) : List Turn → List Dispatch
  | [] => []
  | turn :: turns =>
    s.dispatch turn.now turn.outage turn.action :: (s.after turn).dispatches turns

/-- Turns that differ in their times and cookies alone go alike, one by one. -/
theorem Alike.dispatches {s t : Session} (alike : s.Alike .timeless t) {turns turns' : List Turn}
    (same : List.Forall₂ Turn.SameButCookie turns turns') :
    List.Forall₂ (Dispatch.Alike .timeless) (s.dispatches turns) (t.dispatches turns') := by
  -- The induction is on the pairs of turns, and carries the sessions before the next pair.
  induction same generalizing s t with
  | nil => exact .nil
  | cons first _ ih =>
    have told := alike.dispatch_cookie first
    exact .cons told (ih told.session)

end Session

/-! ### Reports -/

namespace Wire

open Fields (required nullable)

theorem write_setNewSession (change : SessionChange) :
    action.write (.setNewSession change) = .ofEntries
      [("type", .string "SET_NEW_SESSION"),
        ("sessionChange", .ofEntries
          [("cookieInvalidated", .bool change.cookieInvalidated),
            ("cookie", (Desc.optional .text).write change.cookie)])] := by
  simp [action, actionVariants, fullSyncVariant, endSessionVariant, sessionChange, required,
    nullable, tagKey, Desc.write, Desc.encode, Variants.encode, Fields.encode, Document.value,
    Document.valueEntries]

end Wire

namespace Diagnostics

/-- Where cookies are secret, a new session is shown without its cookie. -/
theorem shown_setNewSession {d : Diagnostics} (secret : "cookie" ∈ d.secrets)
    (change : SessionChange) :
    d.shown (.setNewSession change) = d.shown (.setNewSession { change with cookie := none }) := by
  -- The cookie stands in an object inside an object, which may be secret as a whole.
  have inner : redact d.secrets (.ofEntries
        [("cookieInvalidated", .bool change.cookieInvalidated),
          ("cookie", (Wire.Desc.optional .text).write change.cookie)]) =
      redact d.secrets (.ofEntries
        [("cookieInvalidated", .bool change.cookieInvalidated),
          ("cookie", (Wire.Desc.optional .text).write none)]) := by
    simp only [redact_ofEntries, redactEntries_cons, redactUnder_of_mem secret]
  unfold shown
  rw [Wire.write_setNewSession, Wire.write_setNewSession]
  simp only [redact_ofEntries, redactEntries_cons, redactUnder] at inner ⊢
  rw [inner]

theorem shown_withoutCookie {d : Diagnostics} (secret : "cookie" ∈ d.secrets) (action : Action) :
    d.shown action.withoutCookie = d.shown action := by
  cases action with
  | setNewSession change => exact (shown_setNewSession secret change).symm
  | _ => rfl

theorem detect_withoutCookie {d : Diagnostics} (secret : "cookie" ∈ d.secrets) (action : Action)
    (before after : Store) :
    d.detect action.withoutCookie before after = d.detect action before after := by
  unfold detect
  rw [shown_withoutCookie secret]

/-- Where cookies are no secret, a new session is shown with its cookie. -/
example :
    let d : Diagnostics := ⟨[], ["token"], .standard, 0⟩
    d.shown (.setNewSession ⟨true, some "a"⟩) ≠ d.shown (.setNewSession ⟨true, none⟩) := by
  decide +kernel

end Diagnostics

namespace Session

/--
No two runs of a session that differ in their cookies and in the times of their turns alone can be
told apart: turn by turn they leave the same threads in memory and in the database and histories
that differ in their times at most, and they end in the same failure or make the same operations
and write reports that differ in their times at most. And should a new session ever be reported,
then, where cookies are secret, its cookie is not part of the report.
-/
theorem cookies_unseen (s : Session) :
    (∀ turns turns' : List Turn, List.Forall₂ Turn.SameButCookie turns turns' →
      List.Forall₂ (Dispatch.Alike .timeless) (s.dispatches turns) (s.dispatches turns')) ∧
    ∀ (d : Diagnostics) (action action' : Action) (before after : Store), "cookie" ∈ d.secrets →
      action.withoutCookie = action'.withoutCookie →
        d.detect action before after = d.detect action' before after := by
  constructor
  · intro turns turns' same
    have itself : s.Alike .timeless s := ⟨rfl, rfl, rfl, rfl, rfl⟩
    exact itself.dispatches same
  · intro d action action' before after secret same
    rw [← Diagnostics.detect_withoutCookie secret action, same,
      Diagnostics.detect_withoutCookie secret action']

/--
Two runs with other cookies and other times, in which a correction is reported and the end of the
session cannot be written.
-/
theorem cookies_unseen_rotated :
    let s := Session.new .standard (some .fresh)
    let joined : Action := .updates .joinThread ⟨1, [.joinThread "e" 1 (.new "t" 3 0)]⟩
    let corrected : Action := .processServerRequests [.checkState ∅ (some ⟨none, some ["t"]⟩)]
    let turns (start : Int64) (first second : String) : List Turn :=
      [⟨start, .none, joined⟩, ⟨start + 1, .none, .setNewSession ⟨false, some first⟩⟩,
        ⟨start + 2, fun _ => true, .setNewSession ⟨true, some second⟩⟩,
        ⟨start + 3, .none, corrected⟩]
    let d : Diagnostics := ⟨[], ["cookie"], .standard, 0⟩
    let before := Store.ofThreads [.new "t" 3 0]
    List.Forall₂ (Dispatch.Alike .timeless) (s.dispatches (turns 0 "a" "b"))
        (s.dispatches (turns 7 "c" "d")) ∧
      (s.dispatches (turns 0 "a" "b")).map (·.result.isOk) = [true, true, false, true] ∧
      ((s.dispatches (turns 0 "a" "b")).map fun dispatch =>
        dispatch.result.toOption.map fun r => r.reports.length) =
          [some 0, some 0, none, some 1] ∧
      (d.detect (.setNewSession ⟨true, some "a"⟩) before ∅).isSome ∧
      d.detect (.setNewSession ⟨true, some "a"⟩) before ∅ =
        d.detect (.setNewSession ⟨true, some "b"⟩) before ∅ := by
  intro s joined corrected turns d before
  obtain ⟨runs, reports⟩ := cookies_unseen s
  have same : List.Forall₂ Turn.SameButCookie (turns 0 "a" "b") (turns 7 "c" "d") :=
    .cons ⟨rfl, rfl⟩ (.cons ⟨rfl, rfl⟩ (.cons ⟨rfl, rfl⟩ (.cons ⟨rfl, rfl⟩ .nil)))
  refine ⟨runs _ _ same, by decide +kernel, by decide +kernel, by decide +kernel, ?_⟩
  exact reports d _ _ before ∅ (by decide) rfl

end Session

end ThreadCache
