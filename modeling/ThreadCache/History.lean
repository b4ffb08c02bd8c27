import ThreadCache.Action
import ThreadCache.Report

/-!
# The action history

A bounded log of the latest actions, from which kinds that nobody wants to hear of are left out.
-/

namespace ThreadCache

/-- The latest summaries, the oldest first. -/
structure History where
  capacity : Nat
  uninteresting : List String
  summaries : List ActionSummary

namespace History

/-- An empty history that has room for at least one action. -/
def new (capacity : Nat) (uninteresting : List String) : History :=
  ⟨max capacity 1, uninteresting, []⟩

def isInteresting (h : History) (action : Action) : Bool :=
  !h.uninteresting.contains action.typeName

def summarize (action : Action) (time : Int64) : ActionSummary :=
  ⟨action.typeName, time, action.summary⟩

/-- Appends a summary, dropping the oldest one if there is no room. -/
def push (h : History) (summary : ActionSummary) : History :=
  -- There is never more than fits, so dropping one makes room.
  let room := if h.summaries.length = h.capacity then h.summaries.drop 1 else h.summaries
  { h with summaries := room ++ [summary] }

def record (h : History) (action : Action) (time : Int64) : History :=
  if h.isInteresting action then h.push (summarize action time) else h

def latest? (h : History) : Option ActionSummary := h.summaries.getLast?

/-- Drops the latest summary; what it had displaced does not come back. -/
def discardLatest (h : History) : History := { h with summaries := h.summaries.dropLast }

end History

end ThreadCache
