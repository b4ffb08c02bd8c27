import ThreadCache.History
import ThreadCache.Notice
import ThreadCache.Redaction
import ThreadCache.Wire.Encoding
import ThreadCache.Wire.Format

/-!
# Detecting inconsistency

A correction by the server that changes anything shows that the client had drifted; the drift is
reported, with the action redacted.
-/

namespace ThreadCache

/-- What a report says beside the threads. -/
structure Diagnostics where
  history : List ActionSummary
  secrets : List String
  platform : Platform
  time : Int64

namespace Diagnostics

def shown (d : Diagnostics) (action : Action) : Json := redact d.secrets (Wire.action.write action)

/-- The report of an action that changed the threads; none if it did not. -/
def detect (d : Diagnostics) (action : Action) (before after : Store) : Option Report :=
  if before = after then none
  else
    -- The action is shown without its secrets.
    some {
      kind := .threadInconsistency
      platform := d.platform
      beforeAction := before
      action := d.shown action
      pushResult := after
      lastActions := d.history
      time := d.time }

def noticeOf (action : Action) (report : Report) : Notice :=
  .inconsistency action.typeName report.beforeAction.size report.pushResult.size

end Diagnostics

end ThreadCache
