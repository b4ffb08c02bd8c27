import ThreadCache.Json.Basic
import ThreadCache.Thread

/-!
# Inconsistency reports

What is sent for diagnosis when a client turns out to have drifted from the server.
-/

namespace ThreadCache

structure Platform where
  platform : String
  codeVersion : Option UInt32
  stateVersion : Option UInt32
  deriving DecidableEq

/-- The client's platform when nothing is configured. -/
def Platform.standard : Platform := ⟨"linux", none, none⟩

structure ActionSummary where
  typeName : String
  time : Int64
  summary : String
  deriving DecidableEq

inductive ReportKind
  | threadInconsistency
  deriving DecidableEq, Repr

def ReportKind.name : ReportKind → String
  | .threadInconsistency => "THREAD_INCONSISTENCY"

/-- The threads before and after a correction, the action that brought it, and the history. -/
structure Report where
  kind : ReportKind
  platform : Platform
  beforeAction : Store
  action : Json
  pushResult : Store
  lastActions : List ActionSummary
  time : Int64
  deriving DecidableEq

end ThreadCache
