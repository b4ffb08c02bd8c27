import ThreadCache.Thread

/-!
# Update events

What the server tells of single threads and accounts, one event at a time.
-/

namespace ThreadCache

/-- An event with its own name and time; `unhandled` stands for every kind not known here. -/
inductive UpdateEvent
  | updateThread (id : String) (time : Int64) (thread : Thread)
  | updateReadStatus (id : String) (time : Int64) (threadID : String) (unread : Bool)
  | deleteThread (id : String) (time : Int64) (threadID : String)
  | deleteAccount (id : String) (time : Int64) (userID : String)
  | joinThread (id : String) (time : Int64) (thread : Thread)
  | unhandled
  deriving DecidableEq

/-- A batch of events and the time up to which it is complete. -/
structure UpdatesResult where
  currentAsOf : Int64
  events : List UpdateEvent
  deriving DecidableEq

end ThreadCache
