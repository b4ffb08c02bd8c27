import ThreadCache.Cache.Database
import ThreadCache.Reduction
import ThreadCache.Settings

/-!
# Sessions

A session holds the store, the history and the database, and takes actions one by one. The store
moves on only after the operations of an action are in the database; an action that cannot be
written is forgotten.
-/

namespace ThreadCache

open Cache (CacheError Database Outage)

structure Session where
  store : Store
  history : History
  secrets : List String
  platform : Platform
  database : Option Database

/-- What came of an action: the session after it, what there is to tell, and the reduction. -/
structure Dispatch where
  session : Session
  /-- The store of the session, with what of it was there before the action. -/
  threads : TracedStore
  notices : List Notice
  result : Except CacheError Reduction

namespace Session

def new (settings : Settings) (database : Option Database) : Session where
  store := ∅
  history := .new settings.capacity settings.uninteresting
  secrets := settings.secrets
  platform := settings.platform
  database := database

def diagnostics (s : Session) (now : Int64) : Diagnostics :=
  ⟨s.history.summaries, s.secrets, s.platform, now⟩

def recorded (s : Session) (now : Int64) (action : Action) : Session :=
  { s with history := s.history.record action now }

/-- The session that drops an action from its history again. -/
def forgetting (s : Session) (action : Action) : Session :=
  if s.history.isInteresting action then { s with history := s.history.discardLatest } else s

/-- The database after operations; without operations or a database there is nothing to write. -/
def persisted (s : Session) (outage : Outage) (ops : List StoreOperation) :
    Except CacheError (Option Database) :=
  match s.database with
  | none => .ok none
  | some db => (db.apply outage ops).map some

def announced (action : Action) (r : Reduction) : List Notice :=
  if r.reports.isEmpty then [] else [.reportsProduced action.typeName r.reports.length]

/-- Takes an action: records it, reduces it and writes its operations to the database. -/
def dispatch (s : Session) (now : Int64) (outage : Outage) (action : Action) : Dispatch :=
  -- The history comes first, so a report lists the action that it is about.
  let s := s.recorded now action
  let r := s.store.reduce (s.diagnostics now) action
  match s.persisted outage r.operations with
  -- Nothing was written, so the threads and the database stay and the action is forgotten.
  | .error cause =>
    { session := s.forgetting action
      threads := .unchanged s.store
      notices := r.notices ++ [.persistFailed r.operations.length action.typeName]
      result := .error cause }
  | .ok database =>
    { session := { s with store := r.store, database := database }
      threads := r.threads
      notices := r.notices ++ announced action r
      result := .ok r }

/-- Takes over the threads in the database; without a database nothing changes. -/
def restore (s : Session) : Except CacheError Session :=
  match s.database with
  | none => .ok s
  | some db => db.load.map fun threads => { s with store := threads }

end Session

end ThreadCache
