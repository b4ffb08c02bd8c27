import ThreadCache.Update

/-!
# Actions

Everything that can happen to a client's threads: whole snapshots, batches of updates, the end of a
session, messages, server requests and what the user does. Kinds that carry the same payload and
are handled alike share a constructor, with the kind beside the payload.
-/

namespace ThreadCache

/-! ## Payloads -/

/-- A snapshot of every thread, under names chosen by the server. -/
structure FullSync where
  threads : SortedMap Thread
  currentAsOf : Int64
  deriving DecidableEq

structure SessionChange where
  cookieInvalidated : Bool
  cookie : Option String
  deriving DecidableEq

/-- A message that arrived in a thread. -/
structure MessageInfo where
  id : Option String
  threadID : String
  time : Int64
  deriving DecidableEq

/-- What the server wants changed in the client's state. -/
structure StateChanges where
  threads : Option (List Thread)
  deleteIDs : Option (List String)
  deriving DecidableEq

/-- A request of the server; `other` stands for every kind not known here. -/
inductive ServerRequest
  | checkState (hashes : SortedMap Int64) (changes : Option StateChanges)
  | other
  deriving DecidableEq

/-! ## Kinds with a common payload -/

inductive FullSyncKind
  | logIn
  | register
  | fullState
  deriving DecidableEq, Repr

inductive UpdatesKind
  | joinThread
  | leaveThread
  | deleteThread
  | changeThreadSettings
  | removeUsersFromThread
  | changeThreadMemberRoles
  | incrementalSync
  | processUpdates
  | newThread
  deriving DecidableEq, Repr

inductive SessionEnd
  | logOut
  | deleteAccount
  deriving DecidableEq, Repr

/-! ## Actions -/

/-- One thing that happened; `unrecognized` stands for every kind not known here. -/
inductive Action
  | fullSync (kind : FullSyncKind) (payload : FullSync)
  | endSession (kind : SessionEnd)
  | setNewSession (change : SessionChange)
  | updates (kind : UpdatesKind) (result : UpdatesResult)
  | updateSubscription (threadID : String) (subscription : Subscription)
  | saveMessages (messages : List MessageInfo) (currentAsOf : Int64)
  | processServerRequests (requests : List ServerRequest)
  | updateActivity (unfocusedToUnread : List String)
  | startUnreadStatus (threadID : String) (unread : Bool)
  | confirmUnreadStatus (threadID : String) (resetToUnread : Bool)
  | setThreadStore (store : Store)
  | unrecognized
  deriving DecidableEq

def FullSyncKind.name : FullSyncKind → String
  | .logIn => "LOG_IN_SUCCESS"
  | .register => "REGISTER_SUCCESS"
  | .fullState => "FULL_STATE_SYNC"

def UpdatesKind.name : UpdatesKind → String
  | .joinThread => "JOIN_THREAD_SUCCESS"
  | .leaveThread => "LEAVE_THREAD_SUCCESS"
  | .deleteThread => "DELETE_THREAD_SUCCESS"
  | .changeThreadSettings => "CHANGE_THREAD_SETTINGS_SUCCESS"
  | .removeUsersFromThread => "REMOVE_USERS_FROM_THREAD_SUCCESS"
  | .changeThreadMemberRoles => "CHANGE_THREAD_MEMBER_ROLES_SUCCESS"
  | .incrementalSync => "INCREMENTAL_STATE_SYNC"
  | .processUpdates => "PROCESS_UPDATES"
  | .newThread => "NEW_THREAD_SUCCESS"

def SessionEnd.name : SessionEnd → String
  | .logOut => "LOG_OUT_SUCCESS"
  | .deleteAccount => "DELETE_ACCOUNT_SUCCESS"

/-- The changes asked for by the first state check among the requests; later checks are ignored. -/
def ServerRequest.stateChanges? : List ServerRequest → Option StateChanges
  | [] => none
  | .checkState _ changes :: _ => changes
  | .other :: rest => stateChanges? rest

namespace Action

def typeName : Action → String
  | .fullSync kind _ => kind.name
  | .endSession kind => kind.name
  | .setNewSession _ => "SET_NEW_SESSION"
  | .updates kind _ => kind.name
  | .updateSubscription .. => "UPDATE_SUBSCRIPTION_SUCCESS"
  | .saveMessages .. => "SAVE_MESSAGES"
  | .processServerRequests _ => "PROCESS_SERVER_REQUESTS"
  | .updateActivity _ => "UPDATE_ACTIVITY_SUCCESS"
  | .startUnreadStatus .. => "SET_THREAD_UNREAD_STATUS_STARTED"
  | .confirmUnreadStatus .. => "SET_THREAD_UNREAD_STATUS_SUCCESS"
  | .setThreadStore _ => "SET_THREAD_STORE"
  | .unrecognized => "UNRECOGNIZED"

def events? : Action → Option (List UpdateEvent)
  | .updates _ result => some result.events
  | _ => none

/-- A line about the action that holds no secret: counts, thread names and flags. -/
def summary : Action → String
  | .fullSync _ payload => toString payload.threads.size ++ " threads"
  | .endSession _ => ""
  | .setNewSession change => "cookie invalidated: " ++ toString change.cookieInvalidated
  | .updates _ result => toString result.events.length ++ " updates"
  | .updateSubscription threadID _ => "thread " ++ threadID
  | .saveMessages messages _ => toString messages.length ++ " messages"
  | .processServerRequests requests => toString requests.length ++ " server requests"
  | .updateActivity ids => toString ids.length ++ " threads set to unread"
  | .startUnreadStatus threadID unread => "thread " ++ threadID ++ " unread: " ++ toString unread
  | .confirmUnreadStatus threadID reset =>
    "thread " ++ threadID ++ " reset to unread: " ++ toString reset
  | .setThreadStore store => toString store.size ++ " threads"
  | .unrecognized => ""

end Action

end ThreadCache
