import ThreadCache.Inconsistency
import ThreadCache.Store.Folding

/-!
# Reducing actions

What an action does to the store: the operations that lead to the next store, the next store with
what came through untouched, and what there is to report. All but the adoption of a whole store
happens through operations alone.
-/

namespace ThreadCache

structure Reduction where
  threads : TracedStore
  operations : List StoreOperation
  reports : List Report
  notices : List Notice

namespace Reduction

def store (r : Reduction) : Store := r.threads.store

def unchanged (s : Store) (notices : List Notice) : Reduction := ⟨.unchanged s, [], [], notices⟩

/-- The store after operations; without any it is the same store. -/
def ofOperations (s : Store) (ops : List StoreOperation) (notices : List Notice) : Reduction :=
  ⟨.reconciled s ops, ops, [], notices⟩

end Reduction

namespace Store

/-! ## Sessions -/

/-- A snapshot replaces everything, each of its threads going under its own name. -/
def fullSync (s : Store) (payload : FullSync) : Reduction :=
  -- A thread under a foreign name is taken all the same, under its own.
  let stray := payload.threads.entries.filter fun entry => entry.1 ≠ entry.2.id
  .ofOperations s (.removeAll :: payload.threads.values.map .put)
    (stray.map fun entry => .strayKey entry.2.id entry.1)

/-- The end of a session empties the store; an empty one is left alone. -/
def clear (s : Store) : Reduction :=
  .ofOperations s (if s.isEmpty then [] else [.removeAll]) []

/-! ## Updates -/

def update (s : Store) (events : List UpdateEvent) : Reduction :=
  .ofOperations s (s.fold events).operations []

/-! ## The current user -/

def subscribe (s : Store) (id : String) (subscription : Subscription) : Reduction :=
  match s.get? id with
  | none => .unchanged s [.unknownSubscription id]
  | some thread => .ofOperations s [.put (thread.withSubscription subscription)] []

/-- The time of the latest message in each thread. -/
def latestTimes (messages : List MessageInfo) : SortedMap Int64 :=
  messages.foldl (fun times message =>
    let time := match times.get? message.threadID with
      | none => message.time
      | some earlier => if earlier ≤ message.time then message.time else earlier
    times.insert message.threadID time) ∅

/-- The thread under a name, marked as unread; none if there is no such thread or it is unread. -/
def raised? (s : Store) (id : String) : Option Thread :=
  match s.get? id with
  | none => none
  | some thread => if thread.unread then none else some (thread.withUnread true)

/-- Threads with a message that is not older than the state of the updates become unread. -/
def saveMessages (s : Store) (messages : List MessageInfo) (currentAsOf : Int64) : Reduction :=
  let threads := (latestTimes messages).entries.filterMap fun entry =>
    if currentAsOf ≤ entry.2 then s.raised? entry.1 else none
  .ofOperations s (threads.map .put) []

/-- The listed threads become unread, each once and in the order of the names. -/
def raise (s : Store) (ids : List String) : Reduction :=
  let threads := (SortedMap.ofList (ids.map fun id => (id, ()))).keys.filterMap s.raised?
  .ofOperations s (threads.map .put) []

def startUnreadStatus (s : Store) (id : String) (unread : Bool) : Reduction :=
  match s.get? id with
  | none => .unchanged s [.unknownUnreadChange id]
  | some thread => .ofOperations s [.put (thread.withUnread unread)] []

/-- The server has the last word: a thread that it reset becomes unread. -/
def confirmUnreadStatus (s : Store) (id : String) (resetToUnread : Bool) : Reduction :=
  match s.get? id with
  | none => .unchanged s [.unknownUnreadConfirmation id]
  | some thread =>
    if resetToUnread && !thread.unread then .ofOperations s [.put (thread.withUnread true)] []
    else .unchanged s []

/-! ## Server corrections -/

/-- The operations of a correction: the threads that the server sent, and then its deletions. -/
def correction (changes : StateChanges) : List StoreOperation :=
  (changes.threads.getD []).map .put ++
    match changes.deleteIDs with
    | some ids => [.remove ids]
    | none => []

/-- A correction, and a report if it changed anything. -/
def correct (d : Diagnostics) (s : Store) (action : Action) (requests : List ServerRequest) :
    Reduction :=
  match ServerRequest.stateChanges? requests with
  | none => .unchanged s []
  | some changes =>
    let r := Reduction.ofOperations s (correction changes) []
    -- The report compares the threads before and after, not the operations.
    match d.detect action s r.store with
    | none => r
    | some report => { r with reports := [report], notices := [Diagnostics.noticeOf action report] }

/-! ## All actions -/

def reduce (d : Diagnostics) (s : Store) (action : Action) : Reduction :=
  match action with
  | .fullSync _ payload => s.fullSync payload
  | .endSession _ => s.clear
  | .setNewSession change => if change.cookieInvalidated then s.clear else .unchanged s []
  | .updates _ result => s.update result.events
  | .updateSubscription id subscription => s.subscribe id subscription
  | .saveMessages messages currentAsOf => s.saveMessages messages currentAsOf
  | .processServerRequests requests => s.correct d action requests
  | .updateActivity ids => s.raise ids
  | .startUnreadStatus id unread => s.startUnreadStatus id unread
  | .confirmUnreadStatus id reset => s.confirmUnreadStatus id reset
  | .setThreadStore store => ⟨.adopted store, [], [], []⟩
  | .unrecognized => .unchanged s []

end Store

end ThreadCache
