import ThreadCache.Store.Reconciliation
import ThreadCache.Update

/-!
# Folding update events

A batch of events is folded over the threads from left to right, so that an event sees what the
earlier ones did. Each event that changes something yields the operations that say so; an event
about a thread that is not there, or that changes nothing, yields none.
-/

namespace ThreadCache

namespace Folding

/-- The threads in the middle of a fold, those that the fold has written marked as fresh. -/
abbrev Working := SortedMap (Traced Thread)

structure Step where
  threads : Working
  operations : List StoreOperation

def idle (w : Working) : Step := ⟨w, []⟩

/-- A thread as the server has it, written under its own name unless it is there already. -/
def write (w : Working) (thread : Thread) : Step :=
  if (w.get? thread.id).map Traced.value = some thread then idle w
  else ⟨w.insert thread.id (.fresh thread), [.put thread]⟩

/-- A read status, written under the name that the event uses. -/
def mark (w : Working) (id : String) (unread : Bool) : Step :=
  match w.get? id with
  | none => idle w
  | some held =>
    if held.value.unread = unread then idle w
    else
      -- The record keeps its own name, whichever name it was found under.
      let thread := held.value.withUnread unread
      ⟨w.insert id (.fresh thread), [.put thread]⟩

def delete (w : Working) (id : String) : Step :=
  if w.contains id then ⟨w.erase id, [.remove [id]]⟩ else idle w

/-- The threads that lose a member, from one walk over the threads before any of them is written. -/
def shrunk (w : Working) (user : String) : List Thread :=
  w.values.filterMap fun held => held.value.withoutMember? user

def expel (w : Working) (user : String) : Step :=
  let threads := shrunk w user
  ⟨w.insertMany (threads.map fun t => (t.id, .fresh t)), threads.map .put⟩

def step (w : Working) : UpdateEvent → Step
  | .updateThread _ _ thread => write w thread
  | .joinThread _ _ thread => write w thread
  | .updateReadStatus _ _ threadID unread => mark w threadID unread
  | .deleteThread _ _ threadID => delete w threadID
  | .deleteAccount _ _ userID => expel w userID
  | .unhandled => idle w

/-- Events in order, with their operations in the same order. -/
def run (w : Working) : List UpdateEvent → Step
  | [] => idle w
  | event :: events =>
    let first := step w event
    let others := run first.threads events
    ⟨others.threads, first.operations ++ others.operations⟩

end Folding

/-- The threads after a batch of events and the operations that lead there. -/
def Store.fold (s : Store) (events : List UpdateEvent) : Folding.Step :=
  Folding.run (s.map .kept) events

namespace Folding.Step

def store (s : Folding.Step) : Store := s.threads.map Traced.value

def sameMap (s : Folding.Step) : Bool := s.operations.isEmpty

/-- The names of the threads that the fold neither wrote nor removed. -/
def keptKeys (s : Folding.Step) : List String :=
  (s.threads.entries.filter fun entry => entry.2.isKept).map (·.1)

end Folding.Step

end ThreadCache
