import ThreadCache.SortedMap

/-!
# Chat threads

The record that a client keeps of a thread: its place among other threads, its members and roles,
and what the thread is to the current user.
-/

namespace ThreadCache

/-- Whether something is permitted, and the thread that the permission comes from. -/
structure Permission where
  value : Bool
  source : Option String
  deriving DecidableEq

structure Member where
  id : String
  role : Option String
  permissions : SortedMap Permission
  isSender : Bool
  deriving DecidableEq

structure Role where
  id : String
  name : String
  permissions : SortedMap Bool
  isDefault : Bool
  deriving DecidableEq

/-- Where the current user wants to hear of a thread. -/
structure Subscription where
  home : Bool
  pushNotifs : Bool
  deriving DecidableEq

/-- What a thread is to the current user. -/
structure CurrentUser where
  role : Option String
  permissions : SortedMap Permission
  subscription : Subscription
  unread : Bool
  deriving DecidableEq

structure Thread where
  id : String
  kind : UInt8
  name : Option String
  description : Option String
  color : String
  creationTime : Int64
  parent : Option String
  container : Option String
  community : Option String
  members : List Member
  roles : SortedMap Role
  currentUser : CurrentUser
  sourceMessage : Option String
  repliesCount : UInt32
  deriving DecidableEq

namespace Subscription

/-- The subscription of a user who has chosen nothing. -/
def everywhere : Subscription := ⟨true, true⟩

end Subscription

namespace CurrentUser

/-- The current user in a thread that says nothing of them. -/
def initial : CurrentUser := ⟨none, ∅, .everywhere, false⟩

end CurrentUser

namespace Member

/-- A member with a role and no permissions of their own. -/
def new (id : String) (role : Option String) : Member := ⟨id, role, ∅, false⟩

end Member

namespace Thread

/-- The color of a thread that nobody has given one. -/
def defaultColor : String := "a0a0a0"

/-- A thread without name, members or relatives. -/
def new (id : String) (kind : UInt8) (creationTime : Int64) : Thread where
  id := id
  kind := kind
  name := none
  description := none
  color := defaultColor
  creationTime := creationTime
  parent := none
  container := none
  community := none
  members := []
  roles := ∅
  currentUser := .initial
  sourceMessage := none
  repliesCount := 0

def unread (t : Thread) : Bool := t.currentUser.unread

def withUnread (t : Thread) (unread : Bool) : Thread :=
  { t with currentUser := { t.currentUser with unread := unread } }

def withSubscription (t : Thread) (subscription : Subscription) : Thread :=
  { t with currentUser := { t.currentUser with subscription := subscription } }

def hasMember (t : Thread) (user : String) : Bool := t.members.any fun m => m.id == user

/-- The thread with every entry of a user dropped from its members, in their order. -/
def dropMember (t : Thread) (user : String) : Thread :=
  { t with members := t.members.filter fun m => m.id != user }

/-- The thread without a member; none if the user is not among its members. -/
def withoutMember? (t : Thread) (user : String) : Option Thread :=
  if t.hasMember user then some (t.dropMember user) else none

theorem dropMember_eq_self {t : Thread} {user : String} (h : t.hasMember user = false) :
    t.dropMember user = t := by
  have : t.members.filter (fun m => m.id != user) = t.members := by
    simpa [hasMember, List.filter_eq_self] using h
  simp [dropMember, this]

end Thread

/-- The threads that a client knows, each under a name that is normally the thread's own. -/
abbrev Store := SortedMap Thread

namespace Store

def WellKeyed (s : Store) : Prop := ∀ key thread, s.get? key = some thread → thread.id = key

/-- The store of a list of threads, a later one replacing an earlier one of its name. -/
def ofThreads (threads : List Thread) : Store := SortedMap.ofList (threads.map fun t => (t.id, t))

end Store

end ThreadCache
