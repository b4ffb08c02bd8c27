import ThreadCache.Wire.Decoding
import ThreadCache.Wire.Encoding
import ThreadCache.Wire.Format

/-!
# Rows

A thread as the cache keeps it on disk. Numbers have the width of the columns, and members, roles
and the current user are JSON text.
-/

namespace ThreadCache.Cache

structure Row where
  id : String
  kind : Int64
  name : Option String
  description : Option String
  color : String
  creationTime : Int64
  parent : Option String
  container : Option String
  community : Option String
  members : String
  roles : String
  currentUser : String
  sourceMessage : Option String
  repliesCount : Int64
  deriving DecidableEq

inductive RowError
  | kindOutOfRange (id : String) (kind : Int64)
  | repliesCountOutOfRange (id : String) (count : Int64)
  | column (cause : Wire.DecodeError)
  deriving DecidableEq

def corruptText (id what : String) (n : Int64) : String :=
  "Corrupt thread row " ++ id ++ ": " ++ what ++ " out of range: " ++ toString n.toInt

def RowError.message : RowError → String
  | .kindOutOfRange id kind => corruptText id "thread type" kind
  | .repliesCountOutOfRange id count => corruptText id "replies count" count
  | .column cause => cause.message

namespace Row

def membersDesc : Wire.Desc (List Member) := .list Wire.member

def rolesDesc : Wire.Desc (SortedMap Role) := .map Wire.role

/-- The row that keeps a thread under a name. -/
def ofThread (id : String) (t : Thread) : Row where
  id := id
  kind := .ofNat t.kind.toNat
  name := t.name
  description := t.description
  color := t.color
  creationTime := t.creationTime
  parent := t.parent
  container := t.container
  community := t.community
  members := membersDesc.writeText t.members
  roles := rolesDesc.writeText t.roles
  currentUser := Wire.currentUser.writeText t.currentUser
  sourceMessage := t.sourceMessage
  repliesCount := .ofNat t.repliesCount.toNat

def readColumn {α : Type} (d : Wire.Desc α) (text : String) : Except RowError α :=
  match d.readText text with
  | .ok x => .ok x
  | .error cause => .error (.column cause)

def narrow {α : Type} (form : Wire.IntegerForm α) (fault : RowError) (n : Int64) :
    Except RowError α :=
  match form.ofInt? n.toInt with
  | some x => .ok x
  | none => .error fault

/-- The thread of a row. The numbers are looked at first, and then the columns of JSON text. -/
def thread (r : Row) : Except RowError Thread := do
  let kind ← narrow .u8 (.kindOutOfRange r.id r.kind) r.kind
  let repliesCount ← narrow .u32 (.repliesCountOutOfRange r.id r.repliesCount) r.repliesCount
  let members ← readColumn membersDesc r.members
  let roles ← readColumn rolesDesc r.roles
  let currentUser ← readColumn Wire.currentUser r.currentUser
  return {
    id := r.id
    kind := kind
    name := r.name
    description := r.description
    color := r.color
    creationTime := r.creationTime
    parent := r.parent
    container := r.container
    community := r.community
    members := members
    roles := roles
    currentUser := currentUser
    sourceMessage := r.sourceMessage
    repliesCount := repliesCount }

end Row

end ThreadCache.Cache
