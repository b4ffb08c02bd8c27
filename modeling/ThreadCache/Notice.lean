/-!
# Notices

What the library tells its operator beside its results, and the wording.
-/

namespace ThreadCache

inductive Level
  | info
  | warn
  | error
  deriving DecidableEq, Repr

def Level.name : Level → String
  | .info => "INFO"
  | .warn => "WARN"
  | .error => "ERROR"

inductive Notice
  | strayKey (id key : String)
  | unknownSubscription (id : String)
  | unknownUnreadChange (id : String)
  | unknownUnreadConfirmation (id : String)
  | inconsistency (typeName : String) (before after : Nat)
  | reportsProduced (typeName : String) (count : Nat)
  | persistFailed (operations : Nat) (typeName : String)
  deriving DecidableEq, Repr

namespace Notice

def level : Notice → Level
  | .persistFailed .. => .error
  | _ => .warn

def message : Notice → String
  | .strayKey id key =>
    "Full sync keyed thread " ++ id ++ " under " ++ key ++ ", using the record's id"
  | .unknownSubscription id => "Subscription update for unknown thread " ++ id ++ ", ignoring"
  | .unknownUnreadChange id => "Unread status change for unknown thread " ++ id ++ ", ignoring"
  | .unknownUnreadConfirmation id =>
    "Unread status confirmation for unknown thread " ++ id ++ ", ignoring"
  | .inconsistency typeName before after =>
    "Thread inconsistency detected after " ++ typeName ++ ": " ++ toString before ++
      " threads before, " ++ toString after ++ " after"
  | .reportsProduced typeName count =>
    typeName ++ " produced " ++ toString count ++ " thread inconsistency report(s)"
  | .persistFailed operations typeName =>
    "Failed to persist " ++ toString operations ++ " operations for " ++ typeName

end Notice

end ThreadCache
