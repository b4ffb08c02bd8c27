import ThreadCache.Report
import ThreadCache.Text.Blank
import ThreadCache.Text.Digit

/-!
# Settings

Where the cache lives, how much history is kept, what is secret, and what reports say of the
client. Settings start from defaults, take what was chosen over them, and last what the
environment says.
-/

namespace ThreadCache

structure Settings where
  databasePath : Option String
  capacity : Nat
  uninteresting : List String
  secrets : List String
  platform : Platform
  deriving DecidableEq

inductive SettingsError
  | notANumber (text : String)
  | noCapacity
  | noPlatform
  | malformed
  | unreadable
  deriving DecidableEq, Repr

namespace SettingsError

def capacityText (message : String) : String :=
  "invalid value for action_log_capacity: " ++ message

/-- The wording; of a fault in a file it says no more than that there is one. -/
def message : SettingsError → String
  | .notANumber text => capacityText ("not a number: " ++ text)
  | .noCapacity => capacityText "must be greater than zero"
  | .noPlatform => "missing value: platform_details.platform"
  | .malformed => "failed to parse config file"
  | .unreadable => "failed to read config file"

end SettingsError

/-- What was chosen; the rest is left to the defaults. -/
structure Choices where
  databasePath : Option String
  capacity : Option Nat
  uninteresting : Option (List String)
  secrets : Option (List String)
  platform : Option Platform
  deriving DecidableEq

/-- The part of the environment that settings depend on. -/
structure Environment where
  databasePath : Option String
  capacity : Option String
  dataHome : Option String
  home : String
  deriving DecidableEq, Repr

namespace Settings

def standard : Settings where
  databasePath := none
  capacity := 50
  uninteresting := []
  secrets := ["cookie", "password", "deviceToken", "sessionID"]
  platform := .standard

/-- The settings themselves if there is room for history and the platform has a name. -/
def validated (s : Settings) : Except SettingsError Settings :=
  if s.capacity = 0 then .error .noCapacity
  else if s.platform.platform = "" then .error .noPlatform
  else .ok s

def ofChoices (c : Choices) : Except SettingsError Settings :=
  validated {
    databasePath := c.databasePath
    capacity := c.capacity.getD standard.capacity
    uninteresting := c.uninteresting.getD standard.uninteresting
    secrets := c.secrets.getD standard.secrets
    platform := c.platform.getD standard.platform }

/-! ## The environment -/

def capacityLimit : Nat := UInt64.size

/-- The number that decimal digits stand for; none without digits. -/
def natural? (digits : List Char) : Option Nat :=
  if digits ≠ [] ∧ digits.all Text.isDigit then some (Text.numberIn 10 digits) else none

/-- A capacity in the environment: digits, perhaps after a plus, blanks around them aside. -/
def capacity? (text : String) : Option Nat :=
  let n := match Text.trim text.toList with
    | '+' :: digits => natural? digits
    | digits => natural? digits
  n.filter fun n => n < capacityLimit

def capacityIn (env : Environment) (s : Settings) : Except SettingsError Nat :=
  match env.capacity with
  | none => .ok s.capacity
  | some text =>
    match capacity? text with
    | some n => .ok n
    | none => .error (.notANumber text)

/-- The settings after the environment, where an empty path counts as none. -/
def inEnvironment (s : Settings) (env : Environment) : Except SettingsError Settings := do
  -- The environment wins over the file, and what comes of both is checked again.
  let capacity ← s.capacityIn env
  validated { s with
    databasePath := (env.databasePath.filter fun path => path ≠ "") <|> s.databasePath
    capacity := capacity }

/-! ## The database -/

/-- One path under another, with one stroke more between them if there is none yet. -/
def joinPath (parent child : String) : String :=
  if parent.toList.getLast? = some '/' then parent ++ child else parent ++ "/" ++ child

/-- The directory for data, which the environment can only move to an absolute path. -/
def dataDirectory (env : Environment) : String :=
  match env.dataHome with
  | some path =>
    if path.toList.head? = some '/' then path else joinPath env.home ".local/share"
  | none => joinPath env.home ".local/share"

def databaseFile (s : Settings) (env : Environment) : String :=
  s.databasePath.getD (joinPath (dataDirectory env) "threadsync/threads.db")

end Settings

end ThreadCache
