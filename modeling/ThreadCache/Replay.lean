import ThreadCache.Session
import ThreadCache.Settings.File
import ThreadCache.Text.Inert
import ThreadCache.Wire.ActionText

/-!
# Replays

A replay runs the actions of a text, one a line, through a session. Blank lines are passed over,
and a line that is no action is skipped with a notice; a database that fails ends the replay.
-/

namespace ThreadCache

open Cache (CacheError Database Outage)

/-! ## Events -/

inductive ReplayEvent
  | started (path : String) (threads : Nat)
  | skipped (line : Nat) (cause : ActionError)
  | noticed (notice : Notice)
  | reduced (typeName summary : String) (operations : List StoreOperation) (threads : Nat)
  | reported (report : Report)
  | finished (actions threads reports : Nat)

namespace ReplayEvent

/-- What the log says of an event; a report goes elsewhere. -/
def entry? : ReplayEvent → Option (Level × String)
  | .started path threads =>
    some (.info, "Starting replay of " ++ path ++ " with " ++ toString threads ++ " cached threads")
  | .skipped line cause =>
    some (.warn, "Skipping line " ++ toString line ++ ": " ++ cause.message)
  | .noticed notice => some (notice.level, notice.message)
  | .reduced typeName summary operations threads =>
    some (.info, typeName ++ " (" ++ summary ++ "): " ++ toString operations.length ++
      " operations, " ++ toString threads ++ " threads")
  | .reported _ => none
  | .finished actions threads reports =>
    some (.info, "Replayed " ++ toString actions ++ " actions: " ++ toString threads ++
      " threads, " ++ toString reports ++ " inconsistency reports")

/-- The entry of the log for an event, which holds nothing that a terminal would obey. -/
def log? (event : ReplayEvent) : Option (Level × String) :=
  event.entry?.map fun entry => (entry.1, Text.inert entry.2)

end ReplayEvent

/-! ## Lines -/

/--
The lines of a text, which end in a line feed or in a carriage return and a line feed. The last one
need not be ended.
-/
def splitLines : List Char → List (List Char)
  | [] => []
  | '\n' :: cs => [] :: splitLines cs
  | '\r' :: '\n' :: cs => [] :: splitLines cs
  | c :: cs =>
    match splitLines cs with
    | [] => [[c]]
    | line :: lines => (c :: line) :: lines

def linesOf (text : String) : List String := (splitLines text.toList).map String.ofList

/-! ## Replays -/

/-- A replay between two lines: the session, and how many lines, actions and reports there were. -/
structure Replay where
  session : Session
  lines : Nat
  actions : Nat
  reports : Nat

namespace Replay

/-- What came of lines: the replay after them, what there is to tell, and the failure. -/
structure Step where
  replay : Replay
  events : List ReplayEvent
  failure : Option CacheError

/-- A replay that starts with the threads of a database. -/
def start (settings : Settings) (db : Database) : Except CacheError Replay :=
  (Session.new settings (some db)).restore.map fun session => ⟨session, 0, 0, 0⟩

def startEvent (r : Replay) (path : String) : ReplayEvent := .started path r.session.store.size

def finishEvent (r : Replay) : ReplayEvent := .finished r.actions r.session.store.size r.reports

def act (r : Replay) (now : Int64) (outage : Outage) (action : Action) : Step :=
  let d := r.session.dispatch now outage action
  let notices := d.notices.map .noticed
  match d.result with
  | .error cause => ⟨{ r with session := d.session }, notices, some cause⟩
  | .ok reduction =>
    { replay := { r with
        session := d.session
        actions := r.actions + 1
        reports := r.reports + reduction.reports.length }
      events := notices ++
        .reduced action.typeName action.summary reduction.operations reduction.store.size ::
        reduction.reports.map .reported
      failure := none }

def step (r : Replay) (now : Int64) (outage : Outage) (line : String) : Step :=
  -- Every line counts, so that messages give its number in the file.
  let r := { r with lines := r.lines + 1 }
  if Text.trim line.toList = [] then ⟨r, [], none⟩
  else
    match Action.ofText line with
    | .error cause => ⟨r, [.skipped r.lines cause], none⟩
    | .ok action => r.act now outage action

/-- Takes lines up to the first failure. Each has a time of its own and an outage of its own. -/
def run (r : Replay) (clock : Nat → Int64) (outages : Nat → Outage) : List String → Step
  | [] => ⟨r, [], none⟩
  | line :: lines =>
    let first := r.step (clock r.lines) (outages r.lines) line
    match first.failure with
    | some _ => first
    | none =>
      let others := first.replay.run clock outages lines
      { others with events := first.events ++ others.events }

end Replay

/-! ## The program -/

/-- What the program is called with: the name of the file of actions, and what it can read. -/
structure Invocation where
  path : Option String
  /-- The text of the settings file, if the environment names one and if it can be read. -/
  settingsFile : Option (Option String)
  environment : Environment
  /-- The text of the file of actions, if it can be read. -/
  actions : Option String

inductive ReplayFailure
  | noArgument
  | settings (cause : SettingsError)
  | cache (cause : CacheError)
  | noActions

def ReplayFailure.exitCode : ReplayFailure → UInt32
  | .noArgument => 2
  | _ => 1

def ReplayFailure.message : ReplayFailure → String
  | .noArgument => "Usage: thread-replay <actions.jsonl>"
  | .settings cause => "Error: " ++ cause.message
  | .cache cause => "Error: " ++ cause.message
  | .noActions => "Error: failed to read the actions"

namespace Invocation

/-- The settings of a call: those of the file that the environment names, or else the defaults. -/
def settings (i : Invocation) : Except SettingsError Settings :=
  match i.settingsFile with
  | some file => Settings.load file i.environment
  | none => Settings.standard.inEnvironment i.environment

/-- The outcome of a call: the database after it, what there is to tell, and why it ended early. -/
structure Outcome where
  database : Database
  events : List ReplayEvent
  failure : Option ReplayFailure

/-- The replay of a file of actions, from the start to the end. -/
def replay (path : String) (actions : Option String) (clock : Nat → Int64)
    (outages : Nat → Outage) (db : Database) (r : Replay) : Outcome :=
  -- The log says how many threads there are before the file is opened.
  match actions with
  | none => ⟨db, [r.startEvent path], some .noActions⟩
  | some text =>
    let s := r.run clock outages (linesOf text)
    let db := s.replay.session.database.getD db
    match s.failure with
    | some cause => ⟨db, r.startEvent path :: s.events, some (.cache cause)⟩
    | none => ⟨db, r.startEvent path :: s.events ++ [s.replay.finishEvent], none⟩

/-- A call of the program with a database. -/
def run (i : Invocation) (clock : Nat → Int64) (outages : Nat → Outage) (db : Database) : Outcome :=
  -- A call without an argument fails before its settings are looked at.
  match i.path, i.settings with
  | none, _ => ⟨db, [], some .noArgument⟩
  | some _, .error cause => ⟨db, [], some (.settings cause)⟩
  | some path, .ok settings =>
    match Replay.start settings db with
    | .error cause => ⟨db, [], some (.cache cause)⟩
    | .ok r => replay path i.actions clock outages db r

def Outcome.exitCode (o : Outcome) : UInt32 :=
  match o.failure with
  | none => 0
  | some failure => failure.exitCode

end Invocation

end ThreadCache
