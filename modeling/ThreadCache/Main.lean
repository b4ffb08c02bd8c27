import Std.Time.DateTime.Timestamp
import ThreadCache.Cache.File
import ThreadCache.Replay
import ThreadCache.Wire.Encoding

/-!
# The replay program

Reads what the program is called with, runs the lines, and writes what there is to tell: reports to
the standard output, the log to the standard error, and the table to its file after every change.
-/

namespace ThreadCache.Program

open Cache

def readText? (path : String) : IO (Option String) := do
  match ← (IO.FS.readFile path).toBaseIO with
  | .ok text => return some text
  | .error _ => return none

def currentTime : IO Int64 := do
  let now ← Std.Time.Timestamp.now
  return .ofInt now.toMillisecondsSinceUnixEpoch.val

/-- A variable of the environment that is set to more than nothing. -/
def nonempty? (name : String) : IO (Option String) :=
  return (← IO.getEnv name).filter fun value => value ≠ ""

def readInvocation (args : List String) : IO Invocation := do
  let config ← nonempty? "THREADSYNC_CONFIG"
  return {
    path := args.head?
    settingsFile := ← config.mapM readText?
    environment := {
      databasePath := ← IO.getEnv "THREADSYNC_DB_PATH"
      capacity := ← IO.getEnv "THREADSYNC_ACTION_LOG_CAPACITY"
      dataHome := ← IO.getEnv "XDG_DATA_HOME"
      home := (← IO.getEnv "HOME").getD "/" }
    actions := none }

/-- The database in a file, which may be missing together with its directories. -/
def openDatabase (path : String) : IO (Option Database) := do
  let directory := "/".intercalate (path.splitOn "/").dropLast
  if directory ≠ "" then IO.FS.createDirAll directory
  match ← readText? path with
  | none => return some Database.fresh
  | some text =>
    return (Table.ofLines? (linesOf text)).map fun table => { Database.fresh with table := table }

def emit (event : ReplayEvent) : IO Unit := do
  match event, event.log? with
  | .reported report, _ => IO.println (Wire.report.writeText report)
  | _, some (level, message) => IO.eprintln (level.name ++ " " ++ message)
  | _, none => return

def fail (failure : ReplayFailure) : IO UInt32 := do
  IO.eprintln failure.message
  return failure.exitCode

def save (path : String) (before after : Replay) : IO Unit := do
  if after.session.database ≠ before.session.database then
    after.session.database.forM fun db => IO.FS.writeFile path db.table.text

/-- Runs the lines of a text, each at the time when its turn comes. -/
def runLines (file : String) (start : Replay) (text : String) : IO UInt32 := do
  let mut replay := start
  for line in linesOf text do
    let step := replay.step (← currentTime) .none line
    step.events.forM emit
    if let some cause := step.failure then return ← fail (.cache cause)
    save file replay step.replay
    replay := step.replay
  emit replay.finishEvent
  return 0

def run (args : List String) : IO UInt32 := do
  let call ← readInvocation args
  match call.path, call.settings with
  | none, _ => fail .noArgument
  | _, .error cause => fail (.settings cause)
  | some path, .ok settings =>
    let file := settings.databaseFile call.environment
    match ← openDatabase file with
    | none => fail (.cache .unavailable)
    | some db =>
      match Replay.start settings db with
      | .error cause => fail (.cache cause)
      | .ok replay =>
        emit (replay.startEvent path)
        match ← readText? path with
        | none => fail .noActions
        | some text => runLines file replay text

end ThreadCache.Program

def main (args : List String) : IO UInt32 := ThreadCache.Program.run args
