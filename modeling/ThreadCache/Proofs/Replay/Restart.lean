import ThreadCache.Proofs.Session.Turns
import ThreadCache.Replay

/-!
# Replays across a restart

## Main results

* `run_eq_play`: the lines of a replay are turns of its session, those without an action left out.
* `inStep_run_of_start`: a replay that starts from a database ends in step with it.
* `restart_unnoticed`: a replay that is cut in two, the second half starting from nothing but the
  database, ends where the whole replay does and finds the same on the way.

## Proof strategy

A replay is the session taking turns (`Session.play`), so everything is said of turns. The first
half keeps the session in step with its database (`Session.InStep.play`), so a session that restores
from there has the same threads and has forgotten the history alone: the two are alike
(`Session.Alike`), and stay so as long as they take the same actions. Lines without an action are no
turns, and leaving them out changes nothing but the times of the others.
-/

namespace ThreadCache

open Cache (CacheError Database Outage)
open Session (seen)

/-! ### Findings -/

/-- What a replay finds out about threads. -/
inductive Finding
  | wrote (operations : List StoreOperation)
  | reported (report : Report)

def ReplayEvent.finding? (b : Blur) : ReplayEvent → Option Finding
  | .reduced _ _ operations _ => some (.wrote operations)
  | .reported report => some (.reported (b.shown report))
  | _ => none

/-- The findings of events: for each action its operations and after them its reports. -/
def findings (b : Blur) (events : List ReplayEvent) : List Finding :=
  events.filterMap (·.finding? b)

def findingsOf (told : List StoreOperation × List Report) : List Finding :=
  .wrote told.1 :: told.2.map .reported

namespace Replay

/-! ### Lines as turns -/

/-- The action of a line; blank lines and lines that are no action have none. -/
def actionOf? (line : String) : Option Action :=
  if Text.trim line.toList = [] then none else (Action.ofText line).toOption

def withActions (lines : List String) : List String :=
  lines.filter fun line => (actionOf? line).isSome

theorem filterMap_withActions (lines : List String) :
    (withActions lines).filterMap actionOf? = lines.filterMap actionOf? := by
  induction lines with
  | nil => rfl
  | cons line lines ih =>
    rw [withActions] at ih ⊢
    -- A line without an action gives nothing on either side.
    cases taken : actionOf? line with
    | none => rw [List.filter_cons_of_neg (by simp [taken]), ih, List.filterMap_cons_none taken]
    | some action =>
      rw [List.filter_cons_of_pos (by simp [taken]), List.filterMap_cons_some taken, ih,
        List.filterMap_cons_some taken]

/-- The turns of lines of which the first has a number. -/
def turns (clock : Nat → Int64) (outages : Nat → Outage) : Nat → List String → List Turn
  | _, [] => []
  | number, line :: lines =>
    match actionOf? line with
    | none => turns clock outages (number + 1) lines
    | some action =>
      ⟨clock number, outages number, action⟩ :: turns clock outages (number + 1) lines

theorem turns_actions (clock : Nat → Int64) (outages : Nat → Outage) (number : Nat)
    (lines : List String) :
    (turns clock outages number lines).map (·.action) = lines.filterMap actionOf? := by
  induction lines generalizing number with
  | nil => rfl
  | cons line lines ih =>
    rw [turns]
    split
    next none => rw [ih, List.filterMap_cons_none none]
    next action taken => rw [List.map_cons, ih, List.filterMap_cons_some taken]

theorem turns_outage {clock : Nat → Int64} {number : Nat} {lines : List String} {turn : Turn}
    (member : turn ∈ turns clock (fun _ => .none) number lines) : turn.outage = .none := by
  induction lines generalizing number with
  | nil => cases member
  | cons line lines ih =>
    rw [turns] at member
    split at member
    · exact ih member
    · rcases List.mem_cons.mp member with rfl | later
      · rfl
      · exact ih later

theorem ofText_of_actionOf? {line : String} {action : Action}
    (taken : actionOf? line = some action) : Action.ofText line = .ok action := by
  unfold actionOf? at taken
  -- A blank line has no action, so the line was decoded.
  split at taken
  · cases taken
  · cases decoded : Action.ofText line with
    | error cause =>
      rw [decoded] at taken
      cases taken
    | ok other =>
      rw [decoded] at taken
      cases taken
      rfl

/-! ### Steps -/

theorem step_of_none {line : String} (passed : actionOf? line = none) (b : Blur) (r : Replay)
    (now : Int64) (outage : Outage) :
    (r.step now outage line).replay = { r with lines := r.lines + 1 } ∧
      findings b (r.step now outage line).events = [] ∧
      (r.step now outage line).failure = none := by
  unfold actionOf? at passed
  unfold step
  dsimp only
  -- The line is blank, or it does not decode: an entry in the log is all that comes of it.
  split
  · exact ⟨rfl, rfl, rfl⟩
  next solid =>
    rw [if_neg solid] at passed
    split
    · exact ⟨rfl, rfl, rfl⟩
    next action decoded =>
      rw [decoded] at passed
      cases passed

theorem step_of_some {line : String} {action : Action} (taken : actionOf? line = some action)
    (r : Replay) (now : Int64) (outage : Outage) :
    r.step now outage line = { r with lines := r.lines + 1 }.act now outage action := by
  unfold actionOf? at taken
  unfold step
  dsimp only
  split
  next blank =>
    rw [if_pos blank] at taken
    cases taken
  next solid =>
    rw [if_neg solid] at taken
    split
    next cause refused =>
      rw [refused] at taken
      cases taken
    next other decoded =>
      rw [decoded] at taken
      cases taken
      rfl

theorem findings_noticed (b : Blur) (notices : List Notice) :
    findings b (notices.map .noticed) = [] := by
  induction notices with
  | nil => rfl
  | cons notice notices ih => exact ih

theorem findings_append (b : Blur) (events others : List ReplayEvent) :
    findings b (events ++ others) = findings b events ++ findings b others :=
  List.filterMap_append

theorem findings_reported (b : Blur) (reports : List Report) :
    findings b (reports.map .reported) = (reports.map b.shown).map .reported := by
  induction reports with
  | nil => rfl
  | cons report reports ih =>
    rw [List.map_cons, List.map_cons, List.map_cons, ← ih]
    rfl

theorem act_of_ok {r : Replay} {now : Int64} {outage : Outage} {action : Action} {red : Reduction}
    (done : (r.session.dispatch now outage action).result = .ok red) (b : Blur) :
    (r.act now outage action).replay.session = (r.session.dispatch now outage action).session ∧
      (r.act now outage action).replay.lines = r.lines ∧
      findings b (r.act now outage action).events = findingsOf (seen b red) ∧
      (r.act now outage action).failure = none := by
  unfold act
  simp only [done]
  refine ⟨trivial, trivial, ?_, trivial⟩
  rw [findings_append, findings_noticed, List.nil_append]
  exact congrArg _ (findings_reported b red.reports)

theorem act_of_error {r : Replay} {now : Int64} {outage : Outage} {action : Action}
    {cause : CacheError} (failed : (r.session.dispatch now outage action).result = .error cause)
    (b : Blur) :
    (r.act now outage action).replay.session = (r.session.dispatch now outage action).session ∧
      findings b (r.act now outage action).events = [] ∧
      (r.act now outage action).failure = some cause := by
  unfold act
  simp only [failed]
  exact ⟨trivial, findings_noticed b _, trivial⟩

/-! ### Runs -/

theorem run_cons_of_failure {r : Replay} {clock : Nat → Int64} {outages : Nat → Outage}
    {line : String} {cause : CacheError}
    (failed : (r.step (clock r.lines) (outages r.lines) line).failure = some cause)
    (lines : List String) :
    r.run clock outages (line :: lines) = r.step (clock r.lines) (outages r.lines) line := by
  rw [run]
  simp only [failed]

theorem run_cons_of_none {r next : Replay} {clock : Nat → Int64} {outages : Nat → Outage}
    {line : String} (done : (r.step (clock r.lines) (outages r.lines) line).failure = none)
    (leads : (r.step (clock r.lines) (outages r.lines) line).replay = next)
    (lines : List String) :
    (r.run clock outages (line :: lines)).replay = (next.run clock outages lines).replay ∧
      (r.run clock outages (line :: lines)).failure = (next.run clock outages lines).failure ∧
      (r.run clock outages (line :: lines)).events =
        (r.step (clock r.lines) (outages r.lines) line).events ++
          (next.run clock outages lines).events := by
  subst leads
  rw [run]
  simp only [done]
  exact ⟨trivial, trivial, trivial⟩

/-- The lines of a replay are turns of its session. -/
theorem run_eq_play (b : Blur) (clock : Nat → Int64) (outages : Nat → Outage) (r : Replay)
    (lines : List String) :
    (r.run clock outages lines).replay.session =
        (r.session.play (turns clock outages r.lines lines)).session ∧
      (r.run clock outages lines).failure =
        (r.session.play (turns clock outages r.lines lines)).failure ∧
      findings b (r.run clock outages lines).events =
        ((r.session.play (turns clock outages r.lines lines)).reductions.map (seen b)).flatMap
          findingsOf := by
  -- A line is no turn, the last turn because it fails, or a turn that others follow.
  induction lines generalizing r with
  | nil => exact ⟨rfl, rfl, rfl⟩
  | cons line lines ih =>
    cases taken : actionOf? line with
    | none =>
      obtain ⟨leads, silent, done⟩ := step_of_none taken b r (clock r.lines) (outages r.lines)
      obtain ⟨replay, failure, events⟩ := run_cons_of_none done leads lines
      obtain ⟨session, undisturbed, found⟩ := ih { r with lines := r.lines + 1 }
      rw [turns, taken, replay, failure, events, findings_append, silent]
      exact ⟨session, undisturbed, found⟩
    | some action =>
      have step := step_of_some taken r (clock r.lines) (outages r.lines)
      rw [turns, taken]
      cases result :
          (r.session.dispatch (clock r.lines) (outages r.lines) action).result with
      | error cause =>
        obtain ⟨session, silent, failed⟩ :=
          act_of_error (r := { r with lines := r.lines + 1 }) result b
        rw [← step] at session silent failed
        rw [run_cons_of_failure failed,
          Session.play_cons_error ⟨clock r.lines, outages r.lines, action⟩ result]
        exact ⟨session, failed, silent⟩
      | ok red =>
        obtain ⟨session, number, told, done⟩ :=
          act_of_ok (r := { r with lines := r.lines + 1 }) result b
        rw [← step] at session number told done
        obtain ⟨replay, failure, events⟩ := run_cons_of_none done rfl lines
        have later := ih (r.step (clock r.lines) (outages r.lines) line).replay
        rw [session, number] at later
        rw [replay, failure, events, findings_append, told,
          Session.play_cons_ok ⟨clock r.lines, outages r.lines, action⟩ result]
        refine ⟨later.1, later.2.1, ?_⟩
        rw [later.2.2, List.map_cons, List.flatMap_cons]
        rfl

/-- With a database that refuses nothing, and nothing failing, a replay takes all its lines. -/
theorem run_of_accepting {r : Replay} (accepting : r.session.Accepting) (clock : Nat → Int64)
    (lines : List String) :
    (r.run clock (fun _ => .none) lines).failure = none ∧
      (r.run clock (fun _ => .none) lines).replay.session.Accepting := by
  obtain ⟨session, failure, _⟩ := run_eq_play .bare clock (fun _ => .none) r lines
  rw [session, failure]
  exact Session.play_of_accepting accepting fun _ member => turns_outage member

/-! ### Restarting -/

/-- A new session on the database of one that is in step with it has the same threads. -/
theorem start_of_inStep {s : Session} {db : Database} (held : s.database = some db)
    (inStep : s.InStep) {settings : Settings} (secrets : settings.secrets = s.secrets)
    (platform : settings.platform = s.platform) :
    ∃ again, start settings db = .ok again ∧ s.Alike .bare again.session := by
  obtain ⟨⟨other, same, loads⟩, _⟩ := inStep
  -- The database that the invariant speaks of is the one that the session has.
  obtain rfl : db = other := by
    rw [held] at same
    exact Option.some.inj same
  have restored := Session.restore_of_database (s := .new settings (some db)) rfl
  rw [loads] at restored
  refine ⟨⟨{ Session.new settings (some db) with store := s.store }, 0, 0, 0⟩, ?_, ?_⟩
  · rw [start, restored]
    rfl
  · exact ⟨rfl, trivial, secrets.symm, platform.symm, held⟩

theorem restore_of_start {settings : Settings} {db : Database} {again : Replay}
    (started : start settings db = .ok again) :
    (Session.new settings (some db)).restore = .ok again.session := by
  obtain ⟨restored, restores, rfl⟩ := map_eq_ok_iff.mp started
  exact restores

theorem database_of_start {settings : Settings} {db : Database} {again : Replay}
    (started : start settings db = .ok again) : again.session.database = some db := by
  obtain ⟨_, _, restored⟩ := Session.restore_eq_ok rfl (restore_of_start started)
  rw [restored]
  rfl

/-- Two replays end with the same threads, in memory and in the database. -/
structure Step.SameEnd (one other : Step) : Prop where
  store : one.replay.session.store = other.replay.session.store
  database : one.replay.session.database = other.replay.session.database

/-- Replays that are alike and take the same turns end the same and find the same. -/
theorem run_alike {b : Blur} {r r' : Replay} (alike : r.session.Alike b r'.session)
    {lines lines' : List String} {clock clock' : Nat → Int64} {outages outages' : Nat → Outage}
    (same : List.Forall₂ (Turn.Same b) (turns clock outages r.lines lines)
      (turns clock' outages' r'.lines lines'))
    (undisturbed : (r.run clock outages lines).failure = none)
    (undisturbed' : (r'.run clock' outages' lines').failure = none) :
    (r.run clock outages lines).SameEnd (r'.run clock' outages' lines') ∧
      findings b (r.run clock outages lines).events =
        findings b (r'.run clock' outages' lines').events := by
  obtain ⟨session, failure, found⟩ := run_eq_play b clock outages r lines
  obtain ⟨session', failure', found'⟩ := run_eq_play b clock' outages' r' lines'
  rw [failure] at undisturbed
  rw [failure'] at undisturbed'
  obtain ⟨ends, reductions⟩ := alike.play same undisturbed undisturbed'
  refine ⟨⟨?_, ?_⟩, ?_⟩
  · rw [session, session']
    exact ends.store
  · rw [session, session']
    exact ends.database
  · rw [found, found', reductions]

/-- Where times do not matter, lines with the same actions are the same turns. -/
theorem same_turns_of_actions {b : Blur} (anyTime : ∀ now now' : Int64, b.sameTime now now')
    {lines lines' : List String} (actions : lines.filterMap actionOf? = lines'.filterMap actionOf?)
    (clock clock' : Nat → Int64) (outages outages' : Nat → Outage) (number number' : Nat) :
    List.Forall₂ (Turn.Same b) (turns clock outages number lines)
      (turns clock' outages' number' lines') := by
  have same : (turns clock outages number lines).map (·.action) =
      (turns clock' outages' number' lines').map (·.action) := by
    rw [turns_actions, turns_actions, actions]
  rw [← List.forall₂_eq_eq_eq, List.forall₂_map_left_iff, List.forall₂_map_right_iff] at same
  exact same.imp fun _ _ action => ⟨action, anyTime _ _⟩

/-- Lines with the same actions at the same times are the same turns, whatever is looked at. -/
theorem same_turns_of_times {lines lines' : List String}
    (actions : lines.filterMap actionOf? = lines'.filterMap actionOf?)
    {clock clock' : Nat → Int64} {outages outages' : Nat → Outage} {number number' : Nat}
    (times : (turns clock outages number lines).map (·.now) =
      (turns clock' outages' number' lines').map (·.now)) :
    List.Forall₂ (Turn.Same .exact) (turns clock outages number lines)
      (turns clock' outages' number' lines') := by
  have same := same_turns_of_actions (b := .bare) (fun _ _ => trivial) actions clock clock' outages
    outages' number number'
  rw [← List.forall₂_eq_eq_eq, List.forall₂_map_left_iff, List.forall₂_map_right_iff] at times
  -- Pair by pair the turns have the same action and the same time.
  rw [List.forall₂_iff_zip] at same times ⊢
  exact ⟨same.1, fun pair => ⟨(same.2 pair).action, times.2 pair⟩⟩

/-- A replay of the lines of two goes on where the replay of the first has ended. -/
theorem run_append {r : Replay} {clock : Nat → Int64} {outages : Nat → Outage}
    {lines others : List String}
    (undisturbed : (r.run clock outages (lines ++ others)).failure = none) :
    ((r.run clock outages lines).replay.run clock outages others).failure = none ∧
      (r.run clock outages (lines ++ others)).SameEnd
        ((r.run clock outages lines).replay.run clock outages others) ∧
      (r.run clock outages (lines ++ others)).events =
        (r.run clock outages lines).events ++
          ((r.run clock outages lines).replay.run clock outages others).events := by
  induction lines generalizing r with
  | nil => exact ⟨undisturbed, ⟨rfl, rfl⟩, rfl⟩
  | cons line lines ih =>
    rw [List.cons_append] at undisturbed ⊢
    -- A failure in the first part would be the failure of the whole.
    cases outcome : (r.step (clock r.lines) (outages r.lines) line).failure with
    | some cause =>
      rw [run_cons_of_failure outcome, outcome] at undisturbed
      cases undisturbed
    | none =>
      obtain ⟨replay, failure, events⟩ := run_cons_of_none outcome rfl (lines ++ others)
      obtain ⟨first, _, told⟩ := run_cons_of_none outcome rfl lines
      rw [failure] at undisturbed
      obtain ⟨later, ends, found⟩ := ih undisturbed
      rw [first, told, events, found, List.append_assoc]
      refine ⟨later, ⟨?_, ?_⟩, rfl⟩
      · rw [replay]
        exact ends.store
      · rw [replay]
        exact ends.database

/-- Lines whose actions change the store through operations keep a replay in step. -/
theorem inStep_run {r : Replay} (start : r.session.InStep) {lines : List String}
    (through : ∀ line ∈ lines, ∀ action, Action.ofText line = .ok action → action.Reconciles)
    (clock : Nat → Int64) (outages : Nat → Outage) :
    (r.run clock outages lines).replay.session.InStep := by
  rw [(run_eq_play .bare clock outages r lines).1]
  refine start.play _ fun turn member => ?_
  -- Every turn comes from a line, and its action is what the line decodes to.
  have listed : turn.action ∈ lines.filterMap actionOf? := by
    rw [← turns_actions clock outages r.lines]
    exact List.mem_map_of_mem member
  obtain ⟨line, among, taken⟩ := List.mem_filterMap.mp listed
  exact through line among turn.action (ofText_of_actionOf? taken)

/-- A replay that starts with the threads of a database stays in step with it. -/
theorem inStep_run_of_start {settings : Settings} {db : Database} {r : Replay}
    (started : start settings db = .ok r) {lines : List String}
    (through : ∀ line ∈ lines, ∀ action, Action.ofText line = .ok action → action.Reconciles)
    (clock : Nat → Int64) (outages : Nat → Outage) :
    (r.run clock outages lines).replay.session.InStep := by
  have inStep := Session.inStep_of_restore rfl (restore_of_start started)
  exact inStep_run inStep through clock outages

/--
A replay does not notice that it is cut in two, the second half starting over from the database,
and not that lines without an action are left out. The actions find the same, in the first case
apart from the time and the history of reports, in the second apart from all times, and without
exception if the lines that are left are taken at the times at which they were taken before.
-/
theorem restart_unnoticed {r : Replay} (inStep : r.session.InStep) (lines others : List String)
    (through : ∀ line ∈ lines, ∀ action, Action.ofText line = .ok action → action.Reconciles)
    (clock : Nat → Int64) (outages : Nat → Outage)
    (undisturbed : (r.run clock outages (lines ++ others)).failure = none) :
    (∃ db, (r.run clock outages lines).replay.session.database = some db ∧
      ∀ settings : Settings, settings.secrets = r.session.secrets →
        settings.platform = r.session.platform →
        ∃ again, start settings db = .ok again ∧
          ∀ clock' outages', (again.run clock' outages' others).failure = none →
            (r.run clock outages (lines ++ others)).SameEnd (again.run clock' outages' others) ∧
              findings .bare (r.run clock outages (lines ++ others)).events =
                findings .bare (r.run clock outages lines).events ++
                  findings .bare (again.run clock' outages' others).events) ∧
    ∀ clock' outages', (r.run clock' outages' (withActions (lines ++ others))).failure = none →
      (r.run clock outages (lines ++ others)).SameEnd
          (r.run clock' outages' (withActions (lines ++ others))) ∧
        findings .timeless (r.run clock outages (lines ++ others)).events =
          findings .timeless (r.run clock' outages' (withActions (lines ++ others))).events ∧
        ((turns clock outages r.lines (lines ++ others)).map (·.now) =
            (turns clock' outages' r.lines (withActions (lines ++ others))).map (·.now) →
          findings .exact (r.run clock outages (lines ++ others)).events =
            findings .exact (r.run clock' outages' (withActions (lines ++ others))).events) := by
  constructor
  -- The whole replay is one half after the other, in the second of which the restart is compared.
  · obtain ⟨later, ends, events⟩ := run_append undisturbed
    have between := inStep_run inStep through clock outages
    obtain ⟨db, held, _⟩ := between.loads
    have session := (run_eq_play .bare clock outages r lines).1
    have identity := r.session.play_identity (turns clock outages r.lines lines)
    rw [← session] at identity
    refine ⟨db, held, fun settings secrets platform => ?_⟩
    obtain ⟨again, started, alike⟩ := start_of_inStep held between
      (secrets.trans identity.1.symm) (platform.trans identity.2.symm)
    refine ⟨again, started, fun clock' outages' undisturbed' => ?_⟩
    have actions : others.filterMap actionOf? = others.filterMap actionOf? := rfl
    have turns := same_turns_of_actions (b := .bare) (fun _ _ => trivial) actions clock clock'
      outages outages' (r.run clock outages lines).replay.lines again.lines
    obtain ⟨same, found⟩ := run_alike alike turns later undisturbed'
    refine ⟨⟨ends.store.trans same.store, ends.database.trans same.database⟩, ?_⟩
    rw [events, findings_append, found]
  -- Leaving lines out leaves the actions, so the two replays start alike and take the same turns.
  · intro clock' outages' undisturbed'
    have actions := (filterMap_withActions (lines ++ others)).symm
    have alike : r.session.Alike .timeless r.session := ⟨rfl, rfl, rfl, rfl, rfl⟩
    have turns := same_turns_of_actions (b := .timeless) (fun _ _ => trivial) actions clock clock'
      outages outages' r.lines r.lines
    obtain ⟨ends, found⟩ := run_alike alike turns undisturbed undisturbed'
    refine ⟨ends, found, fun times => ?_⟩
    have alike : r.session.Alike .exact r.session := ⟨rfl, rfl, rfl, rfl, rfl⟩
    exact (run_alike alike (same_turns_of_times actions times) undisturbed undisturbed').2

/-- A subscription that was written before the restart is there after it. -/
theorem restart_unnoticed_subscribed :
    let join : Action := .updates .joinThread ⟨1, [.joinThread "e" 1 (.new "t" 3 0)]⟩
    let s := (Session.new .standard (some .fresh)).play [⟨0, .none, join⟩]
    let r : Replay := ⟨s.session, 0, 0, 0⟩
    let lines := [Wire.action.writeText (.updateSubscription "t" ⟨false, false⟩)]
    let others := ["?", Wire.action.writeText (.updateActivity ["t"])]
    let whole := r.run (fun _ => 7) (fun _ => .none) (lines ++ others)
    (∃ db again, start .standard db = .ok again ∧
      whole.SameEnd (again.run (fun _ => 9) (fun _ => .none) others)) ∧
    whole.SameEnd (r.run (fun _ => 9) (fun _ => .none) (withActions (lines ++ others))) := by
  intro join s r lines others whole
  have decoded : Action.ofText (Wire.action.writeText (.updateSubscription "t" ⟨false, false⟩)) =
      .ok (.updateSubscription "t" ⟨false, false⟩) := by
    rw [Action.ofText, Json.ofText?, Document.ofText, Wire.Desc.writeText, Document.text,
      String.toList_ofList]
    decide +kernel
  have through : ∀ line ∈ lines, ∀ action, Action.ofText line = .ok action →
      action.Reconciles := by
    intro line member action found
    rw [List.mem_singleton.mp member, decoded] at found
    cases found
    exact fun _ same => by cases same
  have inStep : r.session.InStep := by
    refine (Session.inStep_new .standard rfl rfl).play _ fun turn member => ?_
    rw [List.mem_singleton.mp member]
    exact fun _ same => by cases same
  have accepting : r.session.Accepting := by
    refine (Session.play_of_accepting ⟨.fresh, rfl, rfl, rfl, rfl⟩ fun turn member => ?_).2
    rw [List.mem_singleton.mp member]
  have identity := (Session.new .standard (some .fresh)).play_identity [⟨0, .none, join⟩]
  obtain ⟨db, held, isOpen, willing⟩ := (run_of_accepting accepting (fun _ => 7) lines).2
  obtain ⟨⟨_, same, restarts⟩, left⟩ := restart_unnoticed inStep lines others through _ _
    (run_of_accepting accepting (fun _ => 7) (lines ++ others)).1
  obtain rfl := Option.some.inj (held.symm.trans same)
  obtain ⟨again, started, ends⟩ := restarts .standard identity.1.symm identity.2.symm
  have ready : again.session.Accepting := ⟨db, database_of_start started, isOpen, willing⟩
  refine ⟨⟨db, again, started, ?_⟩, ?_⟩
  · exact (ends _ _ (run_of_accepting ready (fun _ => 9) others).1).1
  · exact (left _ _ (run_of_accepting accepting (fun _ => 9) _).1).1

end Replay

end ThreadCache
