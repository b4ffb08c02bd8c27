import Mathlib.Data.List.Forall2
import ThreadCache.Proofs.Session.Alike

/-!
# Turns

A session takes actions in turn until the database fails.

## Main results

* `InStep.play`: turns keep a session in step with its database.
* `Alike.play`: sessions that are alike make the same of turns that are the same.
* `play_of_accepting`: with a database that refuses nothing, and nothing failing, all turns are
  taken.

## Proof strategy

Each is an induction over the turns, the step being what is known of one dispatch.
-/

namespace ThreadCache

open Cache (CacheError Database Outage)

/-- An action together with the time of its turn and what fails outside the database. -/
structure Turn where
  now : Int64
  outage : Outage
  action : Action

/-- The turns take the same action, at times that look the same. -/
structure Turn.Same (b : Blur) (turn turn' : Turn) : Prop where
  action : turn.action = turn'.action
  time : b.sameTime turn.now turn'.now

/-- What came of turns: the session after them, what each was reduced to, and the failure. -/
structure Played where
  session : Session
  reductions : List Reduction
  failure : Option CacheError

namespace Session

/-- Takes turns up to the first failure. -/
def play (s : Session) : List Turn → Played
  | [] => ⟨s, [], none⟩
  | turn :: turns =>
    let d := s.dispatch turn.now turn.outage turn.action
    match d.result with
    | .error cause => ⟨d.session, [], some cause⟩
    | .ok reduction =>
      let others := d.session.play turns
      { others with reductions := reduction :: others.reductions }

def after (s : Session) (turn : Turn) : Session :=
  (s.dispatch turn.now turn.outage turn.action).session

theorem play_cons_ok {s : Session} (turn : Turn) {r : Reduction}
    (done : (s.dispatch turn.now turn.outage turn.action).result = .ok r) (turns : List Turn) :
    s.play (turn :: turns) =
      { (s.after turn).play turns with
        reductions := r :: ((s.after turn).play turns).reductions } := by
  rw [play]
  simp only [done]
  rfl

theorem play_cons_error {s : Session} (turn : Turn) {cause : CacheError}
    (failed : (s.dispatch turn.now turn.outage turn.action).result = .error cause)
    (turns : List Turn) : s.play (turn :: turns) = ⟨s.after turn, [], some cause⟩ := by
  rw [play]
  simp only [failed]
  rfl

/-- Turns of which none fails start with one that does not. -/
theorem play_cons_undisturbed {s : Session} {turn : Turn} {turns : List Turn}
    (undisturbed : (s.play (turn :: turns)).failure = none) :
    ∃ r, (s.dispatch turn.now turn.outage turn.action).result = .ok r ∧
      ((s.after turn).play turns).failure = none := by
  cases result : (s.dispatch turn.now turn.outage turn.action).result with
  | error cause =>
    rw [play_cons_error turn result] at undisturbed
    cases undisturbed
  | ok r =>
    rw [play_cons_ok turn result] at undisturbed
    exact ⟨r, rfl, undisturbed⟩

/-! ### What turns keep -/

theorem after_identity (s : Session) (turn : Turn) :
    (s.after turn).secrets = s.secrets ∧ (s.after turn).platform = s.platform := by
  unfold after
  -- A failure drops the action from the history again, which is all it touches.
  rcases s.dispatch_cases turn.now turn.outage turn.action with ⟨_, _, next⟩ | ⟨_, next⟩
  · rw [next, forgetting]
    split <;> exact ⟨rfl, rfl⟩
  · rw [next]
    exact ⟨rfl, rfl⟩

/-- What every turn keeps, turns keep, wherever they end. -/
theorem play_keeps {P : Session → Prop} {turns : List Turn}
    (keeps : ∀ turn ∈ turns, ∀ t : Session, P t → P (t.after turn)) {s : Session} (start : P s) :
    P (s.play turns).session := by
  induction turns generalizing s with
  | nil => exact start
  | cons turn turns ih =>
    have next := keeps turn List.mem_cons_self s start
    -- A turn that fails is the last one, and what it keeps holds after it too.
    cases result : (s.dispatch turn.now turn.outage turn.action).result with
    | error cause =>
      rw [play_cons_error turn result]
      exact next
    | ok r =>
      rw [play_cons_ok turn result]
      exact ih (fun other member => keeps other (List.mem_cons_of_mem _ member)) next

/-- Turns change neither what is secret nor where a session runs. -/
theorem play_identity (s : Session) (turns : List Turn) :
    (s.play turns).session.secrets = s.secrets ∧
      (s.play turns).session.platform = s.platform := by
  let same (t : Session) : Prop := t.secrets = s.secrets ∧ t.platform = s.platform
  have keeps : ∀ turn ∈ turns, ∀ t : Session, same t → same (t.after turn) := by
    intro turn _ t before
    have next := t.after_identity turn
    exact ⟨next.1.trans before.1, next.2.trans before.2⟩
  exact play_keeps keeps ⟨rfl, rfl⟩

/-- Turns keep a session in step with its database. -/
theorem InStep.play {s : Session} (start : s.InStep) (turns : List Turn)
    (through : ∀ turn ∈ turns, turn.action.Reconciles) : (s.play turns).session.InStep := by
  refine play_keeps ?_ start
  intro turn member t before
  exact before.dispatch turn.now turn.outage (through turn member)

theorem Alike.after {b : Blur} {s t : Session} (alike : s.Alike b t) {turn turn' : Turn}
    (same : turn.Same b turn') {r r' : Reduction}
    (done : (s.dispatch turn.now turn.outage turn.action).result = .ok r)
    (done' : (t.dispatch turn'.now turn'.outage turn'.action).result = .ok r') :
    seen b r = seen b r' ∧ (s.after turn).Alike b (t.after turn') := by
  unfold Session.after
  rw [← same.action] at done' ⊢
  exact alike.dispatch same.time done done'

/-- Sessions that are alike make the same of turns that are the same. -/
theorem Alike.play {b : Blur} {s t : Session} (alike : s.Alike b t) {turns turns' : List Turn}
    (same : List.Forall₂ (Turn.Same b) turns turns')
    (undisturbed : (s.play turns).failure = none)
    (undisturbed' : (t.play turns').failure = none) :
    (s.play turns).session.Alike b (t.play turns').session ∧
      (s.play turns).reductions.map (seen b) = (t.play turns').reductions.map (seen b) := by
  -- The induction is on the pairs of turns, and carries the sessions before the next pair.
  induction same generalizing s t with
  | nil => exact ⟨alike, rfl⟩
  | @cons turn turn' turns turns' first _ ih =>
    obtain ⟨r, done, later⟩ := play_cons_undisturbed undisturbed
    obtain ⟨r', done', later'⟩ := play_cons_undisturbed undisturbed'
    obtain ⟨told, next⟩ := alike.after first done done'
    obtain ⟨sessions, reductions⟩ := ih next later later'
    rw [play_cons_ok turn done, play_cons_ok turn' done']
    refine ⟨sessions, ?_⟩
    rw [List.map_cons, List.map_cons, told, reductions]

/-! ### Turns that are all taken -/

theorem dispatch_of_accepting {s : Session} {db : Database} (held : s.database = some db)
    (isOpen : db.isOpen) (accepting : db.Accepting) (now : Int64) (action : Action) :
    (s.dispatch now .none action).result = .ok (s.reduction now action) := by
  -- The batch is the only part of a turn that can fail.
  have written := accepting.apply isOpen (s.reduction now action).operations
  apply dispatch_of_ok
  simp only [persisted, held, written]
  rfl

/-- The session has an open database that refuses nothing. -/
def Accepting (s : Session) : Prop :=
  ∃ db, s.database = some db ∧ db.isOpen ∧ db.Accepting

/-- Where a database refuses nothing and nothing fails, all turns are taken. -/
theorem play_of_accepting {s : Session} (accepting : s.Accepting) {turns : List Turn}
    (calm : ∀ turn ∈ turns, turn.outage = .none) :
    (s.play turns).failure = none ∧ (s.play turns).session.Accepting := by
  induction turns generalizing s with
  | nil => exact ⟨rfl, accepting⟩
  | cons turn turns ih =>
    obtain ⟨db, held, isOpen, willing⟩ := accepting
    obtain ⟨now, outage, action⟩ := turn
    obtain rfl : outage = .none := calm _ List.mem_cons_self
    have done := dispatch_of_accepting held isOpen willing now action
    have next := (dispatch_eq_ok done).2
    -- The rows that are refused are not part of the table, so writing keeps the database willing.
    have database : (s.after ⟨now, .none, action⟩).database =
        some (db.after (s.reduction now action).operations) := by
      rw [after, next, held]
      rfl
    rw [play_cons_ok ⟨now, .none, action⟩ done]
    exact ih ⟨_, database, isOpen, willing.after _⟩
      fun turn member => calm turn (List.mem_cons_of_mem _ member)

end Session

end ThreadCache
