import GraphEngine.Interleavings
import GraphEngine.Sessions

/-!
The life of a session (session.cpp): `Start`, `Pause`, `Resume`, `Stop`, the
notifications `OnNodeFailed` and `OnAllClosed` of the scheduler, and the check a
mutation makes. Every load, exchange and compare-and-swap of the state is one step,
as is every access under `stop_mutex_`. Of the scheduler only its answers are kept:
whether opening the nodes worked, whether all nodes are closed, and whether it was
told to stop. The events and the text of the failure are left out.
-/

namespace GraphEngine.Lifecycles

open Sessions Interleavings Runs

/-- The session's own fields. `past` lists the states it has had and `mutations` the
states in which a mutation was accepted; nothing in the code reads them. -/
structure Lifecycle where
  state : SessionState := .created
  stopLocked : Bool := false
  stoppedSignalled : Bool := false
  stopWaiters : List Nat := []
  operations : Nat := 0
  succeeded : List Nat := []
  allClosed : Bool := false
  schedulerStopped : Bool := false
  past : List SessionState := []
  mutations : List SessionState := []
  deriving DecidableEq

def SessionState.ending (state : SessionState) : Bool :=
  state = .stopping || state = .stopped || state = .failed

def SessionState.acceptsMutations (state : SessionState) : Bool :=
  state = .running || state = .paused

/-- `exchange` names the state its caller last knew, `signal` whether it is the
signal of a session that was never started and `pushWaiter` whether the caller has
looked at the signal; they matter to no step. -/
inductive Op where
  | state
  | exchange (known next : SessionState)
  | transitionIf (old next : SessionState)
  | openAll
  | createOperation
  | lockStop
  | unlockStop
  | isSignalled
  | signal (neverStarted : Bool)
  | pushWaiter (looked : Bool) (operation : Nat)
  | swapWaiters
  | succeed (operation : Nat)
  | isAllClosed
  | stopScheduler
  | acceptsMutations
  | retry
  deriving DecidableEq

@[reducible] def Op.Answer : Op → Type
  | .state => SessionState
  | .transitionIf _ _ | .openAll | .isSignalled | .isAllClosed | .acceptsMutations => Bool
  | .createOperation => Nat
  | .swapWaiters => List Nat
  | _ => Unit

namespace Lifecycle

def moveTo (session : Lifecycle) (next : SessionState) : Lifecycle :=
  { session with state := next, past := session.past ++ [next] }

end Lifecycle

/-- The choice decides whether the operators open. -/
def perform (session : Lifecycle) : (op : Op) → Bool → Option (Lifecycle × op.Answer)
  | .state, _ => some (session, session.state)
  | .exchange _ next, _ => some (session.moveTo next, ())
  | .transitionIf old next, _ =>
    if session.state = old then some (session.moveTo next, true) else some (session, false)
  | .openAll, opens => some (session, opens)
  | .createOperation, _ =>
    some ({ session with operations := session.operations + 1 }, session.operations)
  | .lockStop, _ =>
    if session.stopLocked then none else some ({ session with stopLocked := true }, ())
  | .unlockStop, _ => some ({ session with stopLocked := false }, ())
  | .isSignalled, _ => some (session, session.stoppedSignalled)
  | .signal _, _ => some ({ session with stoppedSignalled := true }, ())
  | .pushWaiter _ operation, _ =>
    some ({ session with stopWaiters := session.stopWaiters ++ [operation] }, ())
  | .swapWaiters, _ => some ({ session with stopWaiters := [] }, session.stopWaiters)
  | .succeed operation, _ =>
    some ({ session with succeeded := session.succeeded ++ [operation] }, ())
  | .isAllClosed, _ => some (session, session.allClosed)
  | .stopScheduler, _ => some ({ session with schedulerStopped := true }, ())
  | .acceptsMutations, _ =>
    if SessionState.acceptsMutations session.state then
      some ({ session with mutations := session.mutations ++ [session.state] }, true)
    else some (session, false)
  | .retry, _ => none

abbrev Routine := Code Op.Answer Empty

abbrev atomic (op : Op) : Routine op.Answer := Code.atomic op

def start : Routine Unit := do
  if ← atomic (.transitionIf .created .starting) then
    if ← atomic .openAll then atomic (.exchange .starting .running)
    else atomic (.exchange .starting .failed)
  else pure ()

def pause : Routine Unit := do
  if ← atomic (.transitionIf .running .pausing) then atomic (.exchange .pausing .paused)
  else pure ()

def resume : Routine Unit := do
  let _ ← atomic (.transitionIf .paused .running)

def onAllClosed : Routine Unit := do
  atomic .lockStop
  if ← atomic .isSignalled then atomic .unlockStop
  else do
    let operations ← atomic .swapWaiters
    let known ← atomic .state
    if known ≠ .failed then atomic (.exchange known .stopped)
    atomic (.signal false)
    atomic .unlockStop
    Code.each (fun operation => atomic (.succeed operation)) operations

/-- A `Stop` that comes late waits for the signal of an earlier one. -/
def awaitStopped (operation : Nat) : Routine Unit := do
  atomic .lockStop
  if ← atomic .isSignalled then atomic (.succeed operation)
  else atomic (.pushWaiter true operation)
  atomic .unlockStop

def stopCreated (operation : Nat) : Routine Unit := do
  atomic .lockStop
  atomic (.signal true)
  atomic (.succeed operation)
  atomic .unlockStop

def stopStarted (operation : Nat) : Routine Unit := do
  atomic .lockStop
  atomic (.pushWaiter false operation)
  atomic .unlockStop
  if ← atomic .isAllClosed then onAllClosed
  else atomic .stopScheduler

/-- One round of the loop of `Stop`, which goes round again when another call has
changed the state since it was read. -/
def stopRound (operation : Nat) (again : Routine Unit) (known : SessionState) : Routine Unit :=
  if SessionState.ending known then awaitStopped operation
  else if known = .created then do
    if ← atomic (.transitionIf known .stopped) then stopCreated operation else again
  else do
    if ← atomic (.transitionIf known .stopping) then stopStarted operation else again

/-- The loop of `Stop`. A call that needs more rounds than it may take hangs. -/
def stopFrom (operation : Nat) : Nat → SessionState → Routine Unit
  | 0 => stopRound operation (atomic .retry)
  | rounds + 1 => stopRound operation do
      let known ← atomic .state
      stopFrom operation rounds known

def stop (rounds : Nat) : Routine Unit := do
  let operation ← atomic .createOperation
  let known ← atomic .state
  stopFrom operation rounds known

def failRound (again : Routine Unit) (known : SessionState) : Routine Unit :=
  if SessionState.ending known then pure ()
  else do
    if ← atomic (.transitionIf known .failed) then atomic .stopScheduler else again

def failFrom : Nat → SessionState → Routine Unit
  | 0 => failRound (atomic .retry)
  | rounds + 1 => failRound do
      let known ← atomic .state
      failFrom rounds known

def onNodeFailed (failSession : Bool) (rounds : Nat) : Routine Unit := do
  if failSession then
    let known ← atomic .state
    failFrom rounds known
  else pure ()

def apply : Routine Unit := do
  let _ ← atomic .acceptsMutations

inductive Arrival where
  | start
  | pause
  | resume
  | stop (rounds : Nat)
  | nodeFailed (rounds : Nat)
  | allClosed
  | apply
  deriving DecidableEq

/-- The scheduler reports only once that all its nodes are closed. -/
def arrive (failSession : Bool) (session : Lifecycle) : Arrival → Option (Lifecycle × Routine Unit)
  | .start => some (session, start)
  | .pause => some (session, pause)
  | .resume => some (session, resume)
  | .stop rounds => some (session, stop rounds)
  | .nodeFailed rounds => some (session, onNodeFailed failSession rounds)
  | .allClosed =>
    if session.allClosed then none else some ({ session with allClosed := true }, onAllClosed)
  | .apply => some (session, apply)

/-- `failSession` is the option `fail_session_on_node_failure`. -/
@[reducible] def machine (failSession : Bool) : Machine Op.Answer Lifecycle Empty Bool Arrival where
  perform := perform
  body := Empty.elim
  arrive := arrive failSession

abbrev Running := System Op.Answer Lifecycle Empty

def fresh : Running := ⟨{}, []⟩

abbrev Reached (failSession : Bool) (rules : Rules Lifecycle Op Arrival) : Running → Prop :=
  Reachable (· = fresh) ((machine failSession).Step rules)

theorem played_reached {failSession : Bool} {rules : Rules Lifecycle Op Arrival} {Seen : Type}
    {look : Running → Seen} {seen : Seen} {picks : List (Pick Bool Arrival)}
    (played : ((machine failSession).play rules fresh picks).map look = some seen) :
    ∃ system, Reached failSession rules system ∧ look system = seen := by
  obtain ⟨system, ran, rfl⟩ := Option.map_eq_some_iff.mp played
  exact ⟨system, Machine.play_reachable (.initial rfl) picks ran, rfl⟩

end GraphEngine.Lifecycles
