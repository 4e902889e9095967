import GraphEngine.Interleavings
import GraphEngine.SchedulerStates

/-!
The atomic operations of the scheduler and its node runtimes: loads, stores and
compare-and-swaps of atomics, and the sections under a mutex. An operation whose
mutex is taken, or that waits for a condition, is not performed yet. What the
operators do, what an acquisition takes and which deadlines are over is left to a
choice.
-/

namespace GraphEngine.SchedulerOperations

open GraphSpecs NodeRuntimes EdgeQueues InputBindings AcquireBooks SchedulerStates

/-- A packet for the routes of an output port, or only for its video legs. -/
structure Emission where
  port : String
  packet : Packet
  videoOnly : Bool := false
  deriving DecidableEq

structure Script where
  emissions : List Emission := []
  failed : Bool := false
  exhausted : Bool := false
  deriving DecidableEq

/-- A step of an acquisition: it takes the head of the edge that serves a port,
forgets a predecessor that was retired, or ends a port for another's sake. -/
inductive Grab where
  | head (port : Nat)
  | prune (port : Nat) (e : ChannelRef)
  | finish (port : Nat)
  deriving DecidableEq

structure Choice where
  script : Script := {}
  grabs : List Grab := []
  batch : Bool := false
  ok : Bool := true
  expired : List Bool := []
  deriving DecidableEq

inductive Op where
  -- The lifecycle state and the flags of a node.
  | state (n : NodeRef)
  | setState (n : NodeRef) (new : NodeState)
  | casState (n : NodeRef) (old new : NodeState)
  | held (n : NodeRef)
  | hold (n : NodeRef)
  | release (n : NodeRef)
  | cancelled (n : NodeRef)
  | retiring (n : NodeRef)
  | topologyOf (n : NodeRef)
  | clearTopology (n : NodeRef)
  -- Its counters. `giveBack` returns a reservation that met a hold, `turnBack` the
  -- slot of an invocation whose outputs are blocked; `confirm` is the second look at
  -- the slots when draining is entered.
  | takeSlot (n : NodeRef)
  | giveBack (n : NodeRef)
  | turnBack (n : NodeRef)
  | freeSlot (n : NodeRef)
  | slotsFree (n : NodeRef)
  | confirm (n : NodeRef)
  | enterFlight (n : NodeRef)
  | leaveFlight (n : NodeRef)
  | inFlight (n : NodeRef)
  | enterBusy (n : NodeRef)
  | exitBusy (n : NodeRef)
  | isBusy (n : NodeRef)
  | awaitIdle (n : NodeRef)
  | awaitSlots (n : NodeRef)
  | asyncPending (n : NodeRef)
  | beginAsync (n : NodeRef)
  | endAsync (n : NodeRef)
  -- The executor, the operators and the asynchronous runtime.
  | submit (n : NodeRef)
  | record (n : NodeRef) (call : OperatorCall)
  | script
  | answer
  | dispatch (n : NodeRef) (plan : Plan)
  | endSubmission (n : NodeRef)
  | keepBlocked (n : NodeRef) (e : ChannelRef) (packet : Packet)
  -- Edges. `offer` only records what is emitted; `undoBlock` takes a mark back that
  -- came too late.
  | push (e : ChannelRef) (packet : Packet)
  | offer (e : ChannelRef) (packet : Packet)
  | isFull (e : ChannelRef)
  | block (e : ChannelRef)
  | unblock (e : ChannelRef)
  | undoBlock (e : ChannelRef)
  | retireEdge (e : ChannelRef) (fast : Bool)
  -- Input bindings.
  | lockBinding (n : NodeRef)
  | unlockBinding (n : NodeRef)
  | acquire
  | takeHead (n : NodeRef) (port : Nat)
  | prune (n : NodeRef) (port : Nat) (e : ChannelRef)
  | forget (n : NodeRef) (port : Nat) (e : ChannelRef)
  | endPort (n : NodeRef) (port : Nat)
  | boundEdges (n : NodeRef)
  | mayBeReady (n : NodeRef)
  | inputEnded (n : NodeRef)
  -- Parked packets.
  | anyParked
  | hasParked (n : NodeRef)
  | hasParkedFor (n : NodeRef) (e : ChannelRef)
  | park (n : NodeRef) (e : ChannelRef) (packet : Packet)
  | dropParked (n : NodeRef)
  | lockPass
  | unlockPass
  | parkedOf (n : NodeRef)
  | writeBack (n : NodeRef) (pushed : Nat) (still : List (ChannelRef × Packet))
  -- Pending end-of-stream markers.
  | lockSend
  | unlockSend
  | register (n : NodeRef) (ports : List String)
  | eosPorts (n : NodeRef)
  | eraseEos (n : NodeRef) (port : String)
  | finishEos (n : NodeRef)
  -- The scheduler.
  | isStarted
  | start
  | isPaused
  | setPaused (paused : Bool)
  | isStopping
  | isFastStop
  | current
  | detach (n : NodeRef)
  | noneLive
  | claimClosed
  | signal
  | retirePending
  | retiringNodes
  | inject
  | complete
  | onComplete (entry : Retired)
  | swap (next : Plan)
  | retire (policy : RemovePolicy) (nodes : List NodeRef) (edges : List ChannelRef)
  | announce (fast : Bool)
  | hasten
  -- The session.
  | opened
  | openFailed
  | endMutation (candidate before : Plan) (published : Bool)

@[reducible]
def Op.Answer : Op → Type
  | .state _ => NodeState
  | .casState .. | .held _ | .cancelled _ | .retiring _ | .takeSlot _ | .slotsFree _ | .confirm _
  | .isBusy _ | .answer | .isFull _ | .unblock _ | .undoBlock _ | .mayBeReady _ | .inputEnded _
  | .anyParked
  | .hasParked _ | .hasParkedFor .. | .writeBack .. | .finishEos _ | .isStarted | .isPaused
  | .isStopping | .isFastStop | .detach _ | .noneLive | .claimClosed | .retirePending | .swap _ =>
    Bool
  | .leaveFlight _ | .inFlight _ | .asyncPending _ | .endAsync _ => Nat
  | .topologyOf _ => Option Plan
  | .script => Script
  | .push .. => PushOutcome
  | .block _ => EdgeState
  | .acquire => List Grab × Bool
  | .takeHead .. => Option (ChannelRef × Bool)
  | .boundEdges _ => List ChannelRef
  | .parkedOf _ => List (ChannelRef × Packet)
  | .eosPorts _ => Option (List String)
  | .current => Plan
  | .retiringNodes | .inject | .announce _ => List NodeRef
  | .complete => List NodeRef × List Retired × Bool
  | _ => Unit

/-- Takes the head of the edge that serves the port. A marker is reported with its
edge and whether that is a predecessor. -/
def takeHead (world : World) (n : NodeRef) (port : Nat) : World × Option (ChannelRef × Bool) :=
  let served := (world.cells n).ports[port]?.bind fun binding =>
    (servedBy { edges := world.edges } binding).map fun e => (e, decide (binding.edge ≠ some e))
  match served with
  | none => (world, none)
  | some (e, predecessor) =>
    let (packet, rest) := (world.edges e).pop
    (world.touch e fun _ => rest, if packet.any Packet.eos then some (e, predecessor) else none)

def forget (port : Nat) (e : ChannelRef) (cell : Cell) : Cell :=
  { cell with ports := cell.ports.modify port fun binding =>
      { binding with predecessors := binding.predecessors.filter fun other => other ≠ e } }

def endPort (port : Nat) (cell : Cell) : Cell :=
  match cell.ports[port]? with
  | none => cell
  | some binding => { cell with eosPorts := cell.eosPorts.insert binding.port }

/-- The second section of `RetryParked`: what was parked meanwhile stands behind
the packets of the pass. -/
def writeBack (world : World) (n : NodeRef) (pushed : Nat) (still : List (ChannelRef × Packet)) :
    World × Bool :=
  if (world.cells n).parked = [] then (world, true)
  else
    let left := still ++ (world.cells n).parked.drop pushed
    let after := world.modify n fun cell => { cell with parked := left }
    if left = [] then ({ after with parkedNodes := after.parkedNodes - 1 }, true) else (after, false)

variable (plant : Plant)

def allFree (n : NodeRef) (cell : Cell) : Bool := cell.slots = (plant.node n).maxParallelism

def releaseSlot (cell : Cell) : Cell :=
  { cell with slots := cell.slots + 1, reserved := cell.reserved - 1 }

def store (new : NodeState) (cell : Cell) : Cell :=
  { cell with state := new, wasClosed := cell.wasClosed || new = .closed }

def perform (world : World) (op : Op) (choice : Choice) : Option (World × op.Answer) :=
  match op with
  | .state n => some (world, (world.cells n).state)
  | .setState n new => some (world.modify n (store new), ())
  | .casState n old new =>
    if (world.cells n).state = old then
      some (world.modify n fun cell => { cell with state := new }, true)
    else some (world, false)
  | .held n => some (world, (world.cells n).held)
  | .hold n => some (world.modify n fun cell => { cell with held := true }, ())
  | .release n => some (world.modify n fun cell => { cell with held := false }, ())
  | .cancelled n => some (world, (world.cells n).cancelled)
  | .retiring n => some (world, (world.cells n).retiring)
  | .topologyOf n => some (world, (world.cells n).topology)
  | .clearTopology n => some (world.modify n fun cell => { cell with topology := none }, ())
  | .takeSlot n =>
    if 0 < (world.cells n).slots then
      some (world.modify n fun cell =>
        { cell with slots := cell.slots - 1, reserved := cell.reserved + 1 }, true)
    else some (world, false)
  | .giveBack n | .turnBack n | .freeSlot n => some (world.modify n releaseSlot, ())
  | .slotsFree n => some (world, allFree plant n (world.cells n))
  | .confirm n =>
    if allFree plant n (world.cells n) then
      some (world.modify n fun cell => { cell with wins := cell.wins + 1 }, true)
    else some (world, false)
  | .enterFlight n =>
    some (world.modify n fun cell => { cell with inFlight := cell.inFlight + 1 }, ())
  | .leaveFlight n =>
    some (world.modify n fun cell => { cell with inFlight := cell.inFlight - 1 },
      (world.cells n).inFlight - 1)
  | .inFlight n => some (world, (world.cells n).inFlight)
  | .enterBusy n => some (world.modify n fun cell => { cell with busy := cell.busy + 1 }, ())
  | .exitBusy n => some (world.modify n fun cell => { cell with busy := cell.busy - 1 }, ())
  | .isBusy n => some (world, decide ((world.cells n).busy ≠ 0))
  | .awaitIdle n => if (world.cells n).busy = 0 then some (world, ()) else none
  | .awaitSlots n => if allFree plant n (world.cells n) then some (world, ()) else none
  | .asyncPending n => some (world, (world.cells n).asyncPending)
  | .beginAsync n =>
    some (world.modify n fun cell => { cell with asyncPending := cell.asyncPending + 1 }, ())
  | .endAsync n =>
    some (world.modify n fun cell => { cell with asyncPending := cell.asyncPending - 1 },
      (world.cells n).asyncPending - 1)
  | .submit n => some (world.modify n fun cell => { cell with tasks := cell.tasks + 1 }, ())
  | .record n call => some (world.modify n fun cell => { cell with calls := cell.calls ++ [call] }, ())
  -- Operators emit no markers.
  | .script =>
    if choice.script.emissions.all fun emission => !emission.packet.eos then
      some (world, choice.script)
    else none
  | .answer => some (world, choice.ok)
  | .dispatch n plan => some (world.modify n fun cell => { cell with
      requests := cell.requests + 1
      unretired := cell.unretired ++ [plan]
      unsubmitted := cell.unsubmitted + 1 }, ())
  | .endSubmission n =>
    some (world.modify n fun cell => { cell with unsubmitted := cell.unsubmitted - 1 }, ())
  | .keepBlocked n e packet =>
    some ({ world with blockedOutputs := world.blockedOutputs ++ [(n, e, packet)] }, ())
  | .push e packet =>
    let (outcome, edge) := (world.edges e).push packet
    some (world.touch e fun _ => edge, outcome)
  | .offer e packet =>
    if (world.edges e).shut then some (world, ())
    else some ({ world with
      offered := Function.update world.offered e (world.offered e ++ [packet]) }, ())
  | .isFull e => some (world, (world.edges e).full)
  | .block e => some (world.touch e EdgeQueue.block, (world.edges e).state)
  | .unblock e | .undoBlock e =>
    some (world.touch e EdgeQueue.unblock, decide ((world.edges e).state = .backpressured))
  | .retireEdge e fast => some (world.touch e (EdgeQueue.markRetired fast), ())
  | .lockBinding n =>
    if (world.cells n).acquiring then none
    else some (world.modify n fun cell => { cell with acquiring := true }, ())
  | .unlockBinding n => some (world.modify n fun cell => { cell with acquiring := false }, ())
  | .acquire => some (world, choice.grabs, choice.batch)
  | .takeHead n port => some (takeHead world n port)
  | .prune n port e =>
    if (world.edges e).state = .retired ∧ (world.edges e).queue = [] then
      some (world.modify n (forget port e), ())
    else some (world, ())
  | .forget n port e => some (world.modify n (forget port e), ())
  | .endPort n port => some (world.modify n (endPort port), ())
  | .boundEdges n =>
    if (world.cells n).acquiring then none else some (world, (world.cells n).boundEdges)
  | .mayBeReady n =>
    if (world.cells n).acquiring then none
    else some (world, (world.cells n).mayBeReady world.edges)
  | .inputEnded n =>
    if (world.cells n).acquiring then none else some (world, (world.cells n).inputEnded)
  | .anyParked => some (world, decide (world.parkedNodes ≠ 0))
  | .hasParked n => some (world, decide ((world.cells n).parked ≠ []))
  | .hasParkedFor n e => some (world, (world.cells n).parked.any fun entry => entry.1 = e)
  | .park n e packet =>
    let counted := if (world.cells n).parked = [] then world.parkedNodes + 1 else world.parkedNodes
    some ({ world.modify n (fun cell => { cell with parked := cell.parked ++ [(e, packet)] }) with
      parkedNodes := counted }, ())
  | .dropParked n =>
    let counted := if (world.cells n).parked = [] then world.parkedNodes else world.parkedNodes - 1
    some ({ world.modify n (fun cell => { cell with parked := [] }) with
      parkedNodes := counted }, ())
  | .lockPass => if world.passing then none else some ({ world with passing := true }, ())
  | .unlockPass => some ({ world with passing := false }, ())
  | .parkedOf n => some (world, (world.cells n).parked)
  | .writeBack n pushed still => some (writeBack world n pushed still)
  | .lockSend => if world.sending then none else some ({ world with sending := true }, ())
  | .unlockSend => some ({ world with sending := false }, ())
  | .register n ports =>
    if world.sending then none
    else some (world.modify n fun cell => { cell with
      eosRetry := some ((cell.eosRetry.getD [] ++ ports).dedup) }, ())
  | .eosPorts n => some (world, (world.cells n).eosRetry)
  | .eraseEos n port => some (world.modify n fun cell => { cell with
      eosRetry := cell.eosRetry.map fun ports => ports.filter fun other => other ≠ port }, ())
  | .finishEos n =>
    if (world.cells n).eosRetry = some [] then
      some (world.modify n fun cell => { cell with eosRetry := none, delivered := true }, true)
    else some (world, false)
  | .isStarted => some (world, world.started)
  | .start => some ({ world with started := true }, ())
  | .isPaused => some (world, world.paused)
  | .setPaused paused => some ({ world with paused := paused }, ())
  | .isStopping => some (world, world.stopping)
  | .isFastStop => some (world, world.fastStop)
  | .current => some (world, world.topology)
  | .detach n =>
    if n ∈ world.live then some ({ world with live := world.live.erase n }, true)
    else some (world, false)
  | .noneLive => some (world, decide (world.live = []))
  | .claimClosed =>
    if world.allClosed then some (world, false) else some ({ world with allClosed := true }, true)
  | .signal => some ({ world with signals := world.signals + 1 }, ())
  | .retirePending => some (world, decide (world.retired ≠ []))
  | .retiringNodes => some (world, world.retired.flatMap Retired.nodes)
  | .inject =>
    let (after, pending, wake) := world.injectAll plant world.pendingInject
    some ({ after with pendingInject := pending }, wake)
  | .complete =>
    let settled := world.settle plant choice.expired
    some (settled.world, settled.toClose, settled.done, settled.progressed)
  | .onComplete entry => some ({ world with completions := world.completions ++ [entry] }, ())
  | .swap next =>
    if world.stopping then some (world, false)
    -- The bindings are rebound under their locks.
    else if next.wirings.any fun entry => (world.cells entry.1).acquiring then none
    else some (world.swap next, true)
  | .retire policy nodes edges => some (world.retire plant policy nodes edges, ())
  | .announce fast => some (world.announce fast, world.live)
  | .hasten => some (world.hasten, ())
  | .opened => some ({ world with opened := true }, ())
  | .openFailed => some (world, ())
  | .endMutation candidate before published =>
    some ({ world with
      mutating := false
      mutations := world.mutations ++ [⟨candidate, before, world.topology, published⟩] }, ())

end GraphEngine.SchedulerOperations
