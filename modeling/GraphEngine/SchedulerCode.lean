import GraphEngine.SchedulerOperations

/-!
The procedures of the scheduler over its atomic operations, after node_runtime.cpp,
scheduler.cpp, scheduler_invoke.cpp, scheduler_backpressure.cpp, scheduler_retire.cpp
and the parts of session.cpp and async_runtime.cpp that call them. Metrics,
parameters, sequence numbers and event callbacks are left out.
-/

namespace GraphEngine.SchedulerCode

open GraphSpecs NodeRuntimes EdgeQueues Interleavings SchedulerStates SchedulerOperations
open Code (run each)

/-- The procedures that are called in circles: `Tick`, and the loop at its end. -/
inductive Procedure where
  | tick
  | settle
  deriving DecidableEq

abbrev Routine := Code Op.Answer Procedure

abbrev atomic (op : Op) : Routine op.Answer := Code.atomic op

section NodeRuntime

variable (n : NodeRef)

def trySchedule : Routine Bool := do
  let state ← atomic (.state n)
  if isRunnable state = false then pure false
  else if ← atomic (.held n) then pure false
  else if ← atomic (.takeSlot n) then
    -- A hold that raced with the reservation must see the slot as taken, or the
    -- hold is seen here.
    if ← atomic (.held n) then do
      atomic (.giveBack n)
      pure false
    else pure true
  else pure false

def beginInvoke : Routine Unit := do
  atomic (.enterFlight n)
  let _ ← atomic (.casState n .ready .running)

def endInvoke : Routine Unit := do
  let left ← atomic (.leaveFlight n)
  atomic (.freeSlot n)
  if left = 0 then
    let _ ← atomic (.casState n .running .ready)

def tryEnterDraining : Routine Bool := do
  if (← atomic (.inFlight n)) ≠ 0 then pure false
  else if (← atomic (.asyncPending n)) ≠ 0 then pure false
  else if !(← atomic (.slotsFree n)) then pure false
  else if !(← atomic (.casState n .ready .draining)) then pure false
  -- A reservation that raced with the swap saw draining, or its slot is seen here.
  else if ← atomic (.confirm n) then pure true
  else do
    let _ ← atomic (.casState n .draining .ready)
    pure false

def openNode : Routine Bool := do
  if ← atomic (.casState n .created .opening) then do
    atomic (.record n .openBegin)
    let ok ← atomic .answer
    atomic (.record n (.openEnd ok))
    atomic (.setState n (if ok then .ready else .failed))
    pure ok
  else pure false

def close : Routine Unit := do
  match ← atomic (.state n) with
  | .closed => pure ()
  | .created => atomic (.setState n .closed)
  | _ => do
      atomic (.setState n .closing)
      atomic (.record n .closeBegin)
      atomic (.record n .closeEnd)
      atomic (.setState n .closed)

def fail : Routine Unit := atomic (.setState n .failed)

/-- `EndAsync`: the node left the asynchronous wait or nothing is pending. -/
def endAsync : Routine Bool := do
  let left ← atomic (.endAsync n)
  let back ← atomic (.casState n .asyncPending .ready)
  pure (back || left = 0)

end NodeRuntime

def markReady (n : NodeRef) : Routine Unit := do
  if !(← atomic .isStarted) then pure ()
  else if ← atomic .isFastStop then pure ()
  else if ← trySchedule n then atomic (.submit n)
  else pure ()

section Backpressure

variable (plant : Plant)

def clearBackpressure (e : ChannelRef) : Routine Bool := do
  if ← atomic (.isFull e) then pure false else atomic (.unblock e)

def markBackpressured (e : ChannelRef) : Routine Bool := do
  match ← atomic (.block e) with
  -- Pushes are cancelled, not blocked.
  | .draining | .retired => pure false
  | .active | .backpressured =>
    if ← atomic (.isFull e) then pure true
    -- A slot was freed meanwhile, unless it is taken again.
    else if ← atomic (.isFull e) then pure false
    else do
      let _ ← atomic (.undoBlock e)
      pure false

def edgeBlocked (e : ChannelRef) : Routine Bool := do
  if (plant.edge e).policy ≠ .block then pure false
  else if ← atomic (.isFull e) then markBackpressured e
  else pure false

/-- Every full edge is marked, also behind the first one. -/
def blockedEdges : List ChannelRef → Routine Bool
  | [] => pure false
  | e :: rest => do
      let blocked ← edgeBlocked plant e
      let others ← blockedEdges rest
      pure (blocked || others)

def outputsBlocked (n : NodeRef) (plan : Plan) : Routine Bool :=
  blockedEdges plant ((plan.outputPorts plant n).flatMap (plan.routesFor plant n))

def hasParked (n : NodeRef) : Routine Bool := do
  if ← atomic .anyParked then atomic (.hasParked n) else pure false

def hasParkedFor (n : NodeRef) (e : ChannelRef) : Routine Bool := do
  if ← atomic .anyParked then atomic (.hasParkedFor n e) else pure false

/-- A packet for an edge outside the node's topology is dropped. -/
def park (n : NodeRef) (e : ChannelRef) (packet : Packet) : Routine Unit := do
  let plan ← atomic (.topologyOf n)
  if plan.any fun plan => plan.edges.contains e then atomic (.park n e packet) else pure ()

/-- The loop of `RetryParked`: behind a packet that was refused, everything for
its edge stays parked. Returns what stays and the consumers to wake. -/
def repush (blocked : List ChannelRef) : List (ChannelRef × Packet) →
    Routine (List (ChannelRef × Packet) × List NodeRef)
  | [] => pure ([], [])
  | (e, packet) :: rest => do
      if e ∈ blocked then do
        let (still, targets) ← repush blocked rest
        pure ((e, packet) :: still, targets)
      else
        match ← atomic (.push e packet) with
        | .wouldBlock => do
            let (still, targets) ← repush (e :: blocked) rest
            pure ((e, packet) :: still, targets)
        | .accepted | .acceptedDroppedOldest => do
            let (still, targets) ← repush blocked rest
            pure (still, (plant.edge e).consumer :: targets)
        | .droppedNewest | .cancelled => repush blocked rest

def retryPass (n : NodeRef) : Routine Bool := do
  let work ← atomic (.parkedOf n)
  if work = [] then pure true
  else if ← atomic (.cancelled n) then do
    atomic (.dropParked n)
    pure true
  else do
    let (still, targets) ← repush plant [] work
    let empty ← atomic (.writeBack n work.length still)
    each markReady targets
    pure empty

/-- Whether nothing is left parked. One pass runs at a time. -/
def retryParked (n : NodeRef) : Routine Bool := do
  atomic .lockPass
  let empty ← retryPass plant n
  atomic .unlockPass
  pure empty

/-- `HasParked && !RetryParked` does not hold. -/
def clearsParked (n : NodeRef) : Routine Bool := do
  if ← hasParked n then retryParked plant n else pure true

end Backpressure

section Finish

variable (plant : Plant)

def checkAllClosed : Routine Unit := do
  if ← atomic .noneLive then
    if ← atomic .claimClosed then atomic .signal else pure ()
  else pure ()

def tickIfRetiring : Routine Unit := do
  if ← atomic .retirePending then run .tick else pure ()

def onNodeDone (n : NodeRef) : Routine Unit := do
  if ← atomic (.detach n) then do
    atomic (.dropParked n)
    atomic (.clearTopology n)
    checkAllClosed
    tickIfRetiring
  else pure ()

def closeNode (n : NodeRef) : Routine Unit := do
  if (← atomic (.state n)) ≠ .created then atomic (.setState n .closing) else pure ()
  close n

/-- `PushAll` of a marker: whether some edge had no room, and the consumers of
those that had. -/
def pushMarker : List ChannelRef → Routine (Bool × List NodeRef)
  | [] => pure (false, [])
  | e :: rest => do
      let outcome ← atomic (.push e marker)
      let (blocked, targets) ← pushMarker rest
      match outcome with
      | .wouldBlock => pure (true, targets)
      | .accepted | .acceptedDroppedOldest => pure (blocked, (plant.edge e).consumer :: targets)
      | .droppedNewest | .cancelled => pure (blocked, targets)

/-- `EmitEos` on every pending port. A port whose edges all took the marker is no
longer pending. -/
def sendEos (n : NodeRef) (plan : Option Plan) : List String → Routine (List NodeRef)
  | [] => pure []
  | port :: rest => do
      let (blocked, targets) ← pushMarker plant (plan.elim [] fun plan => plan.routesFor plant n port)
      if blocked then pure () else atomic (.eraseEos n port)
      let others ← sendEos n plan rest
      pure (targets ++ others)

/-- The locked section of `RetryBlocked`: whether every marker is delivered. -/
def retryEos (n : NodeRef) : Routine Bool := do
  atomic .lockSend
  match ← atomic (.eosPorts n) with
  | none => do
      atomic .unlockSend
      pure false
  | some ports => do
      let plan ← atomic (.topologyOf n)
      let wake ← sendEos plant n plan ports
      let done ← atomic (.finishEos n)
      atomic .unlockSend
      each markReady wake
      pure done

def retryBlocked (n : NodeRef) : Routine Unit := do
  if ← clearsParked plant n then
    if ← retryEos plant n then do
      if (← atomic (.state n)) ≠ .failed then closeNode n else pure ()
      onNodeDone n
    else pure ()
  else pure ()

def tryCloseCancelled (n : NodeRef) : Routine Bool := do
  if ← atomic (.isBusy n) then pure false
  else
    let state ← atomic (.state n)
    if isOver state then do
      onNodeDone n
      pure false
    else if state = .closing then pure false
    else if (← atomic (.asyncPending n)) ≠ 0 then pure false
    else
      let left ←
        if state = .asyncPending then atomic (.casState n .asyncPending .ready) else pure true
      if !left then pure false
      else if state = .draining then do
        -- It waits for room for its markers; they are cancelled now.
        retryBlocked plant n
        let now ← atomic (.state n)
        pure (isOver now)
      else
        let won ← tryEnterDraining n
        let closes ← if won then pure true else do
          let now ← atomic (.state n)
          pure (decide (now = .created))
        if closes then do
          closeNode n
          onNodeDone n
          pure true
        else pure false

end Finish

section Emit

variable (plant : Plant)

/-- One edge of `PushOnRoutes`: behind a parked packet, later ones are parked too.
Returns the consumer if the packet entered the edge. -/
def pushOnRoute (n : NodeRef) (packet : Packet) (e : ChannelRef) : Routine (List NodeRef) := do
  atomic (.offer e packet)
  if ← hasParkedFor n e then do
    park n e packet
    pure []
  else
    match ← atomic (.push e packet) with
    | .wouldBlock => do
        park n e packet
        pure []
    | .accepted | .acceptedDroppedOldest => pure [(plant.edge e).consumer]
    | .droppedNewest | .cancelled => pure []

def pushOnRoutes (n : NodeRef) (packet : Packet) : List ChannelRef → Routine (List NodeRef)
  | [] => pure []
  | e :: rest => do
      let reached ← pushOnRoute plant n packet e
      let others ← pushOnRoutes n packet rest
      pure (reached ++ others)

/-- `Sink::Emit`; the output of a cancelled node is refused. -/
def emit (n : NodeRef) (plan : Plan) (emission : Emission) : Routine Unit := do
  if ← atomic (.cancelled n) then pure ()
  else do
    let routes := (plan.routesFor plant n emission.port).filter fun e =>
      !emission.videoOnly || (plant.edge e).video
    let targets ← pushOnRoutes plant n emission.packet routes
    each markReady targets

end Emit

section Invoke

variable (plant : Plant)

/-- The flush of `FinishNode`; a cancelled node is not flushed. -/
def flush (n : NodeRef) (plan : Plan) : Routine Unit := do
  if ← atomic (.cancelled n) then pure ()
  else do
    atomic (.record n .flushBegin)
    let script ← atomic .script
    each (emit plant n plan) script.emissions
    atomic (.record n .flushEnd)
    if script.failed then
      if ← atomic (.cancelled n) then pure () else fail n
    else pure ()

def finishNode (n : NodeRef) : Routine Unit := do
  let plan ← atomic (.topologyOf n)
  match plan with
  | none => pure ()
  | some plan => flush plant n plan
  atomic (.register n (plan.elim [] fun plan => plan.outputPorts plant n))
  retryBlocked plant n

def grab (n : NodeRef) : Grab → Routine Unit
  | .head port => do
      match ← atomic (.takeHead n port) with
      | none => pure ()
      | some (e, predecessor) =>
        if predecessor then do
          atomic (.retireEdge e false)
          atomic (.forget n port e)
        else atomic (.endPort n port)
  | .prune port e => atomic (.prune n port e)
  | .finish port => atomic (.endPort n port)

def wakeProducer (e : ChannelRef) : Routine Unit := do
  if ← clearBackpressure e then do
    let up := (plant.edge e).producer
    let _ ← clearsParked plant up
    if (← atomic (.state up)) = .draining then retryBlocked plant up else markReady up
  else pure ()

def acquireBatch (n : NodeRef) : Routine Bool := do
  atomic (.lockBinding n)
  let (grabs, batch) ← atomic .acquire
  each (grab n) grabs
  atomic (.unlockBinding n)
  let edges ← atomic (.boundEdges n)
  each (wakeProducer plant) edges
  tickIfRetiring
  pure batch

/-- `RunProcessCall`: whether the source is exhausted, if the node may go on. -/
def runProcessCall (n : NodeRef) (plan : Plan) : Routine (Option Bool) := do
  atomic (.record n .processBegin)
  let script ← atomic .script
  each (emit plant n plan) script.emissions
  atomic (.record n .processEnd)
  if script.failed then
    if ← atomic (.cancelled n) then do
      endInvoke n
      pure none
    else do
      -- Failed before the slot is free: no further invocation is let in.
      fail n
      endInvoke n
      onNodeDone n
      pure none
  else do
    endInvoke n
    if ← atomic (.cancelled n) then pure none else pure (some script.exhausted)

def drainAndFinish (n : NodeRef) : Routine Unit := do
  if ← tryEnterDraining n then finishNode plant n else pure ()

def produce (n : NodeRef) (plan : Plan) : Routine Unit := do
  beginInvoke n
  match ← runProcessCall plant n plan with
  | none => pure ()
  | some true => drainAndFinish plant n
  | some false =>
    -- A held node is marked again by the publish.
    if ← atomic (.held n) then pure ()
    else if ← outputsBlocked plant n plan then pure ()
    else markReady n

/-- A paused source waits, unless it is retiring. -/
def sourceWaits (n : NodeRef) : Routine Bool := do
  if ← atomic .isPaused then do
    let retiring ← atomic (.retiring n)
    pure (!retiring)
  else pure false

def sourceEnds (n : NodeRef) : Routine Bool := do
  if ← atomic .isStopping then pure true else atomic (.retiring n)

def runSource (n : NodeRef) (plan : Plan) : Routine Unit := do
  if ← sourceWaits n then atomic (.freeSlot n)
  else if ← sourceEnds n then do
    atomic (.freeSlot n)
    drainAndFinish plant n
  else produce plant n plan

def markIfReady (n : NodeRef) : Routine Unit := do
  if ← atomic (.mayBeReady n) then
    if ← atomic (.held n) then pure () else markReady n
  else pure ()

def consume (n : NodeRef) (plan : Plan) : Routine Unit := do
  beginInvoke n
  match ← runProcessCall plant n plan with
  | none => pure ()
  | some _ =>
    if ← atomic (.held n) then pure ()
    else if ← atomic (.mayBeReady n) then markReady n
    else if ← atomic (.inputEnded n) then drainAndFinish plant n
    else pure ()

def runProcess (n : NodeRef) (plan : Plan) : Routine Unit := do
  if ← acquireBatch plant n then consume plant n plan
  else do
    atomic (.freeSlot n)
    let won ← if ← atomic (.inputEnded n) then tryEnterDraining n else pure false
    if won then finishNode plant n
    -- A producer that lost to this slot is made up for.
    else markIfReady n

/-- `ParkAsync`; a completion that came before the switch is made up for. -/
def parkAsync (n : NodeRef) (untilZero : Bool) : Routine Unit := do
  let _ ← atomic (.casState n .ready .asyncPending)
  let pending ← atomic (.asyncPending n)
  let freed := if untilZero then pending = 0 else pending < (plant.node n).asyncMaxInFlight
  if freed then
    if ← atomic (.casState n .asyncPending .ready) then
      if ← atomic (.held n) then pure () else markReady n
    else pure ()
  else pure ()

/-- The hand-over of a batch to the asynchronous runtime and what follows it. -/
def handOver (n : NodeRef) (plan : Plan) : Routine Unit := do
  beginInvoke n
  atomic (.beginAsync n)
  atomic (.dispatch n plan)
  endInvoke n
  if ← atomic (.cancelled n) then pure ()
  else if ← atomic (.held n) then pure ()
  else if ← atomic (.mayBeReady n) then markReady n
  -- The end of the input is seen on the next turn.
  else if ← atomic (.inputEnded n) then markReady n
  else pure ()

def runAsync (n : NodeRef) (plan : Plan) : Routine Unit := do
  if (plant.node n).asyncMaxInFlight ≤ (← atomic (.asyncPending n)) then do
    atomic (.freeSlot n)
    parkAsync plant n false
  else if ← acquireBatch plant n then
    if !plant.asyncRuntime then do
      atomic (.freeSlot n)
      fail n
      onNodeDone n
    else handOver n plan
  else do
    atomic (.freeSlot n)
    if ← atomic (.inputEnded n) then
      if ← tryEnterDraining n then finishNode plant n
      else if (← atomic (.asyncPending n)) ≠ 0 then parkAsync plant n true
      else pure ()
    else markIfReady n

/-- The gates for the output; each returns the slot. -/
def runNode (n : NodeRef) (plan : Plan) : Routine Unit := do
  if !(← clearsParked plant n) then do
    atomic (.turnBack n)
    -- The parked output may have drained while this slot was taken.
    if ← hasParked n then pure ()
    else if ← atomic (.held n) then pure ()
    else markReady n
  else if ← outputsBlocked plant n plan then do
    atomic (.turnBack n)
    if ← outputsBlocked plant n plan then pure ()
    else if ← atomic (.held n) then pure ()
    else markReady n
  else if (plant.node n).isSource then runSource plant n plan
  else if (plant.node n).isAsync then runAsync plant n plan
  else runProcess plant n plan

/-- The gates in front of an invocation; each returns the slot. -/
def invokeBody (n : NodeRef) (plan : Option Plan) : Routine Unit := do
  if isRunnable (← atomic (.state n)) = false then atomic (.freeSlot n)
  else if ← atomic .isFastStop then atomic (.freeSlot n)
  else if ← atomic (.cancelled n) then atomic (.freeSlot n)
  else if ← atomic (.held n) then atomic (.freeSlot n)
  else
    match plan with
    | none => atomic (.freeSlot n)
    | some plan => runNode plant n plan

def invoke (n : NodeRef) : Routine Unit := do
  atomic (.enterBusy n)
  let plan ← atomic (.topologyOf n)
  invokeBody plant n plan
  atomic (.exitBusy n)
  if ← atomic (.cancelled n) then do
    let _ ← tryCloseCancelled plant n
  else pure ()

end Invoke

section Async

variable (plant : Plant)

def failAsync (n : NodeRef) : Routine Unit := do
  if isOver (← atomic (.state n)) then pure ()
  else do
    fail n
    onNodeDone n

def submission (n : NodeRef) : Routine Unit := do
  if ← atomic (.cancelled n) then atomic (.endSubmission n)
  else do
    atomic (.record n .submitBegin)
    let ok ← atomic .answer
    atomic (.record n .submitEnd)
    atomic (.endSubmission n)
    if ok then pure ()
    else if ← atomic (.cancelled n) then pure ()
    else failAsync n

def pushResult (n : NodeRef) (packet : Packet) (e : ChannelRef) : Routine (List NodeRef) := do
  match ← atomic (.push e packet) with
  | .wouldBlock => do
      atomic (.keepBlocked n e packet)
      pure []
  | .accepted | .acceptedDroppedOldest => pure [(plant.edge e).consumer]
  | .droppedNewest | .cancelled => pure []

def pushResults (n : NodeRef) (packet : Packet) : List ChannelRef → Routine (List NodeRef)
  | [] => pure []
  | e :: rest => do
      let reached ← pushResult plant n packet e
      let others ← pushResults n packet rest
      pure (reached ++ others)

def deliver (n : NodeRef) (plan : Plan) (emission : Emission) : Routine Unit := do
  if ← atomic (.cancelled n) then pure ()
  else do
    let targets ← pushResults plant n emission.packet (plan.routesFor plant n emission.port)
    each markReady targets

def onAsyncIdle (n : NodeRef) : Routine Unit := do
  if ← atomic (.cancelled n) then do
    let _ ← tryCloseCancelled plant n
  else if isRunnable (← atomic (.state n)) then
    if ← atomic (.held n) then pure () else markReady n
  else pure ()

/-- A request is retired: its result is delivered, or an error fails the node. -/
def completion (n : NodeRef) (plan : Plan) : Routine Unit := do
  let script ← atomic .script
  if ← atomic (.cancelled n) then pure ()
  else if script.failed then failAsync n
  else if isOver (← atomic (.state n)) then pure ()
  else each (deliver plant n plan) script.emissions
  if ← endAsync n then onAsyncIdle plant n else pure ()

def redelivery (n : NodeRef) (e : ChannelRef) (packet : Packet) : Routine Unit := do
  if ← atomic (.cancelled n) then pure ()
  else do
    let targets ← pushResult plant n packet e
    each markReady targets

end Async

section Control

variable (plant : Plant)

/-- `OpenNodes`; if a node fails, those opened before are closed. -/
def openNodes (opened : List NodeRef) : List NodeRef → Routine Bool
  | [] => pure true
  | n :: rest => do
      if (← atomic (.state n)) ≠ .created then openNodes opened rest
      else if ← openNode n then openNodes (opened ++ [n]) rest
      else do
        each close opened
        pure false

def abandonCandidate (candidate : Plan) : Routine Unit := do
  each (fun n => do
    if isOver (← atomic (.state n)) then pure () else close n) candidate.newNodes
  each (fun e => atomic (.retireEdge e true)) candidate.newEdges

def markSources (nodes : List NodeRef) : Routine Unit :=
  each (fun n => if (plant.node n).isSource then markReady n else pure ()) nodes

/-- `Session::Start`. -/
def start : Routine Unit := do
  let plan ← atomic .current
  if ← openNodes [] plan.nodes then do
    atomic .opened
    atomic .start
    let plan ← atomic .current
    markSources plant plan.nodes
  else atomic .openFailed

def pause : Routine Unit := atomic (.setPaused true)

def resume : Routine Unit := do
  atomic (.setPaused false)
  let plan ← atomic .current
  markSources plant plan.nodes

def retireEdges (edges : List ChannelRef) : Routine Unit :=
  each (fun e => atomic (.retireEdge e true)) edges

def retireOutputs (n : NodeRef) : Routine Unit := do
  match ← atomic (.topologyOf n) with
  | none => pure ()
  | some plan => retireEdges plan.edges

def sweep (n : NodeRef) : Routine Unit := do
  let _ ← tryCloseCancelled plant n

def stop (fast : Bool) : Routine Unit := do
  let live ← atomic (.announce fast)
  if fast then do
    atomic .hasten
    each retireOutputs live
    let plan ← atomic .current
    retireEdges plan.edges
    -- A node in a call closes itself when the call returns.
    each (sweep plant) live
    run .tick
    checkAllClosed
  else do
    atomic (.setPaused false)
    markSources plant live
    run .tick

def retryInjections : Routine Unit := do
  let wake ← atomic .inject
  each markReady wake

/-- The nodes that `CompleteRetired` closes: whether one of them was closed. -/
def closeAll : List NodeRef → Routine Bool
  | [] => pure false
  | n :: rest => do
      let closed ← tryCloseCancelled plant n
      let others ← closeAll rest
      pure (closed || others)

/-- The callbacks run last, outside the lock. -/
def completeRetired : Routine Bool := do
  let (toClose, done, progressed) ← atomic .complete
  let closed ← closeAll plant toClose
  each (fun entry => atomic (.onComplete entry)) done
  pure (progressed || closed)

/-- A drain may have completed between checks. -/
def settle : Routine Unit := do
  if ← completeRetired plant then run .settle else pure ()

/-- Retiring nodes that are idle with ended input need a nudge. -/
def nudge (n : NodeRef) : Routine Unit := do
  let state ← atomic (.state n)
  if state = .draining then retryBlocked plant n
  else if isRunnable state = false then pure ()
  else if ← atomic (.cancelled n) then do
    let _ ← tryCloseCancelled plant n
  else markReady n

def tick : Routine Unit := do
  retryInjections
  if ← atomic .retirePending then do
    let nodes ← atomic .retiringNodes
    each (nudge plant) nodes
    run .settle
  else pure ()

/-- `quiescent()` in a loop: the call in progress and the queued tasks run out. -/
def waitQuiescent (n : NodeRef) : Routine Unit := do
  atomic (.awaitIdle n)
  atomic (.awaitSlots n)

def kick (n : NodeRef) : Routine Unit := do
  if (plant.node n).isSource then markReady n
  else if ← atomic (.mayBeReady n) then markReady n
  else pure ()

/-- The kept producers of the removed edges. -/
def heldNodes (prev next : Plan) : List NodeRef :=
  let removed := prev.edges.filter fun e => e ∉ next.edges
  ((removed.map fun e => (plant.edge e).producer).filter fun p =>
    p ∈ prev.nodes ∧ p ∈ next.nodes).dedup

/-- Whether the topology was published; a stop that came first refuses it. -/
def publish (next : Plan) (policy : RemovePolicy) : Routine Bool := do
  if ← atomic .isStopping then pure false
  else
    let prev ← atomic .current
    let removedNodes := prev.nodes.filter fun n => n ∉ next.nodes
    let removedEdges := prev.edges.filter fun e => e ∉ next.edges
    let held := heldNodes plant prev next
    each (fun n => atomic (.hold n)) held
    each waitQuiescent held
    if ← atomic (.swap next) then do
      atomic (.retire policy removedNodes removedEdges)
      retryInjections
      each (fun n => atomic (.release n)) held
      if ← atomic .isStarted then do
        each (kick plant) next.nodes
        each (kick plant) removedNodes
      else pure ()
      run .tick
      pure true
    else do
      each (fun n => do
        atomic (.release n)
        -- An invocation that was skipped while held would be lost otherwise.
        markReady n) held
      pure false

/-- A mutation from the warm-up on; it may also be given up after the warm-up. -/
def mutate (base candidate : Plan) (policy : RemovePolicy) : Routine Unit := do
  let published ←
    if ← openNodes [] candidate.nodes then
      if ← atomic .answer then publish plant candidate policy else pure false
    else pure false
  if published then pure () else abandonCandidate candidate
  atomic (.endMutation candidate base published)

end Control

def body (plant : Plant) : Procedure → Routine Unit
  | .tick => tick plant
  | .settle => settle plant

end GraphEngine.SchedulerCode
