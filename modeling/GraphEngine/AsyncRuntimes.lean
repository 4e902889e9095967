import GraphEngine.EdgeQueues
import GraphEngine.Interleavings
import GraphEngine.NodeRuntimes
import Mathlib.Data.List.Sort

/-!
The asynchronous runtime (async_runtime.cpp): the table of requests in flight, the
reorder queue of every node and topology version, the batcher, the completion queue
and the outputs that wait for room. Every section under `state_mutex_` and every atomic
is one step. Which deadlines and batches are due, and whether an operator takes a
request, is left to a choice. Metrics, the wake-ups of the worker and the hooks into the
scheduler are left out.
-/

namespace GraphEngine.AsyncRuntimes

open NodeRuntimes EdgeQueues Interleavings Runs Function

/-- A packet for an output port. `valid` is the check of `PacketRouter::Prepare`: the port
exists and the type is the contract's. -/
structure CompletionOutput where
  port : String
  packet : Packet
  dropped : Bool := false
  valid : Bool := true
  deriving DecidableEq

/-- The ticket numbers the events in the order in which they reach the queue; no code
reads it. -/
structure CompletionEvent where
  ticket : Nat := 0
  requestId : Nat
  sessionId : Nat
  topologyVersion : Nat
  parameterVersion : Nat
  packetSeq : Nat
  ok : Bool := true
  outputs : List CompletionOutput := []
  deriving DecidableEq

structure Request where
  id : Nat
  session : Nat
  topology : Nat
  parameter : Nat
  node : NodeRef
  seq : Nat
  deriving DecidableEq

structure Entry extends Request where
  submitted : Bool := false
  result : Option CompletionEvent := none
  done : Bool := false
  deriving DecidableEq

structure SubmitArgs where
  node : NodeRef
  session : Nat
  topology : Nat
  parameter : Nat
  seq : Nat
  /-- Stands for the operator, model, device and parameter values. -/
  batchKey : Nat := 0
  deriving DecidableEq

def SubmitArgs.request (args : SubmitArgs) (id : Nat) : Request :=
  { id, session := args.session, topology := args.topology, parameter := args.parameter,
    node := args.node, seq := args.seq }

abbrev ReorderKey := NodeRef × Nat

def Request.key (request : Request) : ReorderKey := (request.node, request.topology)

/-- The order of `std::map`, with nodes ordered as their addresses are. -/
def keyBefore (left right : ReorderKey) : Bool :=
  left.1 < right.1 || left.1 = right.1 && left.2 < right.2

/-- The request a pushed packet is for, and the completion it came with; the placeholder of
a request that timed out has none. -/
structure Tag where
  node : NodeRef
  request : Nat
  ticket : Option Nat
  deriving DecidableEq

structure Parcel where
  edge : ChannelRef
  packet : Packet
  tag : Tag
  deriving DecidableEq

structure BlockedOutput where
  session : Nat
  pushes : List Parcel
  deriving DecidableEq

structure AsyncNode where
  state : NodeState := .ready
  cancelled : Bool := false
  asyncPending : Int := 0
  deriving DecidableEq

structure SessionEntry where
  sink : Nat
  batching : Bool
  deriving DecidableEq

structure Sink where
  session : Nat
  alive : Bool := true
  deriving DecidableEq

/-- What nodes and topologies are built with: the largest batch of a node (one, if batching
is off), its output ports, and the edges behind a port in a topology version. -/
structure Setup where
  maxBatch : NodeRef → Nat := fun _ => 1
  outputPorts : Nat → NodeRef → List String
  routes : Nat → NodeRef → String → List ChannelRef
  completionQueueCapacity : Nat := 4096

structure Runtime where
  nodes : NodeRef → AsyncNode := fun _ => {}
  edges : ChannelRef → EdgeQueue
  sessions : Nat → Option SessionEntry := fun _ => none
  sinks : List Sink := []
  nextRequest : Nat := 1
  /-- By ascending id. -/
  inFlight : List Entry := []
  inFlightCount : Int := 0
  reorder : ReorderKey → List Nat := fun _ => []
  /-- By ascending key. -/
  blocked : List (ReorderKey × BlockedOutput) := []
  batches : Nat → List Nat := fun _ => []
  queue : List CompletionEvent := []
  submitLocked : Bool := false
  pumpLocked : Bool := false
  -- History: how many requests were begun for each node, those accepted and those retired
  -- in order, the last one of each node that was taken out for delivery, the number of
  -- events, those that became the answer to a request and those turned away, and the
  -- packets that entered an edge.
  begun : NodeRef → Nat := fun _ => 0
  accepted : List Request := []
  retired : List Request := []
  last : NodeRef → Option Nat := fun _ => none
  tickets : Nat := 0
  answers : List (CompletionEvent × Entry) := []
  orphans : List CompletionEvent := []
  pushed : List (ChannelRef × Tag) := []

def matchesRequest (event : CompletionEvent) (request : Request) : Bool :=
  event.sessionId = request.session && event.topologyVersion = request.topology &&
    event.parameterVersion = request.parameter && event.packetSeq = request.seq

def firstKey : List ReorderKey → Option ReorderKey
  | [] => none
  | key :: rest =>
    match firstKey rest with
    | none => some key
    | some other => some (if keyBefore other key then other else key)

namespace Runtime

def find (runtime : Runtime) (id : Nat) : Option Entry :=
  runtime.inFlight.find? fun entry => entry.id = id

def modifyNode (n : NodeRef) (change : AsyncNode → AsyncNode) (runtime : Runtime) : Runtime :=
  { runtime with nodes := update runtime.nodes n (change (runtime.nodes n)) }

def modifyEntry (id : Nat) (change : Entry → Entry) (runtime : Runtime) : Runtime :=
  { runtime with
    inFlight := runtime.inFlight.map fun entry => if entry.id = id then change entry else entry }

/-- The first half of the locked section of `Submit`. -/
def accept (request : Request) (runtime : Runtime) : Runtime :=
  { runtime with
    inFlight := runtime.inFlight.orderedInsert (fun left right => left.id ≤ right.id)
      { request with }
    inFlightCount := runtime.inFlightCount + 1
    reorder := update runtime.reorder request.key
      (runtime.reorder request.key ++ [request.id])
    accepted := runtime.accepted ++ [request] }

/-- The locked section of `Submit`: the batch to flush now, or nothing. -/
def insert (setup : Setup) (id : Nat) (args : SubmitArgs) (runtime : Runtime) :
    Runtime × List Nat :=
  let placed := runtime.accept (args.request id)
  let batching := (runtime.sessions args.session).any SessionEntry.batching &&
    1 < setup.maxBatch args.node
  if batching then
    let members := runtime.batches args.batchKey ++ [id]
    if setup.maxBatch args.node ≤ members.length then
      ({ placed with batches := update runtime.batches args.batchKey [] }, members)
    else ({ placed with batches := update runtime.batches args.batchKey members }, [])
  else (placed, [id])

def enqueue (event : CompletionEvent) (runtime : Runtime) : Runtime :=
  { runtime with
    queue := runtime.queue ++ [{ event with ticket := runtime.tickets }]
    tickets := runtime.tickets + 1 }

def orphan (event : CompletionEvent) (runtime : Runtime) : Runtime :=
  { runtime with orphans := runtime.orphans ++ [event] }

def answer (event : CompletionEvent) (entry : Entry) (runtime : Runtime) : Runtime :=
  { runtime.modifyEntry entry.id fun entry => { entry with result := some event, done := true } with
    answers := runtime.answers ++ [(event, entry)] }

/-- The locked section of `OnCompletion`: the node that fails, if the result is an error. -/
def onCompletion (event : CompletionEvent) (runtime : Runtime) : Runtime × Option NodeRef :=
  match runtime.find event.requestId with
  -- Unknown, or retired already.
  | none => (runtime.orphan event, none)
  | some entry =>
    -- A duplicate, or later than the deadline.
    if entry.done then (runtime.orphan event, none)
    else if !matchesRequest event entry.toRequest then (runtime.orphan event, none)
    else
      (runtime.answer event entry,
        if !event.ok && !(runtime.nodes entry.node).cancelled then some entry.node else none)

/-- A head without an answer whose deadline is over becomes a gap. -/
def expireHead (runtime : Runtime) (key : ReorderKey) : Runtime :=
  match (runtime.reorder key).head?.bind runtime.find with
  | none => runtime
  | some entry =>
    if entry.done || !entry.submitted then runtime
    else runtime.modifyEntry entry.id fun entry => { entry with result := none, done := true }

def expireDeadlines (late : List ReorderKey) (runtime : Runtime) : Runtime :=
  late.foldl expireHead runtime

/-- Requests that a detach dropped leave the front of their queues. -/
def skipDropped (runtime : Runtime) : Runtime :=
  { runtime with
    reorder := fun key => (runtime.reorder key).dropWhile fun id => (runtime.find id).isNone }

def isBlocked (runtime : Runtime) (key : ReorderKey) : Bool :=
  runtime.blocked.any fun slot => slot.1 = key

/-- The head of a queue, if it can be delivered. While an earlier output waits for room it
cannot. -/
def readyHead (runtime : Runtime) (key : ReorderKey) : Option Entry :=
  if runtime.isBlocked key then none
  else ((runtime.reorder key).head?.bind runtime.find).filter fun entry => entry.done

def nextReady (runtime : Runtime) : Option (ReorderKey × Entry) :=
  let keys := runtime.inFlight.map fun entry => entry.key
  (firstKey (keys.filter fun key => (runtime.readyHead key).isSome)).bind fun key =>
    (runtime.readyHead key).map (key, ·)

def take (key : ReorderKey) (entry : Entry) (runtime : Runtime) : Runtime :=
  { runtime with
    inFlight := runtime.inFlight.filter fun other => other.id ≠ entry.id
    reorder := update runtime.reorder key (runtime.reorder key).tail
    last := update runtime.last entry.node (some entry.id) }

/-- The locked section of `DeliverReady`. -/
def takeReady (runtime : Runtime) : Runtime × Option Entry :=
  let clean := runtime.skipDropped
  match clean.nextReady with
  | none => (clean, none)
  | some (key, entry) => (clean.take key entry, some entry)

/-- The locked section of `DetachSession`: the requests that are dropped. -/
def detach (session : Nat) (runtime : Runtime) : Runtime × List Entry :=
  match runtime.sessions session with
  | none => (runtime, [])
  | some attached =>
    let dropped := runtime.inFlight.filter fun entry => entry.session = session
    let kept := runtime.inFlight.filter fun entry => entry.session ≠ session
    ({ runtime with
        sessions := update runtime.sessions session none
        sinks := runtime.sinks.modify attached.sink fun sink => { sink with alive := false }
        batches := fun key => (runtime.batches key).filter fun id =>
          !(dropped.any fun entry => entry.id = id)
        inFlight := kept
        reorder := fun key =>
          if (runtime.reorder key).any fun id => kept.any fun entry => entry.id = id then
            runtime.reorder key
          else []
        blocked := runtime.blocked.filter fun slot => slot.2.session ≠ session },
      dropped)

/-- The locked section of `DeliverEntry`. -/
def park (key : ReorderKey) (session : Nat) (pushes : List Parcel) (runtime : Runtime) : Runtime :=
  if runtime.isBlocked key then
    { runtime with blocked := runtime.blocked.map fun slot =>
        if slot.1 = key then (key, { slot.2 with pushes := slot.2.pushes ++ pushes }) else slot }
  else
    { runtime with blocked :=
        runtime.blocked.takeWhile (fun slot => keyBefore slot.1 key) ++
          (key, { session, pushes }) :: runtime.blocked.dropWhile fun slot => keyBefore slot.1 key }

/-- The second locked section of `RetryBlockedOutputs`. -/
def storeBlocked (key : ReorderKey) (still : List Parcel) (runtime : Runtime) : Runtime :=
  if still = [] then { runtime with blocked := runtime.blocked.filter fun slot => slot.1 ≠ key }
  else { runtime with blocked := runtime.blocked.map fun slot =>
    if slot.1 = key then (key, { slot.2 with pushes := still }) else slot }

def pushEdge (parcel : Parcel) (runtime : Runtime) : Runtime × PushOutcome :=
  let (outcome, edge) := (runtime.edges parcel.edge).push parcel.packet
  let entered := outcome = .accepted || outcome = .acceptedDroppedOldest
  ({ runtime with
      edges := update runtime.edges parcel.edge edge
      pushed := if entered then runtime.pushed ++ [(parcel.edge, parcel.tag)]
        else runtime.pushed }, outcome)

end Runtime

/-- `endAsync` and `countDown` name the request they are for; the node has no use for it. -/
inductive Op where
  | beginAsync (n : NodeRef)
  | endAsync (request : Request)
  | leaveAsyncPending (n : NodeRef)
  | isCancelled (n : NodeRef)
  | state (n : NodeRef)
  | fail (n : NodeRef)
  | nextRequest
  | insert (id : Nat) (args : SubmitArgs)
  | lockSubmit
  | unlockSubmit
  | markSubmitted (id : Nat)
  | operatorSubmit
  | sinkSession (sink : Nat)
  | pushEvent (event : CompletionEvent)
  | forcePush (event : CompletionEvent)
  | lockPump
  | unlockPump
  | takeDueBatches
  | blockedOutputs
  | push (parcel : Parcel)
  | storeBlocked (key : ReorderKey) (still : List Parcel)
  | drainAll
  | onCompletion (event : CompletionEvent)
  | expireDeadlines
  | takeReady
  | countDown (request : Request)
  | park (key : ReorderKey) (session : Nat) (pushes : List Parcel)
  | detach (session : Nat)
  | retry
  deriving DecidableEq

@[reducible] def Op.Answer : Op → Type
  | .leaveAsyncPending _ | .isCancelled _ | .operatorSubmit => Bool
  | .state _ => NodeState
  | .nextRequest => Nat
  | .insert .. => List Nat
  | .markSubmitted _ => Option Entry
  | .sinkSession _ => Option Nat
  | .takeDueBatches => List (List Nat)
  | .blockedOutputs => List (ReorderKey × BlockedOutput)
  | .push .. => PushOutcome
  | .drainAll => List CompletionEvent
  | .onCompletion _ => Option NodeRef
  | .takeReady => Option Entry
  | .detach _ => List Entry
  | _ => Unit

/-- The batches that are due, the queues whose head is late, and whether an operator takes
a request. -/
structure Choice where
  due : List Nat := []
  late : List ReorderKey := []
  ok : Bool := true
  deriving DecidableEq

def perform (setup : Setup) (runtime : Runtime) : (op : Op) → Choice → Option (Runtime × op.Answer)
  | .beginAsync n, _ => some ({ runtime.modifyNode n fun node =>
    { node with asyncPending := node.asyncPending + 1 } with
      begun := update runtime.begun n (runtime.begun n + 1) }, ())
  | .endAsync request, _ => some ({ runtime.modifyNode request.node fun node =>
    { node with asyncPending := node.asyncPending - 1 } with
      retired := runtime.retired ++ [request] }, ())
  | .leaveAsyncPending n, _ =>
    if (runtime.nodes n).state = .asyncPending then
      some (runtime.modifyNode n fun node => { node with state := .ready }, true)
    else some (runtime, false)
  | .isCancelled n, _ => some (runtime, (runtime.nodes n).cancelled)
  | .state n, _ => some (runtime, (runtime.nodes n).state)
  | .fail n, _ => some (runtime.modifyNode n fun node => { node with state := .failed }, ())
  | .nextRequest, _ =>
    some ({ runtime with nextRequest := runtime.nextRequest + 1 }, runtime.nextRequest)
  | .insert id args, _ => some (runtime.insert setup id args)
  | .lockSubmit, _ =>
    if runtime.submitLocked then none else some ({ runtime with submitLocked := true }, ())
  | .unlockSubmit, _ => some ({ runtime with submitLocked := false }, ())
  | .markSubmitted id, _ =>
    some (runtime.modifyEntry id fun entry => { entry with submitted := true }, runtime.find id)
  | .operatorSubmit, choice => some (runtime, choice.ok)
  | .sinkSession sink, _ =>
    some (runtime, (runtime.sinks[sink]?.filter Sink.alive).map Sink.session)
  | .pushEvent event, _ =>
    -- A full queue drops the event.
    if setup.completionQueueCapacity ≤ runtime.queue.length then some (runtime, ())
    else some (runtime.enqueue event, ())
  | .forcePush event, _ => some (runtime.enqueue event, ())
  | .lockPump, _ =>
    if runtime.pumpLocked then none else some ({ runtime with pumpLocked := true }, ())
  | .unlockPump, _ => some ({ runtime with pumpLocked := false }, ())
  | .takeDueBatches, choice => some ({ runtime with
      batches := fun key => if key ∈ choice.due then [] else runtime.batches key },
      choice.due.dedup.map runtime.batches)
  | .blockedOutputs, _ => some (runtime, runtime.blocked)
  | .push parcel, _ => some (runtime.pushEdge parcel)
  | .storeBlocked key still, _ => some (runtime.storeBlocked key still, ())
  | .drainAll, _ => some ({ runtime with queue := [] }, runtime.queue)
  | .onCompletion event, _ => some (runtime.onCompletion event)
  | .expireDeadlines, choice => some (runtime.expireDeadlines choice.late, ())
  | .takeReady, _ => some runtime.takeReady
  | .countDown _, _ => some ({ runtime with inFlightCount := runtime.inFlightCount - 1 }, ())
  | .park key session pushes, _ => some (runtime.park key session pushes, ())
  | .detach session, _ => some (runtime.detach session)
  | .retry, _ => none

abbrev Routine := Code Op.Answer Empty

abbrev atomic (op : Op) : Routine op.Answer := Code.atomic op

/-- `FailNode`: a node that is over does not fail again. -/
def failNode (n : NodeRef) : Routine Unit := do
  let state ← atomic (.state n)
  if state = .failed || state = .closed then pure () else atomic (.fail n)

/-- `EndAsync`; the scheduler would be told that the node is idle. -/
def endAsync (request : Request) : Routine Unit := do
  atomic (.endAsync request)
  let _ ← atomic (.leaveAsyncPending request.node)

def submitFailure (request : Request) : CompletionEvent where
  requestId := request.id
  sessionId := request.session
  topologyVersion := request.topology
  parameterVersion := request.parameter
  packetSeq := request.seq
  ok := false

def refuses (n : NodeRef) : Routine Bool := do
  if ← atomic (.isCancelled n) then pure true
  else do
    let taken ← atomic .operatorSubmit
    pure !taken

/-- The result of a refused submission travels through the queue; the node, unless it is
retired, is to fail. -/
def flushEntry (request : Request) : Routine (List NodeRef) := do
  if ← refuses request.node then do
    atomic (.forcePush (submitFailure request))
    if ← atomic (.isCancelled request.node) then pure [] else pure [request.node]
  else pure []

def flushMember (id : Nat) : Routine (List NodeRef) := do
  match ← atomic (.markSubmitted id) with
  -- The session was detached meanwhile.
  | none => pure []
  | some entry => flushEntry entry.toRequest

def flushMembers : List Nat → Routine (List NodeRef)
  | [] => pure []
  | id :: rest => do
      let failed ← flushMember id
      let others ← flushMembers rest
      pure (failed ++ others)

def flushBatch (members : List Nat) : Routine Unit := do
  if members = [] then pure ()
  else do
    atomic .lockSubmit
    let failed ← flushMembers members
    Code.each failNode failed
    atomic .unlockSubmit

/-- `BeginAsync` by the scheduler, then `Submit`. -/
def submit (args : SubmitArgs) : Routine Unit := do
  atomic (.beginAsync args.node)
  let id ← atomic .nextRequest
  let members ← atomic (.insert id args)
  flushBatch members

/-- `SessionCompletionSink::Push`. -/
def complete (sink : Nat) (event : CompletionEvent) : Routine Unit := do
  match ← atomic (.sinkSession sink) with
  | none => pure ()
  | some session =>
    atomic (.pushEvent { event with
      sessionId := if event.sessionId = 0 then session else event.sessionId })

/-- `PushAll`: what found no room. -/
def pushAll : List Parcel → Routine (List Parcel)
  | [] => pure []
  | parcel :: rest => do
      let outcome ← atomic (.push parcel)
      let blocked ← pushAll rest
      pure (if outcome = .wouldBlock then parcel :: blocked else blocked)

section Delivery

variable (setup : Setup)

/-- A packet of the request for every edge behind the port. -/
def parcels (request : Request) (ticket : Option Nat) (port : String) (packet : Packet) :
    List Parcel :=
  (setup.routes request.topology request.node port).map fun edge =>
    { edge, packet, tag := { node := request.node, request := request.id, ticket } }

/-- The loop of `DeliverEntry`: what is parked, or nothing if the node failed. -/
def deliverOutputs (request : Request) (ticket : Nat) :
    List CompletionOutput → List Parcel → Routine (Option (List Parcel))
  | [], parked => pure (some parked)
  | output :: rest, parked => do
      let pushes := parcels setup request (some ticket) output.port output.packet
      -- Only the engine sets these marks.
      if output.packet.eos || output.dropped then deliverOutputs request ticket rest parked
      -- Behind a parked packet for one of its edges a packet is parked too.
      else if pushes.any fun parcel => parked.any fun other => other.edge = parcel.edge then
        deliverOutputs request ticket rest (parked ++ pushes)
      else if ← atomic (.isCancelled request.node) then deliverOutputs request ticket rest parked
      else if !output.valid then do
        failNode request.node
        pure none
      else do
        let blocked ← pushAll pushes
        deliverOutputs request ticket rest (parked ++ blocked)

def deliverResult (request : Request) (event : CompletionEvent) : Routine Unit := do
  match ← deliverOutputs setup request event.ticket event.outputs [] with
  | none => pure ()
  | some parked =>
    if parked = [] then pure () else atomic (.park request.key request.session parked)

def deliverEntry (request : Request) (event : CompletionEvent) : Routine Unit := do
  if !event.ok then
    if ← atomic (.isCancelled request.node) then pure () else failNode request.node
  else if ← atomic (.isCancelled request.node) then pure ()
  -- The state is read twice.
  else if (← atomic (.state request.node)) = .closed then pure ()
  else if (← atomic (.state request.node)) = .failed then pure ()
  else deliverResult setup request event

def emitGapOn (request : Request) (port : String) : Routine Unit := do
  if ← atomic (.isCancelled request.node) then pure ()
  else do
    let _ ← pushAll (parcels setup request none port { seq := request.seq })

/-- A placeholder on every output; one that finds no room is lost. -/
def emitGap (request : Request) : Routine Unit := do
  if ← atomic (.isCancelled request.node) then pure ()
  else Code.each (emitGapOn setup request) (setup.outputPorts request.topology request.node)

def deliver (entry : Entry) : Routine Unit :=
  match entry.result with
  | some event => deliverEntry setup entry.toRequest event
  | none => emitGap setup entry.toRequest

def deliverRound (again : Routine Unit) : Routine Unit := do
  match ← atomic .takeReady with
  | none => pure ()
  | some entry => do
      atomic (.countDown entry.toRequest)
      deliver setup entry
      endAsync entry.toRequest
      again

/-- The loop of `DeliverReady`, for as many rounds as it may take. -/
def deliverReady : Nat → Routine Unit
  | 0 => deliverRound setup (atomic .retry)
  | rounds + 1 => deliverRound setup (deliverReady rounds)

/-- The pushes of one node in `RetryBlockedOutputs`: what stays blocked. Behind a packet
that stays, the later ones for its edge stay too. -/
def retryPushes (cancelled : Bool) : List Parcel → List Parcel → Routine (List Parcel)
  | [], still => pure still
  | parcel :: rest, still => do
      -- The outputs of a retired node are dropped.
      if cancelled then retryPushes cancelled rest still
      else if still.any fun other => other.edge = parcel.edge then
        retryPushes cancelled rest (still ++ [parcel])
      else do
        let outcome ← atomic (.push parcel)
        retryPushes cancelled rest (if outcome = .wouldBlock then still ++ [parcel] else still)

def retryBlockedOutput (slot : ReorderKey × BlockedOutput) : Routine Unit := do
  let cancelled ← atomic (.isCancelled slot.1.1)
  let still ← retryPushes cancelled slot.2.pushes []
  atomic (.storeBlocked slot.1 still)

/-- What becomes deliverable is delivered before the next event is looked at. -/
def drainCompletion (rounds : Nat) (event : CompletionEvent) : Routine Unit := do
  match ← atomic (.onCompletion event) with
  | none => deliverReady setup rounds
  | some n => do
      failNode n
      deliverReady setup rounds

def pump (rounds : Nat) : Routine Unit := do
  atomic .lockPump
  let due ← atomic .takeDueBatches
  Code.each flushBatch due
  let slots ← atomic .blockedOutputs
  Code.each retryBlockedOutput slots
  let events ← atomic .drainAll
  Code.each (drainCompletion setup rounds) events
  atomic .expireDeadlines
  deliverReady setup rounds
  atomic .unlockPump

end Delivery

def dropEntry (request : Request) : Routine Unit := do
  atomic (.countDown request)
  endAsync request

def detachSession (session : Nat) : Routine Unit := do
  let dropped ← atomic (.detach session)
  Code.each dropEntry (dropped.map Entry.toRequest)

/-- What reaches the runtime: requests of the scheduler, rounds of the consumer, sessions
that come and go, completions through a sink, and what the rest of the engine does to the
nodes and edges. -/
inductive Arrival where
  | submit (args : SubmitArgs)
  | pump (rounds : Nat)
  | attach (session : Nat) (batching : Bool)
  | detach (session : Nat)
  | complete (sink : Nat) (event : CompletionEvent)
  | cancel (n : NodeRef)
  | setState (n : NodeRef) (state : NodeState)
  | edge (e : ChannelRef) (call : Call)
  deriving DecidableEq

def arrive (setup : Setup) (runtime : Runtime) : Arrival → Option (Runtime × Routine Unit)
  | .submit args => some (runtime, submit args)
  | .pump rounds => some (runtime, pump setup rounds)
  | .attach session batching => some ({ runtime with
      sessions := update runtime.sessions session
        (some { sink := runtime.sinks.length, batching })
      sinks := runtime.sinks ++ [{ session }] }, pure ())
  | .detach session => some (runtime, detachSession session)
  | .complete sink event => some (runtime, complete sink event)
  | .cancel n => some (runtime.modifyNode n fun node => { node with cancelled := true }, pure ())
  | .setState n state =>
    some (runtime.modifyNode n fun node => { node with state := state }, pure ())
  | .edge e call => some ({ runtime with
      edges := update runtime.edges e ((runtime.edges e).call call).2 }, pure ())

abbrev Running := System Op.Answer Runtime Empty

def asyncRuntime (setup : Setup) : Machine Op.Answer Runtime Empty Choice Arrival where
  perform := perform setup
  body := Empty.elim
  arrive := arrive setup

def fresh (edges : ChannelRef → EdgeQueue) : Runtime := { edges }

def Begun (system : Running) : Prop := system.threads = [] ∧ ∃ edges, system.world = fresh edges

def Reached (setup : Setup) (rules : Rules Runtime Op Arrival) : Running → Prop :=
  Reachable Begun ((asyncRuntime setup).Step rules)

theorem played_reached {setup : Setup} {rules : Rules Runtime Op Arrival}
    {edges : ChannelRef → EdgeQueue} {picks : List (Pick Choice Arrival)} {system : Running}
    (played : (asyncRuntime setup).play rules ⟨fresh edges, []⟩ picks = some system) :
    Reached setup rules system :=
  Machine.play_reachable (.initial ⟨rfl, edges, rfl⟩) picks played

end GraphEngine.AsyncRuntimes
