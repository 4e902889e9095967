import GraphEngine.AcquireBooks
import GraphEngine.Topologies

/-!
What the scheduler works on: node runtimes with their atomics, their input binding
and their entries in the scheduler's maps, edges, the flags and lists of the
scheduler, and what is recorded of a run. A topology is seen here as the lists of
its nodes and edges; its routes follow from the ends of the edges.
-/

namespace GraphEngine.SchedulerStates

open GraphSpecs NodeRuntimes EdgeQueues InputBindings AcquireBooks

structure NodeInfo where
  isSource : Bool := false
  isAsync : Bool := false
  outputs : List String := []
  maxParallelism : Nat := 1
  asyncMaxInFlight : Nat := 16
  positive : 0 < maxParallelism := by decide
  single : isAsync = true → maxParallelism = 1 := by decide

structure EdgeInfo where
  producer : NodeRef
  fromPort : String
  consumer : NodeRef
  capacity : Nat := 8
  policy : DropPolicy := .block
  video : Bool := false
  deriving DecidableEq

/-- The construction data of all nodes and edges, and whether there is an
asynchronous runtime. -/
structure Plant where
  node : NodeRef → NodeInfo
  edge : ChannelRef → EdgeInfo
  asyncRuntime : Bool := true

/-- An input binding as a topology is built with it. -/
structure Wiring where
  ports : List InputPortBinding
  policy : SyncPolicy := .any
  aligned : AlignedOptions := {}
  deriving DecidableEq

/-- A runtime topology. The nodes stand in topological order; `wirings` binds the
new nodes and rebinds kept ones. -/
structure Plan where
  nodes : List NodeRef
  edges : List ChannelRef
  newNodes : List NodeRef := []
  newEdges : List ChannelRef := []
  wirings : List (NodeRef × Wiring) := []
  deriving DecidableEq

def Plan.routesFor (plant : Plant) (plan : Plan) (n : NodeRef) (port : String) : List ChannelRef :=
  plan.edges.filter fun e => (plant.edge e).producer = n ∧ (plant.edge e).fromPort = port

/-- `OutputPorts`; a node that is not part of the topology has none. -/
def Plan.outputPorts (plant : Plant) (plan : Plan) (n : NodeRef) : List String :=
  if n ∈ plan.nodes then (plant.node n).outputs else []

def Plan.wiringOf (plan : Plan) (n : NodeRef) : Option Wiring :=
  (plan.wirings.find? fun entry => entry.1 = n).map Prod.snd

inductive OperatorCall where
  | openBegin | openEnd (ok : Bool)
  | processBegin | processEnd
  | flushBegin | flushEnd
  | submitBegin | submitEnd
  | closeBegin | closeEnd
  deriving DecidableEq

/-- A node runtime with its input binding and its entries in `parked_` and
`eos_retry_`. The binding exists for every node that is not a source. -/
structure Cell where
  state : NodeState := .created
  slots : Nat
  inFlight : Nat := 0
  asyncPending : Nat := 0
  busy : Nat := 0
  held : Bool := false
  cancelled : Bool := false
  retiring : Bool := false
  topology : Option Plan := none
  ports : List InputPortBinding := []
  policy : SyncPolicy := .any
  aligned : AlignedOptions := {}
  eosPorts : List String := []
  /-- Somebody holds the lock of the binding. -/
  acquiring : Bool := false
  parked : List (ChannelRef × Packet) := []
  eosRetry : Option (List String) := none
  /-- Tasks of this node in the executor's queue. -/
  tasks : Nat := 0
  /-- Requests handed to the asynchronous runtime: those it has not submitted yet,
  and those it has not retired yet with the topology they were made in. -/
  requests : Nat := 0
  unretired : List Plan := []
  -- History: slots taken and not returned, requests whose submission has not
  -- ended, successful entries into draining, calls of the operator, whether the
  -- node was ever closed and whether all its markers were delivered.
  reserved : Nat := 0
  unsubmitted : Nat := 0
  wins : Nat := 0
  calls : List OperatorCall := []
  wasClosed : Bool := false
  delivered : Bool := false
  deriving DecidableEq

/-- A retired topology that is not completed yet, with the number of its publish. -/
structure Retired where
  number : Nat := 0
  nodes : List NodeRef
  edges : List ChannelRef
  fastApplied : Bool := false
  timedOut : Bool := false
  deriving DecidableEq

/-- A stop: the nodes it sweeps, and the topology and all nodes that were attached
when it was announced. -/
structure Announcement where
  fast : Bool
  snapshot : List NodeRef
  topology : Plan
  attached : List NodeRef
  deriving DecidableEq

/-- A finished mutation: the topologies before and after it. -/
structure Mutation where
  candidate : Plan
  before : Plan
  after : Plan
  published : Bool
  deriving DecidableEq

structure World where
  topology : Plan
  cells : NodeRef → Cell
  edges : ChannelRef → EdgeQueue
  live : List NodeRef
  started : Bool := false
  paused : Bool := false
  stopping : Bool := false
  fastStop : Bool := false
  allClosed : Bool := false
  parkedNodes : Nat := 0
  /-- `park_retry_mutex_` and `retry_mutex_` are taken. -/
  passing : Bool := false
  sending : Bool := false
  retired : List Retired := []
  pendingInject : List ChannelRef := []
  /-- Results of asynchronous nodes that wait for room on an edge. -/
  blockedOutputs : List (NodeRef × ChannelRef × Packet) := []
  -- The session: it has begun to start, its nodes are open, a mutation is running,
  -- and the nodes and edges that were ever built.
  begun : Bool := false
  opened : Bool := false
  mutating : Bool := false
  builtNodes : List NodeRef
  builtEdges : List ChannelRef
  -- History: the nodes ever attached, the stops, the mutations, the all-closed
  -- signals, the packets emitted towards each edge before it was drained or retired,
  -- what had entered an edge when its removal began to drain it, what each publish
  -- removed, the publishes whose drain a deadline has cut short, and the calls of
  -- `on_complete` with the entries they were for.
  attached : List NodeRef
  announced : List Announcement := []
  mutations : List Mutation := []
  signals : Nat := 0
  offered : ChannelRef → List Packet := fun _ => []
  removed : ChannelRef → Option (List Packet) := fun _ => none
  removals : List (List NodeRef × List ChannelRef) := []
  expirations : List Nat := []
  completions : List Retired := []

/-- The end-of-stream marker; its sequence number is left out. -/
def marker : Packet := { seq := 0, eos := true }

def isRunnable (state : NodeState) : Bool := state = .ready || state = .running

def isOver (state : NodeState) : Bool := state = .closed || state = .failed

def Cell.mayBeReady (cell : Cell) (edges : ChannelRef → EdgeQueue) : Bool :=
  cell.ports.any fun binding =>
    (servedBy { edges } binding).any fun ref => !(edges ref).queue.isEmpty

def Cell.inputEnded (cell : Cell) : Bool :=
  let required := cell.ports.filter InputPortBinding.required
  let decisive := if required = [] then cell.ports else required
  decisive.all (fun binding => binding.port ∈ cell.eosPorts) && !cell.ports.isEmpty

/-- `Edges`. -/
def Cell.boundEdges (cell : Cell) : List ChannelRef :=
  cell.ports.flatMap fun binding => binding.edge.toList ++ binding.predecessors

namespace World

def modify (n : NodeRef) (change : Cell → Cell) (world : World) : World :=
  { world with cells := Function.update world.cells n (change (world.cells n)) }

@[simp] theorem modify_self (n : NodeRef) (change : Cell → Cell) (world : World) :
    (world.modify n change).cells n = change (world.cells n) := by
  simp [modify]

theorem modify_other {n m : NodeRef} (other : m ≠ n) (change : Cell → Cell) (world : World) :
    (world.modify n change).cells m = world.cells m := by
  simp [modify, other]

theorem modify_id (n : NodeRef) (world : World) : world.modify n id = world := by
  simp [modify]

def modifyAll (nodes : List NodeRef) (change : Cell → Cell) (world : World) : World :=
  { world with cells := fun n => if n ∈ nodes then change (world.cells n) else world.cells n }

def touch (e : ChannelRef) (change : EdgeQueue → EdgeQueue) (world : World) : World :=
  { world with edges := Function.update world.edges e (change (world.edges e)) }

def touchAll (edges : List ChannelRef) (change : EdgeQueue → EdgeQueue) (world : World) : World :=
  { world with edges := fun e => if e ∈ edges then change (world.edges e) else world.edges e }

def finished (world : World) (n : NodeRef) : Bool := isOver (world.cells n).state

section Retire

variable (plant : Plant)

def drainComplete (world : World) (entry : Retired) : Bool :=
  entry.nodes.all world.finished && entry.edges.all fun e =>
    (world.edges e).state = .retired ||
      ((world.edges e).queue.isEmpty && !(world.pendingInject.contains e) &&
        -- A removed producer is done once it is over, a kept one never writes again.
        if (plant.edge e).producer ∈ entry.nodes then world.finished (plant.edge e).producer
        else !((plant.edge e).consumer ∈ entry.nodes) || world.finished (plant.edge e).consumer)

/-- `ApplyFastLocked`. -/
def applyFast (entry : Retired) (world : World) : World :=
  let cut := (world.modifyAll entry.nodes fun cell => { cell with cancelled := true }).touchAll
    entry.edges (EdgeQueue.markRetired true)
  { cut with pendingInject := cut.pendingInject.filter fun e => e ∉ entry.edges }

/-- A retired topology after a look of the watchdog: it stays or it is complete,
with the nodes to close and whether something moved. -/
structure Settled where
  world : World
  stays : List Retired := []
  done : List Retired := []
  toClose : List NodeRef := []
  progressed : Bool := false

/-- The drain runs out of time. -/
def upgrade (expired : Bool) (entry : Retired) (world : World) : World × Retired × Bool :=
  if !entry.fastApplied && expired && !world.drainComplete plant entry then
    let cut := world.applyFast entry
    ({ cut with expirations := cut.expirations ++ [entry.number] },
      { entry with fastApplied := true, timedOut := true }, true)
  else (world, entry, false)

/-- The body of the loop of `CompleteRetired`. -/
def settleOne (settled : Settled) (expired : Bool) (entry : Retired) : Settled :=
  let (world, entry, upgraded) := settled.world.upgrade plant expired entry
  let closing := if upgraded then settled.toClose ++ entry.nodes else settled.toClose
  if entry.fastApplied then
    let cut := world.touchAll entry.edges (EdgeQueue.markRetired true)
    let unfinished := entry.nodes.filter fun n => !cut.finished n
    if unfinished = [] then
      { settled with
        world := cut, done := settled.done ++ [entry], toClose := closing, progressed := true }
    else
      { settled with
        world := cut
        stays := settled.stays ++ [entry]
        toClose := closing ++ unfinished
        progressed := settled.progressed || upgraded }
  else if world.drainComplete plant entry then
    { settled with
      world := world.touchAll entry.edges (EdgeQueue.markRetired false)
      done := settled.done ++ [entry]
      progressed := true }
  else { settled with world := world, stays := settled.stays ++ [entry] }

/-- The loop of `CompleteRetired`; which deadlines are over is given in the order
of the entries. -/
def settleAll (settled : Settled) : List Bool → List Retired → Settled
  | _, [] => settled
  | expired, entry :: rest =>
    settleAll (settleOne plant settled (expired.headD false) entry) expired.tail rest

/-- The locked section of `CompleteRetired`. -/
def settle (expired : List Bool) (world : World) : Settled :=
  let settled := settleAll plant { world } expired world.retired
  { settled with world := { settled.world with retired := settled.stays } }

/-- The locked section of `RetryInjections`: markers for edges without room stay
pending, the consumers of the others are to be woken. -/
def injectAll (world : World) : List ChannelRef → World × List ChannelRef × List NodeRef
  | [] => (world, [], [])
  | e :: rest =>
    let (outcome, edge) := (world.edges e).injectEos marker
    let (after, pending, wake) := injectAll (world.touch e fun _ => edge) rest
    match outcome with
    | .wouldBlock => (after, e :: pending, wake)
    | .accepted => (after, pending, (plant.edge e).consumer :: wake)
    | _ => (after, pending, wake)

/-- The retiring section of `Publish`. -/
def retire (policy : RemovePolicy) (nodes : List NodeRef) (edges : List ChannelRef)
    (world : World) : World :=
  let number := world.removals.length
  match policy with
  | .fast =>
    let cut := world.applyFast { number, nodes, edges }
    { cut with
      retired := cut.retired ++ [{ number, nodes, edges, fastApplied := true }]
      removals := cut.removals ++ [(nodes, edges)] }
  | .drain =>
    -- Edges of removed producers stay writable until the producer has finished.
    let drained := edges.filter fun e => (plant.edge e).producer ∉ nodes
    let marked := (world.modifyAll nodes fun cell => { cell with retiring := true }).touchAll
      drained EdgeQueue.markDraining
    { marked with
      pendingInject := marked.pendingInject ++ drained
      retired := marked.retired ++ [{ number, nodes, edges }]
      removals := marked.removals ++ [(nodes, edges)]
      removed := fun e =>
        if e ∈ drained then some (world.edges e).entered else world.removed e }

end Retire

/-- The state of `Rebind` between two ports of the new table. -/
structure Rebinding where
  old : List InputPortBinding
  eosPorts : List String
  edges : ChannelRef → EdgeQueue
  ports : List InputPortBinding := []

/-- A port of the new table. The predecessors of the old port move over to it, and
of a rewired port the old edge is one of them until its marker was consumed. -/
def rebindPort (seen : Rebinding) (next : InputPortBinding) : Rebinding :=
  match seen.old.find? fun old => old.port = next.port with
  | none => { seen with ports := seen.ports ++ [next] }
  | some old =>
    let emptied := seen.old.map fun other =>
      if other = old then { other with predecessors := [] } else other
    if old.edge = next.edge then
      { seen with
        old := emptied
        ports := seen.ports ++ [{ next with predecessors := old.predecessors }] }
    else
      let ended := decide (next.port ∈ seen.eosPorts) &&
        old.edge.any fun e => (seen.edges e).queue.isEmpty
      let fading := if ended then [] else old.edge.toList
      { old := emptied
        eosPorts := seen.eosPorts.filter fun name => name ≠ next.port
        edges := fun e => if ended && old.edge = some e then (seen.edges e).markRetired false
          else seen.edges e
        ports := seen.ports ++ [{ next with predecessors := old.predecessors ++ fading }] }

/-- `Rebind`. Nobody will consume the edges of a port that vanished. -/
def rebind (wiring : Wiring) (cell : Cell) (edges : ChannelRef → EdgeQueue) :
    Cell × (ChannelRef → EdgeQueue) :=
  let moved := wiring.ports.foldl rebindPort { old := cell.ports, eosPorts := cell.eosPorts, edges }
  let names := wiring.ports.map InputPortBinding.port
  let vanished := (moved.old.filter fun old => old.port ∉ names).flatMap fun old =>
    old.edge.toList ++ old.predecessors
  ({ cell with
      ports := moved.ports
      policy := wiring.policy
      aligned := wiring.aligned
      eosPorts := moved.eosPorts.filter fun name => name ∈ names },
    fun e => if e ∈ vanished then (moved.edges e).markRetired true else moved.edges e)

/-- `ApplyRebinds` for one node. -/
def rebindNode (world : World) (entry : NodeRef × Wiring) : World :=
  let (cell, edges) := rebind entry.2 (world.cells entry.1) world.edges
  { world.modify entry.1 (fun _ => cell) with edges := edges }

def attach (nodes : List NodeRef) (world : World) : World :=
  let fresh := nodes.filter fun n => n ∉ world.live
  { world with live := world.live ++ fresh, attached := world.attached ++ fresh }

/-- The section of `Publish` that swaps the topologies. -/
def swap (next : Plan) (world : World) : World :=
  let rebinds := next.wirings.filter fun entry => entry.1 ∉ next.newNodes
  let rebound := rebinds.foldl rebindNode world
  let routed := rebound.modifyAll next.nodes fun cell => { cell with topology := some next }
  attach next.newNodes { routed with topology := next }

/-- The section of `Stop` that announces it. -/
def announce (fast : Bool) (world : World) : World :=
  let cut := if fast then
      { world.modifyAll world.live fun cell => { cell with cancelled := true } with fastStop := true }
    else world
  { cut with
    stopping := true
    announced := cut.announced ++ [⟨fast, world.live, world.topology, world.attached⟩] }

/-- The section of a fast `Stop` that upgrades the pending retirements. -/
def hasten (world : World) : World :=
  let pending := world.retired.filter fun entry => !entry.fastApplied
  let cut := pending.foldl (fun world entry => world.applyFast entry) world
  { cut with retired := cut.retired.map fun entry => { entry with fastApplied := true } }

end World

end GraphEngine.SchedulerStates
