import GraphEngine.SchedulerCode

/-!
The runs of a session: executor tasks are picked up by any number of workers, the
session is started, paused, stopped and mutated, the watchdog ticks, and the
asynchronous runtime submits and retires requests, all in any order. One mutation
runs at a time, on a candidate that was built for the current topology.
-/

namespace GraphEngine.SchedulerRuns

open GraphSpecs NodeRuntimes Runs Interleavings SchedulerStates SchedulerOperations
open SchedulerCode

inductive Arrival where
  | work (n : NodeRef)
  | start
  | pause
  | resume
  | stop (fast : Bool)
  | tick
  | mutate (candidate : Plan) (policy : RemovePolicy)
  | submission (n : NodeRef)
  | completion (n : NodeRef) (request : Nat)
  | redelivery (output : Nat)
  deriving DecidableEq

section Build

variable (plant : Plant)

def portKinds (ports : List InputPortBinding) : List (String × Bool) :=
  ports.map fun binding => (binding.port, binding.required)

/-- The ports of one node of a candidate: a new node is wired as built, a kept one
keeps its port names and kinds and, unless it is rebound, its edges. -/
def fitsNode (world : World) (candidate : Plan) (n : NodeRef) : Bool :=
  match candidate.wiringOf n with
  | some wiring =>
    wiring.ports.all (fun binding => binding.predecessors = [] &&
      binding.edge.all fun e => e ∈ candidate.edges && (plant.edge e).consumer = n) &&
    (n ∈ candidate.newNodes ||
      ((portKinds wiring.ports).all (· ∈ portKinds (world.cells n).ports) &&
        (portKinds (world.cells n).ports).all (· ∈ portKinds wiring.ports)))
  | none => n ∉ candidate.newNodes &&
      (world.cells n).ports.all fun binding => binding.edge.all (· ∈ candidate.edges)

/-- What a built candidate is. -/
def fits (world : World) (candidate : Plan) : Bool :=
  candidate.newNodes.Nodup && candidate.newNodes.all (· ∉ world.builtNodes) &&
  candidate.newEdges.all (· ∉ world.builtEdges) &&
  candidate.newNodes.all (· ∈ candidate.nodes) && candidate.newEdges.all (· ∈ candidate.edges) &&
  candidate.nodes.all (fun n => n ∈ candidate.newNodes || n ∈ world.topology.nodes) &&
  candidate.edges.all (fun e => (e ∈ candidate.newEdges || e ∈ world.topology.edges) &&
    (plant.edge e).producer ∈ candidate.nodes && (plant.edge e).consumer ∈ candidate.nodes) &&
  candidate.wirings.all (fun entry => entry.1 ∈ candidate.nodes) &&
  candidate.nodes.all (fitsNode plant world candidate)

/-- `Build` creates the new nodes with their bindings, and the new edges. -/
def create (candidate : Plan) (world : World) : World :=
  { world with
    cells := fun n =>
      if n ∈ candidate.newNodes then
        match candidate.wiringOf n with
        | none => world.cells n
        | some wiring => { world.cells n with
            ports := wiring.ports, policy := wiring.policy, aligned := wiring.aligned }
      else world.cells n
    builtNodes := world.builtNodes ++ candidate.newNodes
    builtEdges := world.builtEdges ++ candidate.newEdges }

def blank : World where
  topology := { nodes := [], edges := [] }
  cells n := { slots := (plant.node n).maxParallelism }
  edges e := { policy := (plant.edge e).policy, capacity := max (plant.edge e).capacity 1 }
  live := []
  builtNodes := []
  builtEdges := []
  attached := []

def created (plan : Plan) : World :=
  World.attach plan.nodes { (create plan (blank plant)).modifyAll plan.nodes
    (fun cell => { cell with topology := some plan }) with topology := plan }

end Build

def arrive (plant : Plant) (world : World) : Arrival → Option (World × Routine Unit)
  | .work n =>
    if 0 < (world.cells n).tasks then
      some (world.modify n fun cell => { cell with tasks := cell.tasks - 1 }, invoke plant n)
    else none
  | .start => if world.begun then none else some ({ world with begun := true }, start plant)
  | .pause => if world.opened then some (world, pause) else none
  | .resume => if world.opened then some (world, resume plant) else none
  | .stop fast => if world.begun then some (world, stop plant fast) else none
  | .tick => some (world, tick plant)
  | .mutate candidate policy =>
    if world.opened && !world.mutating && fits plant world candidate then
      some ({ create candidate world with mutating := true },
        mutate plant world.topology candidate policy)
    else none
  | .submission n =>
    if 0 < (world.cells n).requests then
      some (world.modify n fun cell => { cell with requests := cell.requests - 1 }, submission n)
    else none
  | .completion n request =>
    match (world.cells n).unretired[request]? with
    | none => none
    | some plan => some (world.modify n fun cell =>
      { cell with unretired := cell.unretired.eraseIdx request }, completion plant n plan)
  | .redelivery output =>
    match world.blockedOutputs[output]? with
    | none => none
    | some (n, e, packet) =>
      some ({ world with blockedOutputs := world.blockedOutputs.eraseIdx output },
        redelivery plant n e packet)

def scheduler (plant : Plant) : Machine Op.Answer World Procedure Choice Arrival where
  perform := perform plant
  body := body plant
  arrive := arrive plant

abbrev SchedulerSystem := System Op.Answer World Procedure

def Created (plant : Plant) (system : SchedulerSystem) : Prop :=
  ∃ plan : Plan, plan.newNodes = plan.nodes ∧ plan.newEdges = plan.edges ∧
    fits plant (blank plant) plan = true ∧ system = ⟨created plant plan, []⟩

/-- The runs whose operations and arrivals keep to the rules. -/
abbrev Reached (plant : Plant) (rules : Rules World Op Arrival) : SchedulerSystem → Prop :=
  Reachable (Created plant) ((scheduler plant).Step rules)

end GraphEngine.SchedulerRuns
