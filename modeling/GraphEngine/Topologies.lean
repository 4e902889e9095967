import Mathlib.Data.List.Dedup
import Mathlib.Data.List.Sort
import GraphEngine.NodeRuntimes

/-!
`RuntimeTopology::Build`. A failed map lookup (`at`) and a null dereference are
outcomes of their own, besides the statuses the function returns. Reused nodes
and edges are carried over from the base topology by reference; everything else
is allocated in the store.
-/

namespace GraphEngine.Topologies

open Values GraphSpecs Capabilities OrderedMaps Validation NodeRuntimes

inductive BuildError where
  | status (status : Status)
  | outOfRange
  | nullPointer
  deriving DecidableEq

abbrev BuildResult := Except BuildError

structure PortId where
  node : Nat
  port : String
  deriving DecidableEq

structure RouteEntry where
  edge : ChannelRef
  contract : ConnectionContract
  deriving DecidableEq

/-- The route table lists one entry for each edge under its output port, in edge
order. -/
structure RuntimeTopology where
  sessionId : Nat := 0
  version : Nat := 0
  spec : GraphSpec
  nodes : List NodeRef := []
  edges : List ChannelRef := []
  routes : List (PortId × RouteEntry) := []
  inputs : List (Nat × BindingRef) := []
  order : List String := []
  nodeIds : List (String × Nat) := []
  nextNodeId : Nat := 1
  nextEdgeId : Nat := 1
  validated : ValidatedGraph
  newNodes : List NodeRef := []
  newEdges : List ChannelRef := []
  rebinds : List (Nat × InputBinding) := []
  deriving DecidableEq

def RuntimeTopology.findNodeById (store : Store) (topology : RuntimeTopology) (id : Nat) :
    Option NodeRef :=
  topology.nodes.find? fun ref => (store.nodes[ref]?).any fun node => node.id = id

def RuntimeTopology.findNode (store : Store) (topology : RuntimeTopology) (externalId : String) :
    Option NodeRef :=
  (find externalId topology.nodeIds).bind (topology.findNodeById store)

def RuntimeTopology.findEdge (store : Store) (topology : RuntimeTopology) (externalId : String) :
    Option ChannelRef :=
  topology.edges.find? fun ref =>
    (store.channels[ref]?).any fun channel => channel.externalId = externalId

structure CreateArgs where
  key : OperatorKey
  nodeId : Nat
  externalId : String
  options : JsonValue
  sessionId : Nat
  topologyVersion : Nat

/-- The engine's view of the operators. `create` is asked once for each new node
and may refuse; the next build may meet another factory. -/
structure OperatorFactory where
  describe : CapabilityResolver
  create : CreateArgs → Result Unit

structure BuildOptions where
  sessionId : Nat := 0
  version : Nat := 1
  base : Option RuntimeTopology := none
  reusedNodes : List String := []
  reusedEdges : List String := []

/-- The store and the topology under construction, with the function's local
indexes: node id to node, and node id to the ports bound so far. -/
structure Building where
  store : Store
  topology : RuntimeTopology
  nodeById : List (Nat × NodeRef) := []
  bindings : List (Nat × List InputPortBinding) := []

/-- `std::map::at`. -/
def fetch {Key Value : Type} [LinearOrder Key] (key : Key) (entries : List (Key × Value)) :
    BuildResult Value :=
  match find key entries with
  | some value => .ok value
  | none => .error .outOfRange

/-- Dereference. -/
def load {Object : Type} (objects : List Object) (ref : Nat) : BuildResult Object :=
  match objects[ref]? with
  | some object => .ok object
  | none => .error .nullPointer

section Build

variable (factory : OperatorFactory) (options : BuildOptions)

/-- `base_node_refs` indexes the very nodes `FindNode` searches, so its `at`
is the reference found. -/
def carryNode (node : NodeSpec) (base : RuntimeTopology) (b : Building) : BuildResult Building :=
  match base.findNode b.store node.id with
  | none => .error (.status (.internal s!"reused node '{node.id}' missing in base"))
  | some ref => do
      let runtime ← load b.store.nodes ref
      .ok { b with
        topology := { b.topology with
          nodes := b.topology.nodes ++ [ref]
          nodeIds := assign node.id runtime.id b.topology.nodeIds }
        nodeById := emplace runtime.id ref b.nodeById }

def createNode (node : NodeSpec) (b : Building) : BuildResult Building :=
  match factory.describe node.op with
  | none => .error (.status (.notFound s!"operator '{node.op.render}' not found"))
  | some cap =>
    let id := b.topology.nextNodeId
    match factory.create ⟨node.op, id, node.id, node.options, options.sessionId,
      options.version⟩ with
    | .error status => .error (.status status)
    | .ok () =>
      let ref := b.store.nodes.length
      .ok { b with
        store := { b.store with nodes := b.store.nodes ++
          [.create id node.id node.op cap node.options node.parallelism] }
        topology := { b.topology with
          nodes := b.topology.nodes ++ [ref]
          nodeIds := assign node.id id b.topology.nodeIds
          nextNodeId := id + 1
          newNodes := b.topology.newNodes ++ [ref] }
        nodeById := emplace id ref b.nodeById }

/-- The base topology when this id is carried over from it. -/
def reuseFrom (reused : List String) (id : String) : Option RuntimeTopology :=
  options.base.filter fun _ => id ∈ reused

def buildNode (b : Building) (node : NodeSpec) : BuildResult Building :=
  match reuseFrom options options.reusedNodes node.id with
  | some base => carryNode node base b
  | none => createNode factory options node b

def carryEdge (edge : EdgeSpec) (contract : ConnectionContract) (base : RuntimeTopology)
    (store : Store) : BuildResult ChannelRef :=
  match base.findEdge store edge.id with
  | none => .error (.status (.internal s!"reused edge '{edge.id}' missing in base"))
  | some ref => do
      let channel ← load store.channels ref
      if channel.contract.sameDataPlane contract = false then
        .error (.status (.internal
          s!"reused edge '{edge.id}' has a different data contract"))
      else .ok ref

def createEdge (edge : EdgeSpec) (contract : ConnectionContract) (source target : Nat)
    (b : Building) : BuildResult (ChannelRef × Building) := do
  let producer ← fetch source b.nodeById
  let consumer ← fetch target b.nodeById
  let ref := b.store.channels.length
  let channel : EdgeChannel := {
    id := b.topology.nextEdgeId
    externalId := edge.id
    contract := contract
    config := ⟨max edge.queue.capacity 1, edge.queue.policy, contract.syncPolicy⟩
    fromPort := edge.fromPort
    toPort := edge.toPort
    producer := producer
    consumer := consumer }
  .ok (ref, { b with
    store := { b.store with channels := b.store.channels ++ [channel] }
    topology := { b.topology with
      nextEdgeId := b.topology.nextEdgeId + 1
      newEdges := b.topology.newEdges ++ [ref] } })

def connectEdge (edge : EdgeSpec) (contract : ConnectionContract) (source target : Nat)
    (ref : ChannelRef) (b : Building) : BuildResult Building :=
  match b.topology.findNodeById b.store target with
  | none => .error .nullPointer
  | some targetRef => do
      let runtime ← load b.store.nodes targetRef
      let port := runtime.capability.findInput edge.toPort.port
      let before := (find target b.bindings).getD []
      .ok { b with
        topology := { b.topology with
          edges := b.topology.edges ++ [ref]
          routes := b.topology.routes ++ [(⟨source, edge.fromPort.port⟩, ⟨ref, contract⟩)] }
        bindings := assign target
          (before ++ [⟨edge.toPort.port, some ref, port.any PortCapability.required, []⟩])
          b.bindings }

def buildEdge (b : Building) (edge : EdgeSpec) : BuildResult Building := do
  let contract ← fetch edge.id b.topology.validated.edgeContracts
  match reuseFrom options options.reusedEdges edge.id with
  | some base =>
    let ref ← carryEdge edge contract base b.store
    let source ← fetch edge.fromPort.nodeId b.topology.nodeIds
    let target ← fetch edge.toPort.nodeId b.topology.nodeIds
    connectEdge edge contract source target ref b
  | none =>
    let source ← fetch edge.fromPort.nodeId b.topology.nodeIds
    let target ← fetch edge.toPort.nodeId b.topology.nodeIds
    let (ref, b) ← createEdge edge contract source target b
    connectEdge edge contract source target ref b

/-- Ports in capability order; unconnected ports still appear. A port the
capability does not know sorts last. -/
def orderedPorts (cap : CapabilityDescriptor) (ports : List InputPortBinding) :
    List InputPortBinding :=
  let names := cap.inputs.map PortCapability.name
  let position := fun name => if name ∈ names then names.idxOf name else names.dedup.length
  let missing := cap.inputs.filter fun port => port.name ∉ ports.map InputPortBinding.port
  let all := ports ++ missing.map fun port => ⟨port.name, none, port.required, []⟩
  all.insertionSort fun a b => position a.port ≤ position b.port

/-- The negotiated policy of the first connected port. -/
def policyOf (store : Store) (ports : List InputPortBinding) : SyncPolicy :=
  match ports.findSome? InputPortBinding.edge with
  | none => .any
  | some ref => (store.channels[ref]?).elim .any fun channel => channel.contract.syncPolicy

def samePorts (current ports : List InputPortBinding) : Bool :=
  current.map (fun b => (b.port, b.edge, b.required)) =
    ports.map fun b => (b.port, b.edge, b.required)

def buildInput (b : Building) (ref : NodeRef) : BuildResult Building := do
  let runtime ← load b.store.nodes ref
  let bound := (find runtime.id b.bindings).getD []
  let ports := orderedPorts runtime.capability bound
  let policy := policyOf b.store ports
  match reuseFrom options options.reusedNodes runtime.externalId with
  | some base =>
    match find runtime.id base.inputs with
    | none =>
      .error (.status (.internal s!"reused node '{runtime.externalId}' has no binding"))
    | some shared =>
      let current ← load b.store.bindings shared
      -- The rebind of a changed port table waits for the publish.
      let rebinds :=
        if current.policy = policy ∧ samePorts current.ports ports = true then
          b.topology.rebinds
        else assign runtime.id ⟨ports, policy⟩ b.topology.rebinds
      .ok { b with topology := { b.topology with
        inputs := assign runtime.id shared b.topology.inputs
        rebinds := rebinds } }
  | none =>
    .ok { b with
      store := { b.store with bindings := b.store.bindings ++ [⟨ports, policy⟩] }
      topology := { b.topology with
        inputs := assign runtime.id b.store.bindings.length b.topology.inputs } }

def startBuilding (store : Store) (spec : GraphSpec) (validated : ValidatedGraph) : Building where
  store := store
  topology := {
    sessionId := options.sessionId
    version := options.version
    spec := spec
    order := validated.topologicalOrder
    validated := validated
    nextNodeId := options.base.elim 1 RuntimeTopology.nextNodeId
    nextEdgeId := options.base.elim 1 RuntimeTopology.nextEdgeId }

/-- `RuntimeTopology::Build` for a spec that is already validated. -/
def build (store : Store) (spec : GraphSpec) (validated : ValidatedGraph) :
    BuildResult (Store × RuntimeTopology) := do
  let b ← spec.nodes.foldlM (buildNode factory options)
    (startBuilding options store spec validated)
  let b ← spec.edges.foldlM (buildEdge options) b
  let b ← b.topology.nodes.foldlM (buildInput options) b
  .ok (b.store, b.topology)

end Build

end GraphEngine.Topologies
