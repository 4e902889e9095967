import GraphEngine.Fallible
import GraphEngine.KeyedLists
import GraphEngine.Values

/-!
The graph specification and its editing operations, after `GraphSpec` in
graph_spec.h and graph_spec.cpp. Node and edge vectors are lists: a lookup
returns the first match, an insertion appends and a removal erases the first
match, so declaration order is the vector's. A graph's description, options and
unknown-field flag are never read by the control plane and are left out.
-/

namespace GraphEngine.GraphSpecs

open Values KeyedLists Fallible List

inductive ExecutorKind where
  | auto | cpu | gpu
  deriving DecidableEq

inductive DropPolicy where
  | block | dropOldest | dropNewest
  deriving DecidableEq

inductive SyncPolicy where
  | aligned | latest | any
  deriving DecidableEq

inductive RemovePolicy where
  | drain | fast
  deriving DecidableEq

inductive RemoveMode where
  | disconnect | bypass
  deriving DecidableEq

def isAlpha (c : Char) : Bool :=
  (decide ('A' ≤ c) && decide (c ≤ 'Z')) || (decide ('a' ≤ c) && decide (c ≤ 'z'))

def isIdTail (c : Char) : Bool :=
  isAlpha c || (decide ('0' ≤ c) && decide (c ≤ '9')) || c == '_' || c == '.' || c == '-'

/-- Stable external id: `^[A-Za-z][A-Za-z0-9_.-]{0,127}$`. Accepted characters
are single bytes, so the byte bound is a character bound. -/
def isValidStableId (id : String) : Bool :=
  match id.toList with
  | [] => false
  | head :: rest => decide (rest.length ≤ 127) && isAlpha head && rest.all isIdTail

structure ExecutorSpec where
  kind : ExecutorKind := .auto
  deviceId : Option Int := none
  deriving DecidableEq

structure NodeSpec where
  id : String
  op : OperatorKey
  executor : ExecutorSpec := {}
  parallelism : UInt32 := 1
  options : JsonValue := .object []
  labels : List (String × String) := []
  deriving DecidableEq

/-- "<node_id>.<port>". -/
structure PortRef where
  nodeId : String
  port : String
  deriving DecidableEq

def PortRef.render (ref : PortRef) : String := ref.nodeId ++ "." ++ ref.port

structure QueueSpec where
  capacity : UInt32 := 64
  policy : DropPolicy := .block
  maxPacketBytes : Option UInt64 := none
  deriving DecidableEq

/-- `fromPort` and `toPort` are the source's `from` and `to`. An empty id asks
`addEdge` to derive one. -/
structure EdgeSpec where
  id : String := ""
  fromPort : PortRef
  toPort : PortRef
  queue : QueueSpec := {}
  sync : Option SyncPolicy := none
  feedback : Bool := false
  deriving DecidableEq

structure GraphSpec where
  name : String := ""
  nodes : List NodeSpec := []
  edges : List EdgeSpec := []
  deriving DecidableEq

def deriveEdgeId (fromPort toPort : PortRef) : String :=
  fromPort.nodeId ++ "." ++ fromPort.port ++ "->" ++ toPort.nodeId ++ "." ++ toPort.port

variable {spec after : GraphSpec} {id : String}

namespace GraphSpec

def nodeIds (spec : GraphSpec) : List String := spec.nodes.map NodeSpec.id

def edgeIds (spec : GraphSpec) : List String := spec.edges.map EdgeSpec.id

def findNode (spec : GraphSpec) (id : String) : Option NodeSpec := lookup NodeSpec.id id spec.nodes

def findEdge (spec : GraphSpec) (id : String) : Option EdgeSpec := lookup EdgeSpec.id id spec.edges

def addNode (spec : GraphSpec) (node : NodeSpec) : Result GraphSpec :=
  if !isValidStableId node.id then
    .error (.graphInvalid s!"invalid node id '{node.id}'")
  else if (spec.findNode node.id).isSome then
    .error (.alreadyExists s!"duplicate node id '{node.id}'")
  else if node.op.typeName = "" then
    .error (.graphInvalid s!"node '{node.id}' has empty operator")
  else if node.parallelism = 0 then
    .error (.graphInvalid s!"node '{node.id}' parallelism must be >= 1")
  else if node.executor.kind ≠ .gpu ∧ node.executor.deviceId.isSome then
    .error (.graphInvalid s!"node '{node.id}' device_id only allowed for gpu executor")
  else .ok { spec with nodes := spec.nodes ++ [node] }

/-- The id `addEdge` stores: the given one, or the derived one when it is empty. -/
def withId (edge : EdgeSpec) : EdgeSpec :=
  if edge.id = "" then { edge with id := deriveEdgeId edge.fromPort edge.toPort } else edge

def addEdge (spec : GraphSpec) (given : EdgeSpec) : Result GraphSpec :=
  let edge := withId given
  if !isValidStableId edge.id && edge.id ≠ deriveEdgeId edge.fromPort edge.toPort then
    .error (.graphInvalid s!"invalid edge id '{edge.id}'")
  else if (spec.findEdge edge.id).isSome then
    .error (.alreadyExists s!"duplicate edge id '{edge.id}'")
  else if (spec.findNode edge.fromPort.nodeId).isNone then
    .error (.graphInvalid s!"edge '{edge.id}' from unknown node '{edge.fromPort.nodeId}'")
  else if (spec.findNode edge.toPort.nodeId).isNone then
    .error (.graphInvalid s!"edge '{edge.id}' to unknown node '{edge.toPort.nodeId}'")
  else if edge.fromPort.port = "" ∨ edge.toPort.port = "" then
    .error (.graphInvalid s!"edge '{edge.id}' has empty port")
  else if edge.queue.capacity = 0 then
    .error (.graphInvalid s!"edge '{edge.id}' capacity must be >= 1")
  else if edge.queue.maxPacketBytes = some 0 then
    .error (.graphInvalid s!"edge '{edge.id}' max_packet_bytes must be > 0")
  else if spec.edges.any fun other =>
      other.fromPort = edge.fromPort ∧ other.toPort = edge.toPort then
    .error (.alreadyExists
      s!"edge {edge.fromPort.render}->{edge.toPort.render} already exists")
  else .ok { spec with edges := spec.edges ++ [edge] }

def touches (id : String) (edge : EdgeSpec) : Bool :=
  edge.fromPort.nodeId = id || edge.toPort.nodeId = id

def removeNode (spec : GraphSpec) (id : String) : Result GraphSpec :=
  if (spec.findNode id).isNone then .error (.notFound s!"node '{id}' not found")
  else .ok { spec with
    nodes := erase NodeSpec.id id spec.nodes
    edges := spec.edges.filter fun edge => !touches id edge }

def removeEdge (spec : GraphSpec) (id : String) : Result GraphSpec :=
  if (spec.findEdge id).isNone then .error (.notFound s!"edge '{id}' not found")
  else .ok { spec with edges := erase EdgeSpec.id id spec.edges }

def edgesFrom (spec : GraphSpec) (nodeId : String) : List EdgeSpec :=
  spec.edges.filter fun edge => edge.fromPort.nodeId = nodeId

def edgesTo (spec : GraphSpec) (nodeId : String) : List EdgeSpec :=
  spec.edges.filter fun edge => edge.toPort.nodeId = nodeId

/-- What every graph built through the editing operations satisfies. -/
structure WellFormed (spec : GraphSpec) : Prop where
  nodeIdsDistinct : spec.nodeIds.Nodup
  nodeIdsValid : ∀ node ∈ spec.nodes, isValidStableId node.id = true
  edgeIdsDistinct : spec.edgeIds.Nodup
  fromKnown : ∀ edge ∈ spec.edges, edge.fromPort.nodeId ∈ spec.nodeIds
  toKnown : ∀ edge ∈ spec.edges, edge.toPort.nodeId ∈ spec.nodeIds
  linksDistinct : (spec.edges.map fun edge => (edge.fromPort, edge.toPort)).Nodup
  capacityPositive : ∀ edge ∈ spec.edges, 1 ≤ edge.queue.capacity

/-- The checks of `addNode` that do not read the graph. -/
def nodeAdmissible (node : NodeSpec) : Prop :=
  isValidStableId node.id = true ∧ node.op.typeName ≠ "" ∧ node.parallelism ≠ 0 ∧
    ¬(node.executor.kind ≠ .gpu ∧ node.executor.deviceId.isSome = true)

/-- The checks of `addEdge` that do not read the graph. -/
def edgeAdmissible (edge : EdgeSpec) : Prop :=
  ¬(isValidStableId edge.id = false ∧ edge.id ≠ deriveEdgeId edge.fromPort edge.toPort) ∧
    ¬(edge.fromPort.port = "" ∨ edge.toPort.port = "") ∧ edge.queue.capacity ≠ 0 ∧
    edge.queue.maxPacketBytes ≠ some 0

def linked (spec : GraphSpec) (fromPort toPort : PortRef) : Prop :=
  ∃ other ∈ spec.edges, other.fromPort = fromPort ∧ other.toPort = toPort

theorem findNode_isSome : (spec.findNode id).isSome = true ↔ id ∈ spec.nodeIds := lookup_isSome

theorem findNode_none : spec.findNode id = none ↔ id ∉ spec.nodeIds := lookup_none

theorem findEdge_isSome : (spec.findEdge id).isSome = true ↔ id ∈ spec.edgeIds := lookup_isSome

theorem findEdge_none : spec.findEdge id = none ↔ id ∉ spec.edgeIds := lookup_none

theorem findEdge_some {edge : EdgeSpec} (found : spec.findEdge id = some edge) :
    edge ∈ spec.edges ∧ edge.id = id :=
  lookup_some found

theorem addNode_ok {node : NodeSpec} : spec.addNode node = .ok after ↔
      nodeAdmissible node ∧ node.id ∉ spec.nodeIds ∧
        after = { spec with nodes := spec.nodes ++ [node] } := by
  simp only [addNode, guard_ok, Except.ok.injEq, findNode_isSome, Bool.not_eq_eq_eq_not,
    Bool.not_true, Bool.not_eq_false]
  constructor
  · rintro ⟨valid, fresh, named, slots, device, rfl⟩
    exact ⟨⟨valid, named, slots, device⟩, fresh, rfl⟩
  · rintro ⟨⟨valid, named, slots, device⟩, fresh, rfl⟩
    exact ⟨valid, fresh, named, slots, device, rfl⟩

theorem withId_withId (edge : EdgeSpec) : withId (withId edge) = withId edge := by
  by_cases blank : edge.id = ""
  · simp [withId, blank]
  · simp [withId, blank]

theorem addEdge_ok {given : EdgeSpec} : spec.addEdge given = .ok after ↔
      edgeAdmissible (withId given) ∧ (withId given).id ∉ spec.edgeIds ∧
        (withId given).fromPort.nodeId ∈ spec.nodeIds ∧
        (withId given).toPort.nodeId ∈ spec.nodeIds ∧
        ¬spec.linked (withId given).fromPort (withId given).toPort ∧
        after = { spec with edges := spec.edges ++ [withId given] } := by
  simp only [addEdge, guard_ok, Except.ok.injEq, findEdge_isSome, Option.isNone_iff_eq_none,
    findNode_none, Decidable.not_not, any_eq_true, decide_eq_true_eq,
    Bool.and_eq_true, Bool.not_eq_eq_eq_not]
  constructor
  · rintro ⟨named, fresh, source, target, ports, slots, bytes, single, rfl⟩
    exact ⟨⟨named, ports, slots, bytes⟩, fresh, source, target, single, rfl⟩
  · rintro ⟨⟨named, ports, slots, bytes⟩, fresh, source, target, single, rfl⟩
    exact ⟨named, fresh, source, target, ports, slots, bytes, single, rfl⟩

theorem removeNode_ok : spec.removeNode id = .ok after ↔ id ∈ spec.nodeIds ∧ after = { spec with
          nodes := erase NodeSpec.id id spec.nodes
          edges := spec.edges.filter fun edge => !touches id edge } := by
  simp only [removeNode, guard_ok, Except.ok.injEq, Option.isNone_iff_eq_none, findNode_none,
    Decidable.not_not]
  exact and_congr_right fun _ => eq_comm

theorem removeEdge_ok : spec.removeEdge id = .ok after ↔
      id ∈ spec.edgeIds ∧ after = { spec with edges := erase EdgeSpec.id id spec.edges } := by
  simp only [removeEdge, guard_ok, Except.ok.injEq, Option.isNone_iff_eq_none, findEdge_none,
    Decidable.not_not]
  exact and_congr_right fun _ => eq_comm

theorem empty_wellFormed (name : String) : WellFormed { name := name } := by
  constructor <;> simp [nodeIds, edgeIds]

variable (valid : spec.WellFormed)
include valid

theorem addNode_wellFormed {node : NodeSpec} (added : spec.addNode node = .ok after) :
    after.WellFormed := by
  obtain ⟨⟨stable, -⟩, fresh, rfl⟩ := addNode_ok.mp added
  constructor
  · simpa [nodeIds, nodup_append] using
      ⟨valid.nodeIdsDistinct, fun other member same =>
        fresh (mem_map.mpr ⟨other, member, same⟩)⟩
  · refine forall_mem_append.mpr ⟨valid.nodeIdsValid, forall_mem_singleton.mpr ?_⟩
    exact stable
  · exact valid.edgeIdsDistinct
  · intro edge member
    simpa [nodeIds] using Or.inl (mem_map.mp (valid.fromKnown edge member))
  · intro edge member
    simpa [nodeIds] using Or.inl (mem_map.mp (valid.toKnown edge member))
  · exact valid.linksDistinct
  · exact valid.capacityPositive

theorem addEdge_wellFormed {given : EdgeSpec} (added : spec.addEdge given = .ok after) :
    after.WellFormed := by
  obtain ⟨⟨-, -, slots, -⟩, fresh, source, target, single, rfl⟩ := addEdge_ok.mp added
  constructor
  · exact valid.nodeIdsDistinct
  · exact valid.nodeIdsValid
  · simpa [edgeIds, nodup_append] using
      ⟨valid.edgeIdsDistinct, fun other member same =>
        fresh (mem_map.mpr ⟨other, member, same⟩)⟩
  · refine forall_mem_append.mpr ⟨valid.fromKnown, forall_mem_singleton.mpr ?_⟩
    exact source
  · refine forall_mem_append.mpr ⟨valid.toKnown, forall_mem_singleton.mpr ?_⟩
    exact target
  · simp only [map_append, nodup_append]
    refine ⟨valid.linksDistinct, by simp, ?_⟩
    intro link member other new same
    obtain ⟨edge, inside, rfl⟩ := mem_map.mp member
    rw [mem_singleton.mp new] at same
    exact single ⟨edge, inside, congrArg Prod.fst same, congrArg Prod.snd same⟩
  · refine forall_mem_append.mpr ⟨valid.capacityPositive, forall_mem_singleton.mpr ?_⟩
    exact UInt32.le_iff_toNat_le.mpr (Nat.pos_of_ne_zero fun zero =>
      slots (UInt32.toNat_inj.mp zero))

theorem sublist_wellFormed (nodes : after.nodes.Sublist spec.nodes)
    (edges : after.edges.Sublist spec.edges)
    (fromKept : ∀ edge ∈ after.edges, edge.fromPort.nodeId ∈ after.nodeIds)
    (toKept : ∀ edge ∈ after.edges, edge.toPort.nodeId ∈ after.nodeIds) : after.WellFormed where
  nodeIdsDistinct := valid.nodeIdsDistinct.sublist (nodes.map _)
  nodeIdsValid := fun node member => valid.nodeIdsValid node (nodes.subset member)
  edgeIdsDistinct := valid.edgeIdsDistinct.sublist (edges.map _)
  fromKnown := fromKept
  toKnown := toKept
  linksDistinct := valid.linksDistinct.sublist (edges.map _)
  capacityPositive := fun edge member => valid.capacityPositive edge (edges.subset member)

theorem removeNode_wellFormed (removed : spec.removeNode id = .ok after) : after.WellFormed := by
  obtain ⟨-, rfl⟩ := removeNode_ok.mp removed
  have kept : ∀ edge ∈ spec.edges.filter fun edge => !touches id edge,
      edge ∈ spec.edges ∧ edge.fromPort.nodeId ≠ id ∧ edge.toPort.nodeId ≠ id := by
    simp [touches]
  apply sublist_wellFormed valid (erase_sublist id spec.nodes) filter_sublist
  · intro edge member
    obtain ⟨inside, apart, -⟩ := kept edge member
    exact (mem_keys_erase valid.nodeIdsDistinct).mpr ⟨valid.fromKnown edge inside, apart⟩
  · intro edge member
    obtain ⟨inside, -, apart⟩ := kept edge member
    exact (mem_keys_erase valid.nodeIdsDistinct).mpr ⟨valid.toKnown edge inside, apart⟩

theorem removeEdge_wellFormed (removed : spec.removeEdge id = .ok after) : after.WellFormed := by
  obtain ⟨-, rfl⟩ := removeEdge_ok.mp removed
  have shrinks : (erase EdgeSpec.id id spec.edges).Sublist spec.edges := erase_sublist id spec.edges
  exact sublist_wellFormed valid (List.Sublist.refl _) shrinks
    (fun edge member => valid.fromKnown edge (shrinks.subset member))
    (fun edge member => valid.toKnown edge (shrinks.subset member))

omit valid

end GraphSpec

end GraphEngine.GraphSpecs
