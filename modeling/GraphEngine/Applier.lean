import GraphEngine.ChangeSets
import GraphEngine.GraphChecks
import GraphEngine.OrderedMaps

/-!
`MutationApplier`: a patch of actions turns a base graph into a candidate and
records what it added, removed and touched. The candidate is threaded through
the actions; the first failing action discards it and names itself in the error.
-/

namespace GraphEngine.Applier

open Values GraphSpecs Capabilities GraphChecks Fallible ChangeSets List GraphSpec

structure ChainPorts where
  chainInput : Option String := none
  chainOutput : Option String := none
  deriving DecidableEq

structure PortMapping where
  inputs : List (String × String) := []
  outputs : List (String × String) := []
  deriving DecidableEq

structure RemoveNodeAction where
  node : String
  mode : RemoveMode := .disconnect
  removePolicy : Option RemovePolicy := none
  deriving DecidableEq

structure InsertChainAction where
  edge : String
  nodes : List NodeSpec
  ports : ChainPorts := {}
  deriving DecidableEq

structure RemoveChainAction where
  nodes : List String
  mode : RemoveMode := .disconnect
  removePolicy : Option RemovePolicy := none
  deriving DecidableEq

structure ReplaceNodeAction where
  node : String
  replacementOp : OperatorKey
  replacementOptions : JsonValue := .object []
  portMapping : Option PortMapping := none
  removePolicy : Option RemovePolicy := none
  deriving DecidableEq

structure RemoveBranchAction where
  entryEdge : String := ""
  nodes : List String
  removePolicy : Option RemovePolicy := none
  entryEdges : List String := []
  deriving DecidableEq

/-- A non-empty `entryEdges` is authoritative; `entryEdge` is ignored then. -/
def RemoveBranchAction.allEntryEdges (action : RemoveBranchAction) : List String :=
  if action.entryEdges = [] then [action.entryEdge] else action.entryEdges

structure SetNodeOptionsAction where
  node : String
  parameters : JsonValue := .object []
  deriving DecidableEq

inductive MutationAction where
  | addNode (node : NodeSpec)
  | removeNode (action : RemoveNodeAction)
  | insertChain (action : InsertChainAction)
  | removeChain (action : RemoveChainAction)
  | replaceNode (action : ReplaceNodeAction)
  | removeBranch (action : RemoveBranchAction)
  | addEdge (edge : EdgeSpec)
  | removeEdge (edge : String)
  | setNodeOptions (action : SetNodeOptionsAction)
  deriving DecidableEq

def actionTypeName : MutationAction → String
  | .addNode _ => "add_node"
  | .removeNode _ => "remove_node"
  | .insertChain _ => "insert_chain"
  | .removeChain _ => "remove_chain"
  | .replaceNode _ => "replace_node"
  | .removeBranch _ => "remove_branch"
  | .addEdge _ => "add_edge"
  | .removeEdge _ => "remove_edge"
  | .setNodeOptions _ => "set_node_options"

structure MutationPatch where
  baseTopologyVersion : Option Nat := none
  removePolicy : RemovePolicy := .drain
  actions : List MutationAction
  deriving DecidableEq

structure CandidateSpec where
  candidate : GraphSpec
  addedNodes : List String := []
  removedNodes : List String := []
  addedEdges : List String := []
  removedEdges : List String := []
  nodeRemovePolicy : List (String × RemovePolicy) := []
  parameterUpdates : List SetNodeOptionsAction := []
  touchedNodes : List String := []
  touchedEdges : List String := []
  deriving DecidableEq

def touch (id : String) (ids : List String) : List String :=
  if id ∈ ids then ids else ids ++ [id]

/-- Without explicit ports only a uniquely matching port is allowed. Inputs
prefer the required ones and fall back to all of them. -/
def uniquePort (cap : Option CapabilityDescriptor) (input : Bool) (nodeId : String) :
    Result String :=
  match cap with
  | none =>
    .error (.graphInvalid
      s!"chain node '{nodeId}' needs explicit ports: operator capability unavailable")
  | some cap =>
    let ports := if input then cap.inputs else cap.outputs
    let preferred := (ports.filter fun port => !input || port.required).map PortCapability.name
    let candidates :=
      if preferred.isEmpty && input then ports.map PortCapability.name else preferred
    match candidates with
    | [port] => .ok port
    | _ =>
      .error (.graphInvalid
        (s!"chain node '{nodeId}' has " ++ toString candidates.length ++ " candidate " ++
          (if input then "input" else "output") ++ " ports; specify ports explicitly"))

def addNodeTracked (node : NodeSpec) (out : CandidateSpec) : Result CandidateSpec := do
  let candidate ← out.candidate.addNode node
  .ok { out with
    candidate := candidate
    addedNodes := out.addedNodes ++ [node.id]
    touchedNodes := touch node.id out.touchedNodes }

def addEdgeTracked (given : EdgeSpec) (out : CandidateSpec) : Result CandidateSpec := do
  let edge := withId given
  let candidate ← out.candidate.addEdge edge
  .ok { out with
    candidate := candidate
    addedEdges := out.addedEdges ++ [edge.id]
    touchedNodes := touch edge.toPort.nodeId (touch edge.fromPort.nodeId out.touchedNodes)
    touchedEdges := touch edge.id out.touchedEdges }

def removeEdgeTracked (id : String) (out : CandidateSpec) : Result CandidateSpec := do
  match out.candidate.findEdge id with
  | none => .error (.notFound s!"edge '{id}' not found")
  | some edge =>
    let candidate ← out.candidate.removeEdge id
    -- An edge added and removed in the same patch never existed.
    let change := noteRemoved id out.addedEdges out.removedEdges
    .ok { out with
      candidate := candidate
      addedEdges := change.1
      removedEdges := change.2
      touchedNodes := touch edge.toPort.nodeId (touch edge.fromPort.nodeId out.touchedNodes)
      touchedEdges := touch id out.touchedEdges }

def incidentEdges (spec : GraphSpec) (id : String) : List String :=
  (spec.edgesTo id).foldl (fun ids edge => touch edge.id ids)
    ((spec.edgesFrom id).map EdgeSpec.id)

/-- The end of `RemoveNodeWithEdges`, once the incident edges are gone. Only a
recorded removal gets a policy. -/
def dropNode (id : String) (policy : RemovePolicy) (out : CandidateSpec) :
    Result CandidateSpec := do
  let candidate ← out.candidate.removeNode id
  let change := noteRemoved id out.addedNodes out.removedNodes
  .ok { out with
    candidate := candidate
    addedNodes := change.1
    removedNodes := change.2
    nodeRemovePolicy :=
      if id ∈ out.addedNodes then out.nodeRemovePolicy
      else OrderedMaps.assign id policy out.nodeRemovePolicy
    touchedNodes := touch id out.touchedNodes }

def removeEdges (ids : List String) (out : CandidateSpec) : Result CandidateSpec :=
  ids.foldlM (fun out id => removeEdgeTracked id out) out

def addNodes (nodes : List NodeSpec) (out : CandidateSpec) : Result CandidateSpec :=
  nodes.foldlM (fun out node => addNodeTracked node out) out

def addEdges (edges : List EdgeSpec) (out : CandidateSpec) : Result CandidateSpec :=
  edges.foldlM (fun out edge => addEdgeTracked edge out) out

def removeNodeWithEdges (id : String) (policy : RemovePolicy) (out : CandidateSpec) :
    Result CandidateSpec := do
  if (out.candidate.findNode id).isNone then
    .error (.notFound s!"node '{id}' not found")
  else
    let out ← removeEdges (incidentEdges out.candidate id) out
    dropNode id policy out

def removeNodes (ids : List String) (policy : RemovePolicy) (out : CandidateSpec) :
    Result CandidateSpec :=
  ids.foldlM (fun out id => removeNodeWithEdges id policy out) out

/-- Chain-internal ports, one input and one output for each node in order. -/
def resolvePorts (resolver : CapabilityResolver) (ports : ChainPorts) :
    Bool → List NodeSpec → Result (List (NodeSpec × String × String))
  | _, [] => .ok []
  | first, node :: rest => do
      let input ← match first, ports.chainInput with
        | true, some port => .ok port
        | _, _ => uniquePort (resolver node.op) true node.id
      let output ← match rest.isEmpty, ports.chainOutput with
        | true, some port => .ok port
        | _, _ => uniquePort (resolver node.op) false node.id
      let others ← resolvePorts resolver ports false rest
      .ok ((node, input, output) :: others)

/-- The edges that thread the chain between the ends of the split edge: the
first one keeps the old edge's head, the last one its tail, the links between
keep only its queue. -/
def chainEdges (old : EdgeSpec) (first : Bool) (source : PortRef) :
    List (NodeSpec × String × String) → List EdgeSpec
  | [] => [{ old with id := "", fromPort := source }]
  | (node, input, output) :: rest =>
    let target : PortRef := ⟨node.id, input⟩
    let edge : EdgeSpec :=
      if first then { old with id := "", toPort := target }
      else { fromPort := source, toPort := target, queue := old.queue }
    edge :: chainEdges old false ⟨node.id, output⟩ rest

def checkFresh (spec : GraphSpec) (nodes : List NodeSpec) : Result Unit :=
  nodes.foldlM (fun _ node =>
    if (spec.findNode node.id).isSome then
      .error (.alreadyExists s!"chain node id '{node.id}' already exists in candidate graph")
    else .ok ()) ()

def insertChain (resolver : CapabilityResolver) (action : InsertChainAction)
    (out : CandidateSpec) : Result CandidateSpec := do
  if action.nodes = [] then
    .error (.graphInvalid "insert_chain needs at least one node")
  else
    match out.candidate.findEdge action.edge with
    | none => .error (.notFound s!"edge '{action.edge}' not found")
    | some old =>
      checkFresh out.candidate action.nodes
      let wired ← resolvePorts resolver action.ports true action.nodes
      let out ← removeEdgeTracked old.id out
      let out ← addNodes action.nodes out
      addEdges (chainEdges old true old.fromPort wired) out

def removeChain (action : RemoveChainAction) (policy : RemovePolicy) (out : CandidateSpec) :
    Result CandidateSpec := do
  if action.nodes = [] then
    .error (.graphInvalid "remove_chain needs at least one node")
  else
    match action.mode with
    | .disconnect => removeNodes action.nodes policy out
    | .bypass =>
      let boundary ← checkLinearChain out.candidate action.nodes
      match out.candidate.findEdge boundary.inboundEdge,
        out.candidate.findEdge boundary.outboundEdge with
      | some inbound, some outbound =>
        let out ← removeNodes action.nodes policy out
        addEdgeTracked
          { fromPort := inbound.fromPort
            toPort := outbound.toPort
            queue := outbound.queue
            sync := outbound.sync
            feedback := inbound.feedback || outbound.feedback } out
      -- Not reached: `checkLinearChain_known`.
      | _, _ => .error (.internal "chain boundary edge not found")

def mapPort (resolver : CapabilityResolver) (action : ReplaceNodeAction) (input : Bool)
    (port : String) : Result String :=
  match action.portMapping with
  | some mapping =>
    match OrderedMaps.find port (if input then mapping.inputs else mapping.outputs) with
    | some target => .ok target
    | none =>
      .error (.graphInvalid ("replace_node: no mapping for connected " ++
        (if input then "input" else "output") ++ s!" port '{port}'"))
  | none =>
    match resolver action.replacementOp with
    | none => .ok port
    | some cap =>
      if (if input then cap.findInput port else cap.findOutput port).isNone then
        .error (.graphInvalid
          ("replace_node: replacement '" ++ action.replacementOp.render ++ "' has no " ++
            (if input then "input" else "output") ++
            s!" port '{port}' and no port_mapping was given"))
      else .ok port

def mapIncoming (resolver : CapabilityResolver) (action : ReplaceNodeAction)
    (edge : EdgeSpec) : Result EdgeSpec := do
  let target ← mapPort resolver action true edge.toPort.port
  let moved := { edge with toPort := { edge.toPort with port := target } }
  -- A self-loop is listed among the incoming edges only.
  if edge.fromPort.nodeId = action.node then
    let source ← mapPort resolver action false edge.fromPort.port
    .ok { moved with fromPort := { edge.fromPort with port := source } }
  else .ok moved

def mapOutgoing (resolver : CapabilityResolver) (action : ReplaceNodeAction)
    (edge : EdgeSpec) : Result EdgeSpec := do
  let source ← mapPort resolver action false edge.fromPort.port
  .ok { edge with fromPort := { edge.fromPort with port := source } }

def replaceNode (resolver : CapabilityResolver) (action : ReplaceNodeAction)
    (policy : RemovePolicy) (out : CandidateSpec) : Result CandidateSpec := do
  match out.candidate.findNode action.node with
  | none => .error (.notFound s!"node '{action.node}' not found")
  | some old =>
    let replacement := { old with
      op := action.replacementOp, options := action.replacementOptions }
    let incoming ← (out.candidate.edgesTo action.node).mapM (mapIncoming resolver action)
    let outgoing ← ((out.candidate.edgesFrom action.node).filter fun edge =>
      edge.toPort.nodeId ≠ action.node).mapM (mapOutgoing resolver action)
    let out ← removeNodeWithEdges action.node policy out
    -- The removal touched the node's id already.
    let candidate ← out.candidate.addNode replacement
    let out := { out with
      candidate := candidate, addedNodes := out.addedNodes ++ [replacement.id] }
    addEdges (incoming ++ outgoing) out

/-- The entry edges lead from outside the selection into it; the stack starts
with their targets, the last one on top. -/
def branchEntries (spec : GraphSpec) (selected entryIds : List String) : Result (List String) :=
  entryIds.foldlM (fun stack edgeId =>
    match spec.findEdge edgeId with
    | none => .error (.notFound s!"entry edge '{edgeId}' not found")
    | some entry =>
      if entry.toPort.nodeId ∉ selected then
        .error (.graphInvalid s!"entry edge '{edgeId}' does not lead into the selection")
      else if entry.fromPort.nodeId ∈ selected then
        .error (.graphInvalid s!"entry edge '{edgeId}' must start outside the selection")
      else .ok (entry.toPort.nodeId :: stack)) []

def successors (spec : GraphSpec) (selected : List String) (id : String) : List String :=
  ((spec.edgesFrom id).map fun edge => edge.toPort.nodeId).filter (· ∈ selected)

/-- Depth-first reachability inside the selection; one unit of fuel is one pop. -/
def reachable (spec : GraphSpec) (selected : List String) :
    Nat → List String → List String → List String
  | 0, _, reached => reached
  | _, [], reached => reached
  | fuel + 1, id :: stack, reached =>
    if id ∈ reached then reachable spec selected fuel stack reached
    else reachable spec selected fuel
      ((successors spec selected id).reverse ++ stack) (id :: reached)

def checkBranchNodes (spec : GraphSpec) (nodes : List String) : Result Unit :=
  nodes.foldlM (fun _ id =>
    if (spec.findNode id).isNone then .error (.notFound s!"node '{id}' not found")
    else .ok ()) ()

def checkReached (reached nodes : List String) : Result Unit :=
  nodes.foldlM (fun _ id =>
    if id ∉ reached then
      .error (.graphInvalid
        s!"node '{id}' is not reachable from the entry edge(s) inside the selection")
    else .ok ()) ()

def removeBranch (action : RemoveBranchAction) (policy : RemovePolicy) (out : CandidateSpec) :
    Result CandidateSpec := do
  if action.nodes = [] then
    .error (.graphInvalid "remove_branch needs a node selection")
  else
    let stack ← branchEntries out.candidate action.nodes action.allEntryEdges
    checkBranchNodes out.candidate action.nodes
    let reached := reachable out.candidate action.nodes
      (stack.length + out.candidate.edges.length) stack []
    checkReached reached action.nodes
    let shared := findSharedDependencies out.candidate action.nodes action.allEntryEdges
    if shared ≠ [] then
      .error (.sharedDependency
        ("branch selection shares " ++ toString shared.length ++
          " dependency(ies) with the rest of the graph")
        (some (.object [("dependencies", .array (shared.map SharedDependency.toJson))])))
    else removeNodes action.nodes policy out

def setNodeOptions (action : SetNodeOptionsAction) (out : CandidateSpec) : Result CandidateSpec :=
  if (out.candidate.findNode action.node).isNone then
    .error (.notFound s!"node '{action.node}' not found")
  else .ok { out with
    parameterUpdates := out.parameterUpdates ++ [action]
    touchedNodes := touch action.node out.touchedNodes }

def applyOne (resolver : CapabilityResolver) (defaultPolicy : RemovePolicy)
    (action : MutationAction) (out : CandidateSpec) : Result CandidateSpec :=
  match action with
  | .addNode node => addNodeTracked node out
  | .removeNode a =>
    match a.mode with
    | .bypass =>
      removeChain ⟨[a.node], a.mode, a.removePolicy⟩ (a.removePolicy.getD defaultPolicy) out
    | .disconnect => removeNodeWithEdges a.node (a.removePolicy.getD defaultPolicy) out
  | .insertChain a => insertChain resolver a out
  | .removeChain a => removeChain a (a.removePolicy.getD defaultPolicy) out
  | .replaceNode a => replaceNode resolver a (a.removePolicy.getD defaultPolicy) out
  | .removeBranch a => removeBranch a (a.removePolicy.getD defaultPolicy) out
  | .addEdge edge => addEdgeTracked edge out
  | .removeEdge edge => removeEdgeTracked edge out
  | .setNodeOptions a => setNodeOptions a out

/-- The error of action `index`: its position and type go into the message and
the context, the action's own context under "detail". -/
def actionError (index : Nat) (action : MutationAction) (status : Status) : Status :=
  let name := actionTypeName action
  { code := status.code
    message := "action[" ++ toString index ++ s!"] {name}: {status.message}"
    retryable := status.retryable
    context := some (.object
      ([("action_index", .integer index), ("action_type", .string name)] ++
        match status.context with
        | some detail => [("detail", detail)]
        | none => [])) }

def applyIndexed (resolver : CapabilityResolver) (defaultPolicy : RemovePolicy)
    (out : CandidateSpec) (entry : MutationAction × Nat) : Result CandidateSpec :=
  (applyOne resolver defaultPolicy entry.1 out).mapError (actionError entry.2 entry.1)

def apply (resolver : CapabilityResolver) (base : GraphSpec) (patch : MutationPatch) :
    Result CandidateSpec :=
  if patch.actions = [] then .error (.invalidArgument "mutation has no actions")
  else patch.actions.zipIdx.foldlM (applyIndexed resolver patch.removePolicy)
    { candidate := base }

variable {id : String}

theorem mem_touch {other : String} {ids : List String} :
    other ∈ touch id ids ↔ other ∈ ids ∨ other = id := by
  unfold touch
  by_cases known : id ∈ ids
  · simp only [known]
    constructor
    · exact .inl
    · rintro (old | rfl)
      · exact old
      · exact known
  · simp [known]

theorem touch_self {ids : List String} : id ∈ touch id ids := mem_touch.mpr (.inr rfl)

theorem touch_keeps {other : String} {ids : List String} (old : other ∈ ids) : other ∈ touch id ids :=
  mem_touch.mpr (.inl old)

variable {after out : CandidateSpec}

theorem addNodeTracked_ok {node : NodeSpec} :
    addNodeTracked node out = .ok after ↔
      nodeAdmissible node ∧ node.id ∉ out.candidate.nodeIds ∧ after =
        { out with
          candidate := { out.candidate with nodes := out.candidate.nodes ++ [node] }
          addedNodes := out.addedNodes ++ [node.id]
          touchedNodes := touch node.id out.touchedNodes } := by
  simp only [addNodeTracked, bind_ok, addNode_ok, Except.ok.injEq]
  constructor
  · rintro ⟨candidate, ⟨admissible, fresh, rfl⟩, rfl⟩
    exact ⟨admissible, fresh, rfl⟩
  · rintro ⟨admissible, fresh, rfl⟩
    exact ⟨_, ⟨admissible, fresh, rfl⟩, rfl⟩

theorem addEdgeTracked_ok {given edge : EdgeSpec} (named : withId given = edge) :
    addEdgeTracked given out = .ok after ↔
      (edgeAdmissible edge ∧ edge.id ∉ out.candidate.edgeIds ∧
        edge.fromPort.nodeId ∈ out.candidate.nodeIds ∧
        edge.toPort.nodeId ∈ out.candidate.nodeIds ∧
        ¬out.candidate.linked edge.fromPort edge.toPort) ∧ after =
        { out with
          candidate := { out.candidate with edges := out.candidate.edges ++ [edge] }
          addedEdges := out.addedEdges ++ [edge.id]
          touchedNodes := touch edge.toPort.nodeId (touch edge.fromPort.nodeId out.touchedNodes)
          touchedEdges := touch edge.id out.touchedEdges } := by
  have stable : withId edge = edge := by
    rw [← named, withId_withId]
  simp only [addEdgeTracked, bind_ok, named, addEdge_ok, stable, Except.ok.injEq]
  constructor
  · rintro ⟨candidate, ⟨admissible, fresh, source, target, single, rfl⟩, rfl⟩
    exact ⟨⟨admissible, fresh, source, target, single⟩, rfl⟩
  · rintro ⟨⟨admissible, fresh, source, target, single⟩, rfl⟩
    exact ⟨_, ⟨admissible, fresh, source, target, single, rfl⟩, rfl⟩

theorem removeEdgeTracked_ok :
    removeEdgeTracked id out = .ok after ↔
      ∃ edge, out.candidate.findEdge id = some edge ∧ after =
        { out with
          candidate := { out.candidate with
            edges := KeyedLists.erase EdgeSpec.id id out.candidate.edges }
          addedEdges := (noteRemoved id out.addedEdges out.removedEdges).1
          removedEdges := (noteRemoved id out.addedEdges out.removedEdges).2
          touchedNodes := touch edge.toPort.nodeId (touch edge.fromPort.nodeId out.touchedNodes)
          touchedEdges := touch id out.touchedEdges } := by
  unfold removeEdgeTracked
  cases found : out.candidate.findEdge id with
  | none => simp
  | some edge =>
    have known : id ∈ out.candidate.edgeIds := by
      by_contra absent
      simp [findEdge_none.mpr absent] at found
    simp only [bind_ok, removeEdge_ok, known, true_and, exists_eq_left,
      Except.ok.injEq, Option.some.injEq, exists_eq_left']
    exact eq_comm

theorem dropNode_ok {policy : RemovePolicy} :
    dropNode id policy out = .ok after ↔
      id ∈ out.candidate.nodeIds ∧ after =
        { out with
          candidate := { out.candidate with
            nodes := KeyedLists.erase NodeSpec.id id out.candidate.nodes
            edges := out.candidate.edges.filter fun edge => !touches id edge }
          addedNodes := (noteRemoved id out.addedNodes out.removedNodes).1
          removedNodes := (noteRemoved id out.addedNodes out.removedNodes).2
          nodeRemovePolicy :=
            if id ∈ out.addedNodes then out.nodeRemovePolicy
            else OrderedMaps.assign id policy out.nodeRemovePolicy
          touchedNodes := touch id out.touchedNodes } := by
  simp only [dropNode, bind_ok, removeNode_ok, Except.ok.injEq]
  constructor
  · rintro ⟨candidate, ⟨known, rfl⟩, rfl⟩
    exact ⟨known, rfl⟩
  · rintro ⟨known, rfl⟩
    exact ⟨_, ⟨known, rfl⟩, rfl⟩

theorem setNodeOptions_ok {action : SetNodeOptionsAction} :
    setNodeOptions action out = .ok after ↔
      action.node ∈ out.candidate.nodeIds ∧ after =
        { out with
          parameterUpdates := out.parameterUpdates ++ [action]
          touchedNodes := touch action.node out.touchedNodes } := by
  simp only [setNodeOptions, guard_ok, Option.isNone_iff_eq_none, findNode_none,
    Decidable.not_not, Except.ok.injEq]
  exact and_congr_right fun _ => eq_comm

def unexpanded (spec : GraphSpec) (reached : List String) : Nat :=
  (spec.edges.filter fun edge => edge.fromPort.nodeId ∉ reached).length

theorem successors_unexpanded (spec : GraphSpec) (selected reached : List String)
    (id : String) (fresh : id ∉ reached) :
    (successors spec selected id).length + unexpanded spec (id :: reached) ≤
      unexpanded spec reached := by
  have pushed : (successors spec selected id).length ≤ (spec.edgesFrom id).length := by
    simpa [successors] using length_filter_le (· ∈ selected)
      ((spec.edgesFrom id).map fun edge => edge.toPort.nodeId)
  have split : (spec.edgesFrom id).length + unexpanded spec (id :: reached) ≤
      unexpanded spec reached := by
    unfold edgesFrom unexpanded
    induction spec.edges with
    | nil => simp
    | cons edge rest ih =>
      by_cases here : edge.fromPort.nodeId = id
      · simp only [filter_cons, here, mem_cons, true_or, not_true_eq_false,
          decide_true, decide_false, fresh, not_false_eq_true, ↓reduceIte, length_cons,
          Bool.false_eq_true] at ih ⊢
        omega
      · by_cases seen : edge.fromPort.nodeId ∈ reached
        · simp only [filter_cons, here, seen, mem_cons, or_true, not_true_eq_false,
            decide_false, ↓reduceIte, Bool.false_eq_true] at ih ⊢
          omega
        · simp only [filter_cons, here, seen, mem_cons, or_self, not_false_eq_true,
            decide_true, decide_false, ↓reduceIte, length_cons, Bool.false_eq_true] at ih ⊢
          omega
  omega

end GraphEngine.Applier
