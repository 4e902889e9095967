import Mathlib.Data.List.Induction
import GraphEngine.Capabilities
import GraphEngine.OrderedMaps

/-!
`GraphValidator::Validate` with `fail_fast` unset, as every caller in the engine
leaves it. All issues are collected; the first one decides the status code. The
capability negotiator is a parameter with a state of its own. Step 3 of the
source walks an unordered map; here it follows declaration order.
-/

namespace GraphEngine.Validation

open Values GraphSpecs Capabilities KeyedLists OrderedMaps
open List hiding lookup

structure ValidationIssue where
  code : StatusCode
  message : String
  nodeId : String := ""
  edgeId : String := ""
  deriving DecidableEq

def ValidationIssue.toJson (issue : ValidationIssue) : JsonValue :=
  .object ([("code", .integer issue.code.value)] ++
    (if issue.edgeId = "" then [] else [("edge", .string issue.edgeId)]) ++
    [("message", .string issue.message)] ++
    (if issue.nodeId = "" then [] else [("node", .string issue.nodeId)]))

/-- The first issue decides the code; every issue goes into the context. -/
def issuesToStatus (first : ValidationIssue) (rest : List ValidationIssue) : Status where
  code := first.code
  message := first.message ++ (if rest = [] then "" else " (+" ++ toString rest.length ++ " more)")
  context := some (.object [("issues", .array ((first :: rest).map ValidationIssue.toJson))])

structure PortUse where
  nodeId : String
  op : OperatorKey
  version : CapabilityVersion
  port : PortCapability
  edgeSync : Option SyncPolicy := none

/-- `CapabilityNegotiator` with the caller's preferences fixed. Its cache and its
last conflict, rendered as JSON text, live in the state. -/
structure Negotiator (State : Type) where
  version : CapabilityDescriptor → CapabilityVersion
  negotiateEdge : PortUse → PortUse → State → Result ConnectionContract × State
  negotiateFanout : PortUse → List PortUse → State → Result ConnectionContract × State
  lastConflict : State → Option String

structure ValidatedGraph where
  edgeContracts : List (String × ConnectionContract) := []
  outputContracts : List (String × ConnectionContract) := []
  topologicalOrder : List String := []
  sources : List String := []
  sinks : List String := []
  deriving DecidableEq

structure NodeInfo where
  spec : NodeSpec
  cap : Option CapabilityDescriptor
  index : Nat
  deriving DecidableEq

/-! Step 1: node ids, operator resolution, executor and parallelism. -/

def when (check : Prop) [Decidable check] (issue : ValidationIssue) : List ValidationIssue :=
  if check then [issue] else []

def deviceIssues (node : NodeSpec) (cap : CapabilityDescriptor) (kind : ExecutorKind)
    (device : DeviceKind) (name : String) : List ValidationIssue :=
  when (node.executor.kind = kind ∧ cap.execution.devices ≠ [] ∧ device ∉ cap.execution.devices)
    { code := .graphInvalid
      message := s!"node '{node.id}' requests {name} executor but operator '" ++
        node.op.render ++ s!"' does not support {name}"
      nodeId := node.id }

def capabilityIssues (node : NodeSpec) : Option CapabilityDescriptor → List ValidationIssue
  | none => [{
      code := .notFound
      message := s!"node '{node.id}' uses unknown operator '" ++ node.op.render ++ "'"
      nodeId := node.id }]
  | some cap =>
    deviceIssues node cap .gpu .gpu "gpu" ++ deviceIssues node cap .cpu .cpu "cpu" ++
      when (cap.execution.maxParallelism < node.parallelism)
        { code := .graphInvalid
          message := s!"node '{node.id}' parallelism " ++ toString node.parallelism ++
            " exceeds operator max_parallelism " ++ toString cap.execution.maxParallelism
          nodeId := node.id }

structure NodeScan where
  issues : List ValidationIssue := []
  infos : List NodeInfo := []

def findInfo (infos : List NodeInfo) (id : String) : Option NodeInfo :=
  lookup (fun info => info.spec.id) id infos

def scanNode (resolver : CapabilityResolver) (scan : NodeScan) (entry : NodeSpec × Nat) :
    NodeScan :=
  let node := entry.1
  let idIssues := when (isValidStableId node.id = false)
    { code := .graphInvalid, message := s!"invalid node id '{node.id}'", nodeId := node.id }
  if (findInfo scan.infos node.id).isSome then
    { scan with issues := scan.issues ++ idIssues ++ [{
        code := .graphInvalid
        message := s!"duplicate node id '{node.id}'"
        nodeId := node.id }] }
  else
    { issues := scan.issues ++ idIssues ++ capabilityIssues node (resolver node.op)
      infos := scan.infos ++ [⟨node, resolver node.op, entry.2⟩] }

def scanNodes (resolver : CapabilityResolver) (spec : GraphSpec) : NodeScan :=
  spec.nodes.zipIdx.foldl (scanNode resolver)
    { issues := when (spec.nodes = [])
        { code := .graphInvalid, message := s!"graph '{spec.name}' has no nodes" } }

/-! Step 2: edge ids, endpoints, ports and feedback rules. -/

structure OutputUse where
  port : PortCapability
  consumers : List EdgeSpec

structure EdgeScan where
  issues : List ValidationIssue := []
  outputs : List (String × OutputUse) := []
  inputs : List (String × List EdgeSpec) := []
  edgeIds : List String := []

def endpointIssues (infos : List NodeInfo) (seen : List String) (edge : EdgeSpec) :
    List ValidationIssue :=
  let source := edge.fromPort.nodeId
  let target := edge.toPort.nodeId
  when (edge.id = "" ∨ edge.id ∈ seen)
      { code := .graphInvalid
        message := s!"duplicate or empty edge id '{edge.id}'"
        edgeId := edge.id } ++
    when ((findInfo infos source).isNone = true)
      { code := .graphInvalid
        message := s!"edge '{edge.id}' from unknown node '" ++ source ++ "'"
        edgeId := edge.id } ++
    when ((findInfo infos target).isNone = true)
      { code := .graphInvalid
        message := s!"edge '{edge.id}' to unknown node '" ++ target ++ "'"
        edgeId := edge.id } ++
    when (source = target ∧ edge.feedback = false)
      { code := .graphInvalid
        message := s!"edge '{edge.id}' is a self-loop without feedback=true"
        nodeId := source
        edgeId := edge.id } ++
    when (edge.feedback = true ∧ edge.queue.policy = .block)
      { code := .graphInvalid
        message := s!"feedback edge '{edge.id}' must use a non-blocking queue policy"
        edgeId := edge.id }

def endpointCap (infos : List NodeInfo) (id : String) : Option CapabilityDescriptor :=
  (findInfo infos id).bind NodeInfo.cap

def outPort (infos : List NodeInfo) (edge : EdgeSpec) : Option PortCapability :=
  (endpointCap infos edge.fromPort.nodeId).bind fun cap => cap.findOutput edge.fromPort.port

def inPort (infos : List NodeInfo) (edge : EdgeSpec) : Option PortCapability :=
  (endpointCap infos edge.toPort.nodeId).bind fun cap => cap.findInput edge.toPort.port

def portIssues (infos : List NodeInfo) (edge : EdgeSpec) : List ValidationIssue :=
  when ((endpointCap infos edge.fromPort.nodeId).isSome = true ∧ outPort infos edge = none)
      { code := .graphInvalid
        message := s!"edge '{edge.id}': node '{edge.fromPort.nodeId}' has no output port '" ++
          edge.fromPort.port ++ "'"
        nodeId := edge.fromPort.nodeId
        edgeId := edge.id } ++
    when ((endpointCap infos edge.toPort.nodeId).isSome = true ∧ inPort infos edge = none)
      { code := .graphInvalid
        message := s!"edge '{edge.id}': node '{edge.toPort.nodeId}' has no input port '" ++
          edge.toPort.port ++ "'"
        nodeId := edge.toPort.nodeId
        edgeId := edge.id }

def recordOutput (edge : EdgeSpec) (outputs : List (String × OutputUse)) :
    Option PortCapability → List (String × OutputUse)
  | none => outputs
  | some port =>
    let before := (find edge.fromPort.render outputs).elim [] OutputUse.consumers
    assign edge.fromPort.render ⟨port, before ++ [edge]⟩ outputs

def recordInput (edge : EdgeSpec) (inputs : List (String × List EdgeSpec)) :
    Option PortCapability → List (String × List EdgeSpec)
  | none => inputs
  | some _ =>
    let before := (find edge.toPort.render inputs).getD []
    assign edge.toPort.render (before ++ [edge]) inputs

def scanEdge (infos : List NodeInfo) (scan : EdgeScan) (edge : EdgeSpec) : EdgeScan where
  issues := scan.issues ++ endpointIssues infos scan.edgeIds edge ++ portIssues infos edge
  outputs := recordOutput edge scan.outputs (outPort infos edge)
  inputs := recordInput edge scan.inputs (inPort infos edge)
  edgeIds := scan.edgeIds ++ [edge.id]

/-! Step 3: required inputs and cardinality. -/

def inputIssues (inputs : List (String × List EdgeSpec)) (id : String) (port : PortCapability) :
    List ValidationIssue :=
  let key := id ++ "." ++ port.name
  let count := ((find key inputs).getD []).length
  when (port.required = true ∧ count = 0)
      { code := .graphInvalid
        message := s!"required input port '{key}' is not connected"
        nodeId := id } ++
    when (port.cardinality = .single ∧ 1 < count)
      { code := .graphInvalid
        message := s!"input port '{key}' accepts a single edge but has {count}"
        nodeId := id }

def outputIssues (outputs : List (String × OutputUse)) (id : String) (port : PortCapability) :
    List ValidationIssue :=
  let key := id ++ "." ++ port.name
  let count := ((find key outputs).elim [] OutputUse.consumers).length
  when (port.cardinality = .single ∧ 1 < count)
    { code := .graphInvalid
      message := s!"output port '{key}' allows a single consumer but has {count}"
      nodeId := id }

def cardinalityIssues (scan : EdgeScan) (info : NodeInfo) : List ValidationIssue :=
  match info.cap with
  | none => []
  | some cap =>
    cap.inputs.flatMap (inputIssues scan.inputs info.spec.id) ++
      cap.outputs.flatMap (outputIssues scan.outputs info.spec.id)

/-! Step 4: Kahn's algorithm over the non-feedback edges. Among the ready nodes
the one declared first is taken, which is what the source's heap yields. -/

structure KahnState where
  ready : List String
  indegree : String → Nat
  order : List String := []

def forwardEdges (infos : List NodeInfo) (spec : GraphSpec) : List EdgeSpec :=
  spec.edges.filter fun edge => !edge.feedback &&
    (findInfo infos edge.fromPort.nodeId).isSome && (findInfo infos edge.toPort.nodeId).isSome

def declaredAt (infos : List NodeInfo) (id : String) : Nat :=
  (findInfo infos id).elim 0 NodeInfo.index

def firstReady (infos : List NodeInfo) : List String → Option String
  | [] => none
  | id :: rest =>
    match firstReady infos rest with
    | none => some id
    | some other => some (if declaredAt infos other < declaredAt infos id then other else id)

/-- One decrement of a counter that is at least 1 (`kahnStep_sorted`). -/
def releaseSuccessor (state : KahnState) (next : String) : KahnState :=
  let left := state.indegree next - 1
  { state with
    indegree := fun id => if id = next then left else state.indegree id
    ready := if left = 0 then state.ready ++ [next] else state.ready }

def kahnStep (edges : List EdgeSpec) (state : KahnState) (id : String) : KahnState :=
  let successors := (edges.filter fun edge => edge.fromPort.nodeId = id).map
    fun edge => edge.toPort.nodeId
  successors.foldl releaseSuccessor
    { state with ready := state.ready.erase id, order := state.order ++ [id] }

/-- One unit of fuel is one node taken. -/
def kahnLoop (infos : List NodeInfo) (edges : List EdgeSpec) : Nat → KahnState → KahnState
  | 0, state => state
  | fuel + 1, state =>
    match firstReady infos state.ready with
    | none => state
    | some id => kahnLoop infos edges fuel (kahnStep edges state id)

def kahn (infos : List NodeInfo) (spec : GraphSpec) : KahnState :=
  let edges := forwardEdges infos spec
  let indegree := fun id => (edges.filter fun edge => edge.toPort.nodeId = id).length
  kahnLoop infos edges spec.nodes.length
    { ready := spec.nodeIds.filter fun id => indegree id = 0, indegree := indegree }

def cycleIssues (spec : GraphSpec) (final : KahnState) : List ValidationIssue :=
  let inCycle := spec.nodeIds.filter fun id => final.indegree id ≠ 0
  let listed := ",".intercalate inCycle
  when (final.order.length ≠ spec.nodes.length)
    { code := .graphInvalid
      message := s!"graph contains a cycle without feedback edges among [{listed}]"
      nodeId := inCycle.headD "" }

def sourceIds (spec : GraphSpec) : List String :=
  spec.nodeIds.filter fun id =>
    !spec.edges.any fun edge => edge.toPort.nodeId = id && !edge.feedback

def sinkIds (spec : GraphSpec) : List String :=
  spec.nodeIds.filter fun id => !spec.edges.any fun edge => edge.fromPort.nodeId = id

/-! Step 5: negotiation of each used output port, single edge or fan-out. -/

section Negotiation

variable {State : Type} (negotiator : Negotiator State)

def portUse (infos : List NodeInfo) (nodeId : String) (edgeSync : Option SyncPolicy)
    (port : Option PortCapability) : Option PortUse :=
  match findInfo infos nodeId, port with
  | some info, some port =>
    info.cap.map fun cap => ⟨nodeId, info.spec.op, negotiator.version cap, port, edgeSync⟩
  | _, _ => none

/-- The fall-through is the source's initial value of `contract`; with no issue
so far every port of a used output resolves and it is not reached. -/
def negotiateOutput (infos : List NodeInfo) (use : OutputUse) (state : State) :
    Result ConnectionContract × State :=
  let sides := use.consumers.map fun edge =>
    portUse negotiator infos edge.toPort.nodeId edge.sync (inPort infos edge)
  let source := use.consumers.head?.bind fun edge =>
    portUse negotiator infos edge.fromPort.nodeId none (some use.port)
  match source, sides with
  | some source, [some target] => negotiator.negotiateEdge source target state
  | some source, sides => negotiator.negotiateFanout source (sides.filterMap fun side => side) state
  | none, _ => (.error (.internal "unreachable"), state)

structure NegotiationScan (State : Type) where
  state : State
  issues : List ValidationIssue := []
  edgeContracts : List (String × ConnectionContract) := []
  outputContracts : List (String × ConnectionContract) := []

def conflictIssue (key : String) (use : OutputUse) (status : Status) (conflict : Option String) :
    ValidationIssue :=
  let listed := ",".intercalate (use.consumers.map EdgeSpec.id)
  { code := status.code
    message := s!"output '{key}' [{listed}]: {status.message}" ++
      conflict.elim "" (fun text => " conflict=" ++ text)
    nodeId := use.consumers.head?.elim "" fun edge => edge.fromPort.nodeId
    edgeId := match use.consumers with
      | [only] => only.id
      | _ => "" }

def negotiateStep (infos : List NodeInfo) (scan : NegotiationScan State)
    (entry : String × OutputUse) : NegotiationScan State :=
  match negotiateOutput negotiator infos entry.2 scan.state with
  | (.error status, state) =>
    { scan with
      state := state
      issues := scan.issues ++
        [conflictIssue entry.1 entry.2 status (negotiator.lastConflict state)] }
  | (.ok contract, state) =>
    { scan with
      state := state
      edgeContracts := entry.2.consumers.foldl
        (fun contracts edge => assign edge.id contract contracts) scan.edgeContracts
      outputContracts := assign entry.1 contract scan.outputContracts }

/-- Steps 1 to 4: everything that needs no negotiation. -/
def structuralIssues (resolver : CapabilityResolver) (spec : GraphSpec) : List ValidationIssue :=
  let nodes := scanNodes resolver spec
  let edges := spec.edges.foldl (scanEdge nodes.infos) { issues := nodes.issues }
  edges.issues ++ nodes.infos.flatMap (cardinalityIssues edges) ++
    cycleIssues spec (kahn nodes.infos spec)

def validate (resolver : CapabilityResolver) (start : State) (spec : GraphSpec) :
    Result ValidatedGraph :=
  match structuralIssues resolver spec with
  | first :: rest => .error (issuesToStatus first rest)
  | [] =>
    let infos := (scanNodes resolver spec).infos
    let outputs := (spec.edges.foldl (scanEdge infos) {}).outputs
    let scan := outputs.foldl (negotiateStep negotiator infos) { state := start }
    match scan.issues with
    | first :: rest => .error (issuesToStatus first rest)
    | [] => .ok {
        edgeContracts := scan.edgeContracts
        outputContracts := scan.outputContracts
        topologicalOrder := (kahn infos spec).order
        sources := sourceIds spec
        sinks := sinkIds spec }

end Negotiation

/-! What an accepted graph satisfies. A clean final issue list means that no
step added an issue, so every check held at its turn. -/

theorem when_nil {check : Prop} [Decidable check] {issue : ValidationIssue} :
    when check issue = [] ↔ ¬check := by
  unfold when
  split <;> simp_all

variable {id : String} {infos : List NodeInfo} {scan : EdgeScan} {edges : List EdgeSpec}
  {edge : EdgeSpec}

theorem findInfo_isSome :
    (findInfo infos id).isSome = true ↔ id ∈ infos.map fun info => info.spec.id :=
  lookup_isSome

theorem capabilityIssues_nil {node : NodeSpec} {cap : Option CapabilityDescriptor}
    (clean : capabilityIssues node cap = []) : cap.isSome = true := by
  cases cap with
  | none => cases clean
  | some cap => rfl

variable {resolver : CapabilityResolver}

theorem scanNode_clean {scan : NodeScan} {entry : NodeSpec × Nat}
    (clean : (scanNode resolver scan entry).issues = []) :
    scan.issues = [] ∧ entry.1.id ∉ (scan.infos.map fun info => info.spec.id) ∧
      (resolver entry.1.op).isSome = true ∧ (scanNode resolver scan entry).infos =
        scan.infos ++ [⟨entry.1, resolver entry.1.op, entry.2⟩] := by
  unfold scanNode at clean ⊢
  by_cases known : (findInfo scan.infos entry.1.id).isSome = true
  · simp [known] at clean
  · simp only [known, Bool.false_eq_true, ↓reduceIte, append_eq_nil_iff] at clean ⊢
    rw [findInfo_isSome] at known
    exact ⟨clean.1.1, known, capabilityIssues_nil clean.2, trivial⟩

variable {entries : List (NodeSpec × Nat)}

theorem scanNodes_start {scan : NodeScan}
    (clean : (entries.foldl (scanNode resolver) scan).issues = []) : scan.issues = [] := by
  induction entries generalizing scan with
  | nil => exact clean
  | cons entry rest ih => exact (scanNode_clean (ih clean)).1

theorem scanNodes_clean {scan : NodeScan}
    (distinct : (scan.infos.map fun info => info.spec.id).Nodup)
    (clean : (entries.foldl (scanNode resolver) scan).issues = []) :
    (entries.foldl (scanNode resolver) scan).infos =
        scan.infos ++ entries.map (fun entry => ⟨entry.1, resolver entry.1.op, entry.2⟩) ∧
      (∀ entry ∈ entries, (resolver entry.1.op).isSome = true) ∧
      ((entries.foldl (scanNode resolver) scan).infos.map fun info => info.spec.id).Nodup := by
  induction entries using reverseRecOn with
  | nil => simpa using distinct
  | append_singleton rest entry ih =>
    rw [foldl_append] at clean ⊢
    obtain ⟨earlier, fresh, resolved, infos⟩ := scanNode_clean clean
    obtain ⟨listed, described, nodup⟩ := ih earlier
    rw [foldl_cons, foldl_nil, infos]
    refine ⟨by simp [listed], ?_, ?_⟩
    · exact forall_mem_append.mpr ⟨described, forall_mem_singleton.mpr resolved⟩
    · rw [map_append]
      exact nodup_append_comm.mp (nodup_cons.mpr ⟨fresh, nodup⟩)

theorem scanEdge_clean (clean : (scanEdge infos scan edge).issues = []) :
    scan.issues = [] ∧ edge.id ∉ scan.edgeIds ∧
      (findInfo infos edge.fromPort.nodeId).isSome = true ∧
      (findInfo infos edge.toPort.nodeId).isSome = true ∧
      ((endpointCap infos edge.fromPort.nodeId).isSome = true →
        (outPort infos edge).isSome = true) ∧
      ((endpointCap infos edge.toPort.nodeId).isSome = true →
        (inPort infos edge).isSome = true) := by
  simp only [scanEdge, endpointIssues, portIssues, append_eq_nil_iff, when_nil, not_or,
    not_and, Option.isNone_iff_eq_none, ← Option.isSome_iff_ne_none] at clean
  obtain ⟨⟨start, ⟨⟨⟨identity, source⟩, target⟩, -⟩, -⟩, output, input⟩ := clean
  exact ⟨start, identity.2, source, target, output, input⟩

theorem scanEdges_start (clean : (edges.foldl (scanEdge infos) scan).issues = []) :
    scan.issues = [] := by
  induction edges generalizing scan with
  | nil => exact clean
  | cons edge rest ih => exact (scanEdge_clean (ih clean)).1

theorem endpointCap_isSome (resolved : ∀ info ∈ infos, info.cap.isSome = true)
    (known : (findInfo infos id).isSome = true) : (endpointCap infos id).isSome = true := by
  obtain ⟨info, found⟩ := Option.isSome_iff_exists.mp known
  simpa [endpointCap, found] using resolved info (lookup_some found).1

theorem scanEdges_clean (resolved : ∀ info ∈ infos, info.cap.isSome = true)
    (clean : (edges.foldl (scanEdge infos) scan).issues = []) :
    (∀ edge ∈ edges, (findInfo infos edge.fromPort.nodeId).isSome = true ∧
      (findInfo infos edge.toPort.nodeId).isSome = true ∧
      (outPort infos edge).isSome = true ∧ (inPort infos edge).isSome = true) ∧
    (edges.foldl (scanEdge infos) scan).edgeIds = scan.edgeIds ++ edges.map EdgeSpec.id ∧
    (edges.map EdgeSpec.id).Nodup := by
  induction edges using reverseRecOn with
  | nil => simp
  | append_singleton rest edge ih =>
    rw [foldl_append] at clean ⊢
    obtain ⟨earlier, fresh, source, target, output, input⟩ := scanEdge_clean clean
    obtain ⟨known, ids, distinct⟩ := ih earlier
    rw [ids, mem_append, not_or] at fresh
    refine ⟨forall_mem_append.mpr ⟨known, forall_mem_singleton.mpr ?_⟩, ?_, ?_⟩
    · exact ⟨source, target, output (endpointCap_isSome resolved source),
        input (endpointCap_isSome resolved target)⟩
    · simp [scanEdge, ids]
    · rw [map_append]
      exact nodup_append_comm.mp (nodup_cons.mpr ⟨fresh.2, distinct⟩)

def Recorded (outputs : List (String × OutputUse)) (edge : EdgeSpec) : Prop :=
  ∃ use, find edge.fromPort.render outputs = some use ∧ edge ∈ use.consumers

variable {outputs : List (String × OutputUse)}

theorem recordOutput_keeps {other : EdgeSpec} {port : Option PortCapability}
    (recorded : Recorded outputs other) : Recorded (recordOutput edge outputs port) other := by
  cases port with
  | none => exact recorded
  | some port =>
    obtain ⟨use, found, member⟩ := recorded
    by_cases same : other.fromPort.render = edge.fromPort.render
    · refine ⟨_, by rw [recordOutput, find_assign, if_pos same], ?_⟩
      rw [same] at found
      simp [found, member]
    · exact ⟨use, by rw [recordOutput, find_assign, if_neg same, found], member⟩

theorem recordOutput_adds {port : Option PortCapability} (present : port.isSome = true) :
    Recorded (recordOutput edge outputs port) edge := by
  obtain ⟨port, rfl⟩ := Option.isSome_iff_exists.mp present
  exact ⟨_, by rw [recordOutput, find_assign, if_pos rfl], by simp⟩

theorem scanEdges_recorded (present : ∀ edge ∈ edges, (outPort infos edge).isSome = true) :
    ∀ edge ∈ edges, Recorded (edges.foldl (scanEdge infos) scan).outputs edge := by
  induction edges using reverseRecOn with
  | nil => nofun
  | append_singleton rest edge ih =>
    obtain ⟨earlier, last⟩ := forall_mem_append.mp present
    rw [foldl_append]
    refine forall_mem_append.mpr ⟨fun other member => ?_, forall_mem_singleton.mpr ?_⟩
    · exact recordOutput_keeps (ih earlier other member)
    · exact recordOutput_adds (last edge mem_cons_self)

variable {contracts : List (String × ConnectionContract)} {contract : ConnectionContract}

section Contracts

variable {State : Type} {negotiator : Negotiator State}

def Contracted (contracts : List (String × ConnectionContract)) (id : String) : Prop :=
  (find id contracts).isSome = true

theorem find_assignEach :
    find id (edges.foldl (fun contracts edge => assign edge.id contract contracts) contracts) =
      if id ∈ edges.map EdgeSpec.id then some contract else find id contracts := by
  induction edges generalizing contracts with
  | nil => rfl
  | cons edge rest ih =>
    rw [foldl_cons, ih, find_assign, map_cons]
    by_cases later : id ∈ rest.map EdgeSpec.id
    · rw [if_pos later, if_pos (mem_cons_of_mem _ later)]
    · by_cases here : id = edge.id
      · subst here
        rw [if_neg later, if_pos rfl, if_pos mem_cons_self]
      · have absent : id ∉ edge.id :: rest.map EdgeSpec.id := by simp [here, later]
        rw [if_neg later, if_neg here, if_neg absent]

variable {scan : NegotiationScan State}

theorem negotiateStep_clean {entry : String × OutputUse}
    (clean : (negotiateStep negotiator infos scan entry).issues = []) :
    scan.issues = [] ∧ ∀ id, (∃ edge ∈ entry.2.consumers, edge.id = id) ∨
      Contracted scan.edgeContracts id →
        Contracted (negotiateStep negotiator infos scan entry).edgeContracts id := by
  unfold negotiateStep at clean ⊢
  split at clean
  · simp at clean
  · refine ⟨clean, fun id known => ?_⟩
    rw [Contracted, find_assignEach]
    split
    · rfl
    · next absent => exact known.resolve_left fun listed => absent (mem_map.mpr listed)

theorem negotiate_contracted
    (clean : (outputs.foldl (negotiateStep negotiator infos) scan).issues = []) :
    ∀ entry ∈ outputs, ∀ edge ∈ entry.2.consumers,
      Contracted (outputs.foldl (negotiateStep negotiator infos) scan).edgeContracts edge.id := by
  induction outputs using reverseRecOn with
  | nil =>
    intro entry member
    cases member
  | append_singleton rest entry ih =>
    rw [foldl_append] at clean ⊢
    obtain ⟨earlier, step⟩ := negotiateStep_clean clean
    refine forall_mem_append.mpr ⟨fun other member edge consumer => ?_,
      forall_mem_singleton.mpr fun edge consumer => ?_⟩
    · exact step edge.id (.inr (ih earlier other member edge consumer))
    · exact step edge.id (.inl ⟨edge, consumer, rfl⟩)

end Contracts

/-! The topological order. A node becomes ready when its last open edge is
released, which happens once, so no node is taken twice. -/

variable {spec : GraphSpec} {pending : List String}

section Kahn

variable {ids : List String} {state : KahnState}

/-- The edges into a node whose source has not been taken, and those among the
targets still to be released. -/
def openEdges (edges : List EdgeSpec) (order : List String) (id : String) : Nat :=
  (edges.filter fun edge => edge.toPort.nodeId = id && !decide (edge.fromPort.nodeId ∈ order)).length

structure Sorted (ids : List String) (edges : List EdgeSpec) (pending : List String)
    (state : KahnState) : Prop where
  distinct : (state.order ++ state.ready).Nodup
  known : ∀ id ∈ state.order ++ state.ready, id ∈ ids
  counts : ∀ id, state.indegree id = openEdges edges state.order id + pending.count id
  settled : ∀ id ∈ state.order ++ state.ready, state.indegree id = 0

theorem releaseSuccessor_sorted {next : String} (inside : next ∈ ids)
    (sorted : Sorted ids edges (next :: pending) state) :
    Sorted ids edges pending (releaseSuccessor state next) := by
  have positive : 0 < state.indegree next := by
    rw [sorted.counts next, count_cons_self]
    omega
  -- A settled node has no open edge, so `next` is not among them.
  have fresh : next ∉ state.order ++ state.ready := by
    intro member
    have zero := sorted.settled next member
    omega
  have counts : ∀ id, (releaseSuccessor state next).indegree id =
      openEdges edges state.order id + pending.count id := by
    intro id
    have before := sorted.counts id
    by_cases same : id = next
    · subst same
      rw [count_cons_self] at before
      simp only [releaseSuccessor, ↓reduceIte]
      omega
    · rw [count_cons_of_ne (Ne.symm same)] at before
      simp only [releaseSuccessor, same]
      exact before
  have kept : ∀ id ∈ state.order ++ state.ready, (releaseSuccessor state next).indegree id = 0 := by
    intro id member
    have other : id ≠ next := fun same => fresh (same ▸ member)
    simp only [releaseSuccessor, other]
    exact sorted.settled id member
  by_cases last : state.indegree next - 1 = 0
  · have ready : (releaseSuccessor state next).ready = state.ready ++ [next] := by
      simp [releaseSuccessor, last]
    constructor
    · rw [ready, ← append_assoc, nodup_append]
      refine ⟨sorted.distinct, nodup_singleton next, ?_⟩
      rintro id member _ atEnd rfl
      exact fresh (mem_singleton.mp atEnd ▸ member)
    · rw [ready, ← append_assoc]
      exact forall_mem_append.mpr ⟨sorted.known, forall_mem_singleton.mpr inside⟩
    · exact counts
    · rw [ready, ← append_assoc]
      refine forall_mem_append.mpr ⟨kept, forall_mem_singleton.mpr ?_⟩
      simpa [releaseSuccessor] using last
  · have ready : (releaseSuccessor state next).ready = state.ready := by
      simp [releaseSuccessor, last]
    exact ⟨ready ▸ sorted.distinct, ready ▸ sorted.known, counts, ready ▸ kept⟩

theorem releaseAll_sorted (inside : ∀ next ∈ pending, next ∈ ids)
    (sorted : Sorted ids edges pending state) :
    Sorted ids edges [] (pending.foldl releaseSuccessor state) := by
  induction pending generalizing state with
  | nil => exact sorted
  | cons next rest ih =>
    rw [forall_mem_cons] at inside
    exact ih inside.2 (releaseSuccessor_sorted inside.1 sorted)

theorem openEdges_take (order : List String) (taken id : String) (fresh : taken ∉ order) :
    openEdges edges order id = openEdges edges (order ++ [taken]) id +
      (((edges.filter fun edge => edge.fromPort.nodeId = taken).map
        fun edge => edge.toPort.nodeId).count id) := by
  induction edges with
  | nil => rfl
  | cons edge rest ih =>
    unfold openEdges at ih ⊢
    by_cases source : edge.fromPort.nodeId = taken
    · by_cases target : edge.toPort.nodeId = id
      · simp only [filter_cons, target, source, fresh, decide_true, decide_false,
          Bool.not_false, Bool.and_true, ↓reduceIte, mem_append, mem_singleton,
          or_true, Bool.not_true, Bool.and_false, Bool.false_eq_true, length_cons,
          map_cons, count_cons_self, ih]
        omega
      · simp [source, target, ih]
    · by_cases target : edge.toPort.nodeId = id
      · by_cases before : edge.fromPort.nodeId ∈ order
        · simp [source, before, ih]
        · simp only [filter_cons, target, source, before, decide_true, decide_false,
            Bool.not_false, Bool.and_true, ↓reduceIte, mem_append, mem_singleton,
            or_false, Bool.false_eq_true, length_cons, ih]
          omega
      · simp [source, target, ih]

theorem kahnStep_sorted (targets : ∀ edge ∈ edges, edge.toPort.nodeId ∈ ids)
    (ready : id ∈ state.ready) (sorted : Sorted ids edges [] state) :
    Sorted ids edges [] (kahnStep edges state id) := by
  have perm : (state.order ++ [id] ++ state.ready.erase id).Perm (state.order ++ state.ready) := by
    rw [append_assoc]
    exact (perm_cons_erase ready).symm.append_left state.order
  have fresh : id ∉ state.order := by
    intro member
    exact (nodup_append.mp sorted.distinct).2.2 id member id ready rfl
  apply releaseAll_sorted
  · intro next member
    obtain ⟨edge, inside, rfl⟩ := mem_map.mp member
    exact targets edge (mem_filter.mp inside).1
  · constructor
    · exact perm.nodup_iff.mpr sorted.distinct
    · exact fun other member => sorted.known other (perm.mem_iff.mp member)
    · intro other
      rw [sorted.counts other, openEdges_take state.order id other fresh, count_nil, Nat.add_zero]
    · exact fun other member => sorted.settled other (perm.mem_iff.mp member)

theorem firstReady_mem {ready : List String} (first : firstReady infos ready = some id) :
    id ∈ ready := by
  induction ready generalizing id with
  | nil => cases first
  | cons head rest ih =>
    unfold firstReady at first
    split at first
    · cases first
      exact mem_cons_self
    rename_i other found
    cases first
    split
    · exact mem_cons_of_mem head (ih found)
    · exact mem_cons_self

theorem kahnLoop_sorted (targets : ∀ edge ∈ edges, edge.toPort.nodeId ∈ ids) (fuel : Nat)
    (sorted : Sorted ids edges [] state) :
    Sorted ids edges [] (kahnLoop infos edges fuel state) := by
  induction fuel generalizing state with
  | zero => exact sorted
  | succ fuel ih =>
    unfold kahnLoop
    split
    · exact sorted
    · next id first => exact ih (kahnStep_sorted targets (firstReady_mem first) sorted)

def kahnStart (infos : List NodeInfo) (spec : GraphSpec) : KahnState where
  ready := spec.nodeIds.filter fun id =>
    ((forwardEdges infos spec).filter fun edge => edge.toPort.nodeId = id).length = 0
  indegree := fun id =>
    ((forwardEdges infos spec).filter fun edge => edge.toPort.nodeId = id).length

theorem kahnStart_sorted (distinct : spec.nodeIds.Nodup) :
    Sorted spec.nodeIds (forwardEdges infos spec) [] (kahnStart infos spec) := by
  constructor
  · exact distinct.filter _
  · exact fun id member => (mem_filter.mp member).1
  · intro id
    simp [kahnStart, openEdges]
  · intro id member
    simpa [kahnStart] using (mem_filter.mp member).2

theorem forward_targets (known : ∀ id, (findInfo infos id).isSome = true → id ∈ spec.nodeIds) :
    ∀ edge ∈ forwardEdges infos spec, edge.toPort.nodeId ∈ spec.nodeIds := by
  intro edge member
  have kept := (mem_filter.mp member).2
  simp only [Bool.and_eq_true] at kept
  exact known _ kept.2

theorem kahn_perm (distinct : spec.nodeIds.Nodup)
    (known : ∀ id, (findInfo infos id).isSome = true → id ∈ spec.nodeIds)
    (complete : (kahn infos spec).order.length = spec.nodes.length) :
    (kahn infos spec).order.Perm spec.nodeIds := by
  have sorted : Sorted spec.nodeIds (forwardEdges infos spec) [] (kahn infos spec) :=
    kahnLoop_sorted (forward_targets known) spec.nodes.length (kahnStart_sorted distinct)
  have orderDistinct := (nodup_append.mp sorted.distinct).1
  have subperm : (kahn infos spec).order.Subperm spec.nodeIds :=
    subperm_of_subset orderDistinct fun id member =>
      sorted.known id (mem_append_left _ member)
  refine subperm.perm_of_length_le ?_
  rw [complete, GraphSpec.nodeIds, length_map]

end Kahn

/-- What the rest of the engine relies on after a successful validation. -/
structure Accepted (resolver : CapabilityResolver) (spec : GraphSpec) (out : ValidatedGraph) :
    Prop where
  nodeIdsDistinct : spec.nodeIds.Nodup
  described : ∀ node ∈ spec.nodes, (resolver node.op).isSome = true
  edgeIdsDistinct : spec.edgeIds.Nodup
  fromKnown : ∀ edge ∈ spec.edges, edge.fromPort.nodeId ∈ spec.nodeIds
  toKnown : ∀ edge ∈ spec.edges, edge.toPort.nodeId ∈ spec.nodeIds
  contracted : ∀ edge ∈ spec.edges, (find edge.id out.edgeContracts).isSome = true
  ordered : out.topologicalOrder.Perm spec.nodeIds

theorem scanNodes_listed (clean : (scanNodes resolver spec).issues = []) :
    (scanNodes resolver spec).infos =
      spec.nodes.zipIdx.map fun entry => ⟨entry.1, resolver entry.1.op, entry.2⟩ :=
  (scanNodes_clean (by simp) clean).1

theorem scanNodes_infos (clean : (scanNodes resolver spec).issues = []) :
    ((scanNodes resolver spec).infos.map fun info => info.spec.id) = spec.nodeIds ∧
      spec.nodeIds.Nodup ∧ (∀ node ∈ spec.nodes, (resolver node.op).isSome = true) ∧
      ∀ info ∈ (scanNodes resolver spec).infos, info.cap.isSome = true := by
  obtain ⟨-, described, distinct⟩ := scanNodes_clean (by simp) clean
  have listed := scanNodes_listed clean
  have ids : ((scanNodes resolver spec).infos.map fun info => info.spec.id) = spec.nodeIds := by
    rw [listed, map_map, GraphSpec.nodeIds]
    nth_rewrite 2 [← zipIdx_map_fst 0 spec.nodes]
    rw [map_map]
    rfl
  refine ⟨ids, ids ▸ distinct, ?_, ?_⟩
  · intro node member
    rw [← zipIdx_map_fst 0 spec.nodes] at member
    obtain ⟨entry, inside, rfl⟩ := mem_map.mp member
    exact described entry inside
  · intro info member
    rw [listed] at member
    obtain ⟨entry, inside, rfl⟩ := mem_map.mp member
    exact described entry inside

theorem validate_accepted {State : Type} {negotiator : Negotiator State} {start : State}
    {out : ValidatedGraph} (accepted : validate negotiator resolver start spec = .ok out) :
    Accepted resolver spec out := by
  unfold validate at accepted
  split at accepted
  · cases accepted
  rename_i clean
  dsimp only at accepted
  split at accepted
  · cases accepted
  rename_i negotiated
  cases accepted
  simp only [structuralIssues, append_eq_nil_iff] at clean
  obtain ⟨⟨edgesClean, -⟩, acyclic⟩ := clean
  obtain ⟨ids, nodesDistinct, described, resolved⟩ := scanNodes_infos (scanEdges_start edgesClean)
  obtain ⟨checked, -, edgesDistinct⟩ := scanEdges_clean resolved edgesClean
  refine ⟨nodesDistinct, described, edgesDistinct, ?_, ?_, ?_, ?_⟩
  · intro edge member
    rw [← ids]
    exact findInfo_isSome.mp (checked edge member).1
  · intro edge member
    rw [← ids]
    exact findInfo_isSome.mp (checked edge member).2.1
  · intro edge member
    have recorded : Recorded (spec.edges.foldl
        (scanEdge (scanNodes resolver spec).infos) {}).outputs edge :=
      scanEdges_recorded (fun edge member => (checked edge member).2.2.1) edge member
    obtain ⟨use, found, consumer⟩ := recorded
    exact negotiate_contracted negotiated _ (mem_of_find found) edge consumer
  · refine kahn_perm nodesDistinct ?_ (not_not.mp (when_nil.mp acyclic))
    intro id known
    rw [← ids]
    exact findInfo_isSome.mp known

end GraphEngine.Validation
