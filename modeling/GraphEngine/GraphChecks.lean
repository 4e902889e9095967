import GraphEngine.Capabilities

/-!
The two structural queries of `GraphValidator` that the mutation actions use:
the edges a selection shares with the rest of the graph, and the boundary of a
linear chain. Both read a graph specification only.
-/

namespace GraphEngine.GraphChecks

open Values GraphSpecs Fallible

structure SharedDependency where
  nodeId : String
  edgeId : String
  externalNode : String
  deriving DecidableEq

def SharedDependency.toJson (dependency : SharedDependency) : JsonValue :=
  .object [("edge", .string dependency.edgeId),
    ("external_node", .string dependency.externalNode), ("node", .string dependency.nodeId)]

def findSharedDependencies (spec : GraphSpec) (selection entryEdges : List String) :
    List SharedDependency :=
  spec.edges.filterMap fun edge =>
    let fromIn := decide (edge.fromPort.nodeId ∈ selection)
    let toIn := decide (edge.toPort.nodeId ∈ selection)
    if edge.id ∈ entryEdges then none
    else if fromIn = toIn then none
    else some {
      nodeId := if fromIn then edge.fromPort.nodeId else edge.toPort.nodeId
      edgeId := edge.id
      externalNode := if fromIn then edge.toPort.nodeId else edge.fromPort.nodeId }

structure ChainBoundary where
  inboundEdge : String := ""
  outboundEdge : String := ""
  deriving DecidableEq

def chainMembers (spec : GraphSpec) (chain : List String) : Result (List String) :=
  chain.foldlM (fun members id =>
    if (spec.findNode id).isNone then .error (.notFound s!"chain node '{id}' not found")
    else if id ∈ members then .error (.graphInvalid s!"chain repeats node '{id}'")
    else .ok (members ++ [id])) []

def countLinks (spec : GraphSpec) (source target : String) : Nat :=
  (spec.edges.filter fun edge =>
    edge.fromPort.nodeId = source ∧ edge.toPort.nodeId = target).length

def checkLinks (spec : GraphSpec) (chain : List String) : Result Unit :=
  (chain.zip chain.tail).foldlM (fun _ pair =>
    if countLinks spec pair.1 pair.2 ≠ 1 then
      .error (.graphInvalid
        (s!"chain nodes '{pair.1}' and '{pair.2}' must be connected by exactly one edge, found "
          ++ toString (countLinks spec pair.1 pair.2)))
    else .ok ()) ()

structure ChainScan where
  boundary : ChainBoundary := {}
  shared : List SharedDependency := []

def scanEdge (chain members : List String) (scan : ChainScan) (edge : EdgeSpec) :
    Result ChainScan :=
  let source := edge.fromPort.nodeId
  let target := edge.toPort.nodeId
  if source ∈ members ∧ target ∈ members then
    if chain.idxOf target ≠ chain.idxOf source + 1 then
      .error (.graphInvalid s!"edge '{edge.id}' makes the chain non-linear")
    else .ok scan
  else if source ∉ members ∧ target ∈ members then
    if chain.head? = some target ∧ scan.boundary.inboundEdge = "" then
      .ok { scan with boundary := { scan.boundary with inboundEdge := edge.id } }
    else .ok { scan with shared := scan.shared ++ [⟨target, edge.id, source⟩] }
  else if source ∈ members ∧ target ∉ members then
    if chain.getLast? = some source ∧ scan.boundary.outboundEdge = "" then
      .ok { scan with boundary := { scan.boundary with outboundEdge := edge.id } }
    else .ok { scan with shared := scan.shared ++ [⟨source, edge.id, target⟩] }
  else .ok scan

def checkLinearChain (spec : GraphSpec) (chain : List String) : Result ChainBoundary := do
  if chain = [] then
    .error (.graphInvalid "chain is empty")
  else
    let members ← chainMembers spec chain
    checkLinks spec chain
    let scan ← spec.edges.foldlM (scanEdge chain members) {}
    if scan.shared ≠ [] then
      .error (.sharedDependency
        "chain has external dependencies beyond one input and one output"
        (some (.object [("dependencies", .array (scan.shared.map SharedDependency.toJson))])))
    else if scan.boundary.inboundEdge = "" ∨ scan.boundary.outboundEdge = "" then
      .error (.graphInvalid "chain must have exactly one inbound and one outbound edge")
    else .ok scan.boundary

structure ScanKnown (spec : GraphSpec) (members : List String) (scan : ChainScan) : Prop where
  inbound : scan.boundary.inboundEdge = "" ∨ ∃ edge ∈ spec.edges,
    edge.id = scan.boundary.inboundEdge ∧ edge.toPort.nodeId ∈ members
  outbound : scan.boundary.outboundEdge = "" ∨ ∃ edge ∈ spec.edges,
    edge.id = scan.boundary.outboundEdge ∧ edge.fromPort.nodeId ∈ members

variable {spec : GraphSpec} {members : List String}

theorem scanEdge_known {chain : List String} {edge : EdgeSpec} {scan after : ChainScan}
    (member : edge ∈ spec.edges) (done : scanEdge chain members scan edge = .ok after)
    (known : ScanKnown spec members scan) : ScanKnown spec members after := by
  unfold scanEdge at done
  dsimp only at done
  split at done
  · obtain ⟨-, same⟩ := guard_ok.mp done
    cases same
    exact known
  split at done
  · next entering =>
      split at done <;> cases done
      · exact ⟨.inr ⟨edge, member, rfl, entering.2⟩, known.outbound⟩
      · exact ⟨known.inbound, known.outbound⟩
  · split at done
    · next leaving =>
        split at done <;> cases done
        · exact ⟨known.inbound, .inr ⟨edge, member, rfl, leaving.1⟩⟩
        · exact ⟨known.inbound, known.outbound⟩
    · cases done
      exact known

theorem chainMembers_same {chain : List String} (accepted : chainMembers spec chain = .ok members) :
    members = chain := by
  have grows : ∀ (rest seen found : List String),
      rest.foldlM (fun members id =>
        if (spec.findNode id).isNone then
          (.error (.notFound s!"chain node '{id}' not found") : Result (List String))
        else if id ∈ members then .error (.graphInvalid s!"chain repeats node '{id}'")
        else .ok (members ++ [id])) seen = .ok found → found = seen ++ rest := by
    intro rest
    induction rest with
    | nil =>
      intro seen found done
      simpa using (foldlM_nil_ok.mp done).symm
    | cons id rest ih =>
      intro seen found done
      obtain ⟨middle, first, later⟩ := foldlM_cons_ok.mp done
      simp only [guard_ok, Except.ok.injEq] at first
      obtain ⟨-, -, rfl⟩ := first
      simpa using ih _ found later
  simpa using grows chain [] members accepted

/-- The boundary of an accepted chain consists of edges of the graph at chain
nodes, so looking them up again cannot fail. -/
theorem checkLinearChain_known {chain : List String} {boundary : ChainBoundary}
    (accepted : checkLinearChain spec chain = .ok boundary) :
    (∃ edge ∈ spec.edges, edge.id = boundary.inboundEdge ∧ edge.toPort.nodeId ∈ chain) ∧
      ∃ edge ∈ spec.edges, edge.id = boundary.outboundEdge ∧ edge.fromPort.nodeId ∈ chain := by
  simp only [checkLinearChain, guard_ok, bind_ok, Except.ok.injEq] at accepted
  obtain ⟨-, members, checked, -, -, scan, scanned, -, present, rfl⟩ := accepted
  have known := foldlM_invariant (ScanKnown spec members)
    (fun edge member s t done => scanEdge_known member done)
    scanned ⟨.inl rfl, .inl rfl⟩
  rw [chainMembers_same checked] at known
  rw [not_or] at present
  exact ⟨known.inbound.resolve_left present.1, known.outbound.resolve_left present.2⟩

end GraphEngine.GraphChecks
