import Mathlib.Logic.Relation
import GraphEngine.Validation

/-!
What a successful validation says about every port. The validator keeps one entry
for each rendered name "node.port"; the entry of a port holds the edges of exactly
that port as long as no two ports render alike.
-/

namespace GraphEngine.ValidatedContracts

open Values GraphSpecs Capabilities KeyedLists OrderedMaps Fallible Validation Option
open List hiding Disjoint keys lookup

section Ports

variable (resolver : CapabilityResolver) (spec : GraphSpec)

def nodeCap (id : String) : Option CapabilityDescriptor :=
  (spec.findNode id).bind fun node => resolver node.op

def outputAt (ref : PortRef) : Option PortCapability :=
  (nodeCap resolver spec ref.nodeId).bind fun cap => cap.findOutput ref.port

def inputAt (ref : PortRef) : Option PortCapability :=
  (nodeCap resolver spec ref.nodeId).bind fun cap => cap.findInput ref.port

def leaving (ref : PortRef) : List EdgeSpec := spec.edges.filter fun edge => edge.fromPort = ref

def entering (ref : PortRef) : List EdgeSpec := spec.edges.filter fun edge => edge.toPort = ref

def Forward (source target : String) : Prop :=
  ∃ edge ∈ spec.edges, edge.feedback = false ∧ edge.fromPort.nodeId = source ∧
    edge.toPort.nodeId = target

/-- No edge is at a port that renders like another declared port of its direction. -/
structure Apart : Prop where
  outputs : ∀ ref, (outputAt resolver spec ref).isSome = true → ∀ edge ∈ spec.edges,
    edge.fromPort.render = ref.render → edge.fromPort = ref
  inputs : ∀ ref, (inputAt resolver spec ref).isSome = true → ∀ edge ∈ spec.edges,
    edge.toPort.render = ref.render → edge.toPort = ref

variable (negotiator : Negotiator State)

def sideAt (ref : PortRef) (edgeSync : Option SyncPolicy) (port : Option PortCapability) :
    Option PortUse := do
  let node ← spec.findNode ref.nodeId
  let cap ← resolver node.op
  let port ← port
  some ⟨ref.nodeId, node.op, negotiator.version cap, port, edgeSync⟩

def negotiate (source : PortUse) (targets : List PortUse) (state : State) :
    Result ConnectionContract × State :=
  match targets with
  | [target] => negotiator.negotiateEdge source target state
  | targets => negotiator.negotiateFanout source targets state

/-- The contract is what negotiating an output port with the input ports of all
edges that leave it came to. -/
def Negotiated (ref : PortRef) (contract : ConnectionContract) : Prop :=
  ∃ source targets state,
    sideAt resolver spec negotiator ref none (outputAt resolver spec ref) = some source ∧
    (leaving spec ref).map (fun edge => sideAt resolver spec negotiator edge.toPort edge.sync
      (inputAt resolver spec edge.toPort)) = targets.map some ∧
    (negotiate negotiator source targets state).1 = .ok contract

/-- The tables of step 2, from which counts are read and ports are negotiated. -/
def edgeTables : EdgeScan := spec.edges.foldl (scanEdge (scanNodes resolver spec).infos) {}

structure Exact (out : ValidatedGraph) : Prop where
  contracts : ∀ edge ∈ spec.edges, ∃ contract, find edge.id out.edgeContracts = some contract ∧
    Negotiated resolver spec negotiator edge.fromPort contract
  outputContracts : ∀ edge ∈ spec.edges, ∃ contract,
    find edge.fromPort.render out.outputContracts = some contract ∧
    Negotiated resolver spec negotiator edge.fromPort contract
  outputCounts : ∀ ref, (outputAt resolver spec ref).isSome = true →
    (find ref.render (edgeTables resolver spec).outputs).elim [] OutputUse.consumers =
      leaving spec ref
  inputCounts : ∀ ref, (inputAt resolver spec ref).isSome = true →
    (find ref.render (edgeTables resolver spec).inputs).getD [] = entering spec ref
  requiredInputs : ∀ node ∈ spec.nodes, ∀ cap, resolver node.op = some cap →
    ∀ port ∈ cap.inputs, port.required = true → entering spec ⟨node.id, port.name⟩ ≠ []
  singleInputs : ∀ node ∈ spec.nodes, ∀ cap, resolver node.op = some cap →
    ∀ port ∈ cap.inputs, port.cardinality = .single →
      (entering spec ⟨node.id, port.name⟩).length ≤ 1
  singleOutputs : ∀ node ∈ spec.nodes, ∀ cap, resolver node.op = some cap →
    ∀ port ∈ cap.outputs, port.cardinality = .single →
      (leaving spec ⟨node.id, port.name⟩).length ≤ 1
  acyclic : ∀ id, ¬ Relation.TransGen (Forward spec) id id

end Ports

/-! The tables hold the edges of each rendered name, in declaration order. -/

variable {outputs : List (String × OutputUse)} {seen : List EdgeSpec}
  {issues : List ValidationIssue} {State : Type} {edge : EdgeSpec}

section Tables

variable {infos : List NodeInfo}

def OutputsListed (infos : List NodeInfo) (edges : List EdgeSpec)
    (outputs : List (String × OutputUse)) : Prop :=
  ∀ key, (find key outputs).elim [] OutputUse.consumers =
      edges.filter (fun edge => edge.fromPort.render = key) ∧
    ∀ use, find key outputs = some use → ∃ edge ∈ use.consumers, outPort infos edge = some use.port

def InputsListed (edges : List EdgeSpec) (inputs : List (String × List EdgeSpec)) : Prop :=
  ∀ key, (find key inputs).getD [] = edges.filter fun edge => edge.toPort.render = key

theorem recordOutput_listed (listed : OutputsListed infos seen outputs)
    (present : (outPort infos edge).isSome = true) :
    OutputsListed infos (seen ++ [edge]) (recordOutput edge outputs (outPort infos edge)) := by
  obtain ⟨port, found⟩ := isSome_iff_exists.mp present
  intro key
  rw [found, filter_append]
  simp only [recordOutput, find_assign]
  by_cases same : key = edge.fromPort.render
  · subst same
    simp only [if_true, Option.some.injEq]
    refine ⟨by simp [(listed edge.fromPort.render).1], ?_⟩
    rintro use rfl
    exact ⟨edge, by simp, found⟩
  · have other : edge.fromPort.render ≠ key := Ne.symm same
    simp only [same, filter_cons, other]
    simpa using listed key

theorem recordInput_listed {inputs : List (String × List EdgeSpec)}
    (listed : InputsListed seen inputs) (present : (inPort infos edge).isSome = true) :
    InputsListed (seen ++ [edge]) (recordInput edge inputs (inPort infos edge)) := by
  obtain ⟨port, found⟩ := isSome_iff_exists.mp present
  intro key
  rw [found]
  simp only [recordInput, find_assign]
  by_cases same : key = edge.toPort.render
  · subst same
    simp [listed edge.toPort.render]
  · have other : edge.toPort.render ≠ key := Ne.symm same
    simpa [same, other] using listed key

theorem recordOutput_ordered {port : Option PortCapability} (ordered : Ordered outputs) :
    Ordered (recordOutput edge outputs port) := by
  cases port with
  | none => exact ordered
  | some port => exact assign_ordered ordered

variable {edges : List EdgeSpec}

theorem scanEdges_ordered {scan : EdgeScan} (ordered : Ordered scan.outputs) :
    Ordered (edges.foldl (scanEdge infos) scan).outputs := by
  exact foldlRecOn (motive := fun scan : EdgeScan => Ordered scan.outputs) edges _ ordered
    fun _ kept _ _ => recordOutput_ordered kept

theorem scanned_outputs (present : ∀ edge ∈ edges, (outPort infos edge).isSome = true) :
    OutputsListed infos edges (edges.foldl (scanEdge infos) { issues := issues }).outputs := by
  induction edges using reverseRecOn with
  | nil =>
    intro key
    refine ⟨rfl, ?_⟩
    intro use found
    cases found
  | append_singleton rest edge ih =>
    obtain ⟨earlier, last⟩ := forall_mem_append.mp present
    rw [foldl_append]
    exact recordOutput_listed (ih earlier) (last edge mem_cons_self)

theorem scanned_inputs (present : ∀ edge ∈ edges, (inPort infos edge).isSome = true) :
    InputsListed edges (edges.foldl (scanEdge infos) { issues := issues }).inputs := by
  induction edges using reverseRecOn with
  | nil => exact fun key => rfl
  | append_singleton rest edge ih =>
    obtain ⟨earlier, last⟩ := forall_mem_append.mp present
    rw [foldl_append]
    exact recordInput_listed (ih earlier) (last edge mem_cons_self)

end Tables

/-! Each entry of the output table is negotiated once, and no later entry touches
the contracts of its edges. -/

variable {id : String}

section Negotiation

variable {negotiator : Negotiator State} {infos : List NodeInfo} {scan : NegotiationScan State}

theorem negotiateStep_ok {entry : String × OutputUse}
    (clean : (negotiateStep negotiator infos scan entry).issues = []) :
    ∃ contract, (negotiateOutput negotiator infos entry.2 scan.state).1 = .ok contract ∧
      (∀ id, find id (negotiateStep negotiator infos scan entry).edgeContracts =
        if id ∈ entry.2.consumers.map EdgeSpec.id then some contract
        else find id scan.edgeContracts) ∧
      ∀ key, find key (negotiateStep negotiator infos scan entry).outputContracts =
        if key = entry.1 then some contract else find key scan.outputContracts := by
  unfold negotiateStep at clean ⊢
  split at clean
  · simp at clean
  rename_i contract state done
  refine ⟨contract, by rw [done], ?_, ?_⟩
  · intro id
    exact find_assignEach
  · intro key
    exact find_assign _ _ _ _

def Disjoint (outputs : List (String × OutputUse)) : Prop :=
  ∀ entry ∈ outputs, ∀ other ∈ outputs, ∀ id, id ∈ entry.2.consumers.map EdgeSpec.id →
    id ∈ other.2.consumers.map EdgeSpec.id → entry.1 = other.1

theorem negotiate_finds (clean : (outputs.foldl (negotiateStep negotiator infos) scan).issues = [])
    (ordered : Ordered outputs) (disjoint : Disjoint outputs) {key : String} {use : OutputUse}
    (member : (key, use) ∈ outputs) (consumer : id ∈ use.consumers.map EdgeSpec.id) :
    ∃ contract state, (negotiateOutput negotiator infos use state).1 = .ok contract ∧
      find id (outputs.foldl (negotiateStep negotiator infos) scan).edgeContracts = some contract ∧
      find key (outputs.foldl (negotiateStep negotiator infos) scan).outputContracts =
        some contract := by
  induction outputs using reverseRecOn with
  | nil => cases member
  | append_singleton rest entry ih =>
    rw [foldl_append] at clean ⊢
    rw [foldl_cons, foldl_nil] at clean ⊢
    obtain ⟨contract, done, edges, ports⟩ := negotiateStep_ok clean
    rw [edges id, ports key]
    rw [Ordered, keys, map_append, pairwise_append] at ordered
    rcases mem_append.mp member with earlier | last
    · have other : key ≠ entry.1 :=
        (ordered.2.2 key (mem_map_of_mem earlier) entry.1 (by simp)).ne
      have apart : id ∉ entry.2.consumers.map EdgeSpec.id := fun shared =>
        other (disjoint (key, use) member entry (by simp) id consumer shared)
      rw [if_neg apart, if_neg other]
      refine ih (negotiateStep_clean clean).1 ordered.1 ?_ earlier
      intro left leftIn right rightIn
      exact disjoint left (mem_append_left _ leftIn) right (mem_append_left _ rightIn)
    · cases mem_singleton.mp last
      exact ⟨contract, _, done, if_pos consumer, if_pos rfl⟩

end Negotiation

/-! A clean scan: the node table answers as the graph and the resolver do. -/

section Clean

variable {resolver : CapabilityResolver} {spec : GraphSpec}
  (clean : (scanNodes resolver spec).issues = [])

include clean

theorem findInfo_eq (id : String) :
    (findInfo (scanNodes resolver spec).infos id).map (fun info => (info.spec, info.cap)) =
      (spec.findNode id).map fun node => (node, resolver node.op) := by
  have nodes : spec.nodes = spec.nodes.zipIdx.map Prod.fst := (zipIdx_map_fst 0 _).symm
  rw [scanNodes_listed clean, findInfo, GraphSpec.findNode, lookup, lookup]
  nth_rewrite 2 [nodes]
  rw [find?_map, find?_map, Option.map_map, Option.map_map]
  rfl

theorem endpointCap_eq (id : String) :
    endpointCap (scanNodes resolver spec).infos id = nodeCap resolver spec id := by
  have same := findInfo_eq clean id
  unfold endpointCap nodeCap
  cases found : spec.findNode id with
  | none =>
    rw [found, map_none, map_eq_none_iff] at same
    rw [same]
    rfl
  | some node =>
    rw [found, map_some, map_eq_some_iff] at same
    obtain ⟨info, known, pair⟩ := same
    rw [known]
    exact (Prod.mk.inj pair).2

theorem outPort_eq (edge : EdgeSpec) :
    outPort (scanNodes resolver spec).infos edge = outputAt resolver spec edge.fromPort := by
  rw [outPort, endpointCap_eq clean]
  rfl

theorem inPort_eq (edge : EdgeSpec) :
    inPort (scanNodes resolver spec).infos edge = inputAt resolver spec edge.toPort := by
  rw [inPort, endpointCap_eq clean]
  rfl

theorem portUse_eq (negotiator : Negotiator State) (ref : PortRef) (edgeSync : Option SyncPolicy)
    (port : Option PortCapability) :
    portUse negotiator (scanNodes resolver spec).infos ref.nodeId edgeSync port =
      sideAt resolver spec negotiator ref edgeSync port := by
  have same := findInfo_eq clean ref.nodeId
  unfold portUse sideAt
  cases found : spec.findNode ref.nodeId with
  | none =>
    rw [found, map_none, map_eq_none_iff] at same
    rw [same]
    rfl
  | some node =>
    rw [found, map_some, map_eq_some_iff] at same
    obtain ⟨info, known, pair⟩ := same
    obtain ⟨specs, caps⟩ := Prod.mk.inj pair
    subst specs
    cases port with
    | none =>
      simp
    | some port =>
      rw [known]
      cases described : resolver info.spec.op <;> simp [caps, described]

end Clean

/-! The order of step 4: the sources of the edges into a node come before it. -/

variable {order : List String}

section Order

variable {ids : List String} {edges : List EdgeSpec} {state : KahnState}

def SourcesFirst (edges : List EdgeSpec) (order : List String) : Prop :=
  ∀ before id after, order = before ++ id :: after →
    ∀ edge ∈ edges, edge.toPort.nodeId = id → edge.fromPort.nodeId ∈ before

theorem sourcesFirst_append (first : SourcesFirst edges order)
    (taken : ∀ edge ∈ edges, edge.toPort.nodeId = id → edge.fromPort.nodeId ∈ order) :
    SourcesFirst edges (order ++ [id]) := by
  intro before other after split edge member target
  rcases append_eq_append_iff.mp split with ⟨middle, rfl, rest⟩ | ⟨middle, rfl, rest⟩
  · -- The node found is the one that was just taken.
    cases middle with
    | nil =>
      simp only [nil_append, cons.injEq] at rest
      rw [append_nil]
      exact taken edge member (target.trans rest.1.symm)
    | cons head tail =>
      simp at rest
  · cases middle with
    | nil =>
      simp only [nil_append, cons.injEq] at rest
      have last := taken edge member (target.trans rest.1)
      rwa [append_nil] at last
    | cons head tail =>
      simp only [cons_append, cons.injEq] at rest
      exact first before head tail rfl edge member (target.trans rest.1)

theorem order_releaseAll {pending : List String} :
    (pending.foldl releaseSuccessor state).order = state.order := by
  induction pending generalizing state with
  | nil => rfl
  | cons next rest ih => exact ih

theorem sources_taken (sorted : Sorted ids edges [] state) (ready : id ∈ state.ready) :
    ∀ edge ∈ edges, edge.toPort.nodeId = id → edge.fromPort.nodeId ∈ state.order := by
  intro edge member target
  have closed := sorted.settled id (mem_append_right _ ready)
  rw [sorted.counts id, count_nil, Nat.add_zero, openEdges, length_eq_zero_iff,
    filter_eq_nil_iff] at closed
  simpa [target] using closed edge member

theorem kahnLoop_sourcesFirst {infos : List NodeInfo}
    (targets : ∀ edge ∈ edges, edge.toPort.nodeId ∈ ids) (fuel : Nat)
    (sorted : Sorted ids edges [] state) (first : SourcesFirst edges state.order) :
    SourcesFirst edges (kahnLoop infos edges fuel state).order := by
  induction fuel generalizing state with
  | zero => exact first
  | succ fuel ih =>
    unfold kahnLoop
    split
    · exact first
    rename_i id found
    have ready := firstReady_mem found
    refine ih (kahnStep_sorted targets ready sorted) ?_
    rw [kahnStep, order_releaseAll]
    exact sourcesFirst_append first (sources_taken sorted ready)

theorem position_lt (first : SourcesFirst edges order) (member : edge ∈ edges)
    (listed : edge.toPort.nodeId ∈ order) :
    order.idxOf edge.fromPort.nodeId < order.idxOf edge.toPort.nodeId := by
  obtain ⟨before, after, split, fresh⟩ := eq_append_cons_of_mem listed
  have earlier := first before _ after split edge member rfl
  have target : order.idxOf edge.toPort.nodeId = before.length := by
    rw [split, idxOf_append_of_notMem fresh, idxOf_cons_self, Nat.add_zero]
  have source : order.idxOf edge.fromPort.nodeId < before.length := by
    rw [split, idxOf_append_of_mem earlier]
    exact idxOf_lt_length_of_mem earlier
  rwa [target]

end Order

/-! What every check of the first four steps left behind. -/

variable {ref : PortRef}

section Checked

variable (resolver : CapabilityResolver) (spec : GraphSpec)

structure Checked : Prop where
  nodesClean : (scanNodes resolver spec).issues = []
  outputs : ∀ edge ∈ spec.edges, (outputAt resolver spec edge.fromPort).isSome = true
  inputs : ∀ edge ∈ spec.edges, (inputAt resolver spec edge.toPort).isSome = true
  edgeIds : spec.edgeIds.Nodup
  cardinality : ∀ info ∈ (scanNodes resolver spec).infos, ∃ scan : EdgeScan,
    cardinalityIssues scan info = [] ∧
    OutputsListed (scanNodes resolver spec).infos spec.edges scan.outputs ∧
    InputsListed spec.edges scan.inputs
  complete : (kahn (scanNodes resolver spec).infos spec).order.length = spec.nodes.length

variable {resolver spec}

theorem checked_of_clean (clean : structuralIssues resolver spec = []) : Checked resolver spec := by
  simp only [structuralIssues, append_eq_nil_iff, flatMap_eq_nil_iff] at clean
  obtain ⟨⟨edgesClean, counts⟩, acyclic⟩ := clean
  have nodesClean : (scanNodes resolver spec).issues = [] := scanEdges_start edgesClean
  obtain ⟨-, -, -, resolved⟩ := scanNodes_infos nodesClean
  obtain ⟨checked, -, edgeIds⟩ := scanEdges_clean resolved edgesClean
  have outPorts := fun edge member => (checked edge member).2.2.1
  have inPorts := fun edge member => (checked edge member).2.2.2
  refine ⟨nodesClean, ?_, ?_, edgeIds, ?_, not_not.mp (when_nil.mp acyclic)⟩
  · intro edge member
    rw [← outPort_eq nodesClean]
    exact outPorts edge member
  · intro edge member
    rw [← inPort_eq nodesClean]
    exact inPorts edge member
  · intro info member
    refine ⟨_, counts info member, ?_, ?_⟩
    · exact scanned_outputs outPorts
    · exact scanned_inputs inPorts

variable (checked : Checked resolver spec)

include checked

theorem tables_outputs : OutputsListed (scanNodes resolver spec).infos spec.edges
    (edgeTables resolver spec).outputs := by
  refine scanned_outputs ?_
  intro edge member
  rw [outPort_eq checked.nodesClean]
  exact checked.outputs edge member

theorem tables_inputs : InputsListed spec.edges (edgeTables resolver spec).inputs := by
  refine scanned_inputs ?_
  intro edge member
  rw [inPort_eq checked.nodesClean]
  exact checked.inputs edge member

theorem forward_kept (member : edge ∈ spec.edges) (ahead : edge.feedback = false) :
    edge ∈ forwardEdges (scanNodes resolver spec).infos spec := by
  have known : ∀ {id}, (nodeCap resolver spec id).isSome = true →
      (findInfo (scanNodes resolver spec).infos id).isSome = true := by
    intro id described
    rw [← endpointCap_eq checked.nodesClean] at described
    obtain ⟨info, found, -⟩ := bind_eq_some_iff.mp (isSome_iff_exists.mp described).choose_spec
    rw [found]
    rfl
  have source := checked.outputs edge member
  have target := checked.inputs edge member
  refine mem_filter.mpr ⟨member, ?_⟩
  simp only [ahead, Bool.not_false, Bool.true_and, Bool.and_eq_true]
  exact ⟨known (isSome_of_isSome_bind source), known (isSome_of_isSome_bind target)⟩

theorem forward_acyclic (id : String) : ¬ Relation.TransGen (Forward spec) id id := by
  obtain ⟨ids, distinct, -, -⟩ := scanNodes_infos checked.nodesClean
  have known : ∀ id, (findInfo (scanNodes resolver spec).infos id).isSome = true →
      id ∈ spec.nodeIds := fun id known => ids ▸ findInfo_isSome.mp known
  have perm := kahn_perm distinct known checked.complete
  have first : SourcesFirst (forwardEdges (scanNodes resolver spec).infos spec)
      (kahn (scanNodes resolver spec).infos spec).order := by
    refine kahnLoop_sourcesFirst (forward_targets known) spec.nodes.length
      (kahnStart_sorted distinct) ?_
    intro before other after split
    simp at split
  have step : ∀ source target, Forward spec source target →
      (kahn (scanNodes resolver spec).infos spec).order.idxOf source <
        (kahn (scanNodes resolver spec).infos spec).order.idxOf target := by
    rintro _ _ ⟨edge, member, ahead, rfl, rfl⟩
    have kept := forward_kept checked member ahead
    exact position_lt first kept (perm.mem_iff.mpr (forward_targets known edge kept))
  intro cycle
  have grows := cycle.lift _ step
  rw [Relation.transGen_eq_self] at grows
  exact grows.ne rfl

omit checked in
theorem leaving_render (apart : Apart resolver spec)
    (declared : (outputAt resolver spec ref).isSome = true) :
    (spec.edges.filter fun edge => edge.fromPort.render = ref.render) = leaving spec ref := by
  refine filter_congr fun edge member => ?_
  have same : edge.fromPort.render = ref.render ↔ edge.fromPort = ref :=
    ⟨apart.outputs ref declared edge member, fun equal => by rw [equal]⟩
  simp [same]

omit checked in
theorem entering_render (apart : Apart resolver spec)
    (declared : (inputAt resolver spec ref).isSome = true) :
    (spec.edges.filter fun edge => edge.toPort.render = ref.render) = entering spec ref := by
  refine filter_congr fun edge member => ?_
  have same : edge.toPort.render = ref.render ↔ edge.toPort = ref :=
    ⟨apart.inputs ref declared edge member, fun equal => by rw [equal]⟩
  simp [same]

theorem info_of_node {node : NodeSpec} (member : node ∈ spec.nodes) :
    ∃ info ∈ (scanNodes resolver spec).infos, info.spec = node ∧ info.cap = resolver node.op := by
  rw [← zipIdx_map_fst 0 spec.nodes] at member
  obtain ⟨entry, inside, rfl⟩ := mem_map.mp member
  rw [scanNodes_listed checked.nodesClean]
  exact ⟨_, mem_map.mpr ⟨entry, inside, rfl⟩, rfl, rfl⟩

theorem nodeCap_of_node {node : NodeSpec} (member : node ∈ spec.nodes) :
    nodeCap resolver spec node.id = resolver node.op := by
  obtain ⟨-, distinct, -, -⟩ := scanNodes_infos checked.nodesClean
  have found : spec.findNode node.id = some node := (lookup_eq_some distinct).mpr ⟨member, rfl⟩
  rw [nodeCap, found]
  rfl

section Counts

variable (apart : Apart resolver spec) {node : NodeSpec} (member : node ∈ spec.nodes)
  {cap : CapabilityDescriptor} (described : resolver node.op = some cap) {port : PortCapability}

include apart member described

theorem input_checked (declared : port ∈ cap.inputs) :
    (port.required = true → entering spec ⟨node.id, port.name⟩ ≠ []) ∧
      (port.cardinality = .single → (entering spec ⟨node.id, port.name⟩).length ≤ 1) := by
  obtain ⟨info, listed, rfl, cap_eq⟩ := info_of_node checked member
  obtain ⟨scan, clean, -, inputs⟩ := checked.cardinality info listed
  have known : (inputAt resolver spec ⟨info.spec.id, port.name⟩).isSome = true := by
    rw [inputAt, nodeCap_of_node checked member, described]
    exact lookup_isSome.mpr (mem_map_of_mem declared)
  have counted : (find (info.spec.id ++ "." ++ port.name) scan.inputs).getD [] =
      entering spec ⟨info.spec.id, port.name⟩ :=
    (inputs _).trans (entering_render apart known)
  simp only [cardinalityIssues, cap_eq, described, append_eq_nil_iff, flatMap_eq_nil_iff] at clean
  have ports := clean.1 port declared
  simp only [inputIssues, counted, append_eq_nil_iff, when_nil, not_and] at ports
  refine ⟨?_, ?_⟩
  · intro required empty
    exact ports.1 required (by rw [empty]; rfl)
  · intro single
    exact not_lt.mp (ports.2 single)

theorem output_checked (declared : port ∈ cap.outputs) (single : port.cardinality = .single) :
    (leaving spec ⟨node.id, port.name⟩).length ≤ 1 := by
  obtain ⟨info, listed, rfl, cap_eq⟩ := info_of_node checked member
  obtain ⟨scan, clean, outputs, -⟩ := checked.cardinality info listed
  have known : (outputAt resolver spec ⟨info.spec.id, port.name⟩).isSome = true := by
    rw [outputAt, nodeCap_of_node checked member, described]
    exact lookup_isSome.mpr (mem_map_of_mem declared)
  have counted : (find (info.spec.id ++ "." ++ port.name) scan.outputs).elim []
      OutputUse.consumers = leaving spec ⟨info.spec.id, port.name⟩ :=
    (outputs _).1.trans (leaving_render apart known)
  simp only [cardinalityIssues, cap_eq, described, append_eq_nil_iff, flatMap_eq_nil_iff] at clean
  have ports := clean.2 port declared
  simp only [outputIssues, counted, when_nil, not_and] at ports
  exact not_lt.mp (ports single)

end Counts

/-! Contracts. -/

omit checked in
theorem side_isSome (negotiator : Negotiator State) (edgeSync : Option SyncPolicy)
    {port : Option PortCapability} (described : (nodeCap resolver spec ref.nodeId).isSome = true)
    (present : port.isSome = true) :
    (sideAt resolver spec negotiator ref edgeSync port).isSome = true := by
  obtain ⟨cap, known⟩ := isSome_iff_exists.mp described
  obtain ⟨node, found, resolved⟩ := bind_eq_some_iff.mp known
  obtain ⟨port, rfl⟩ := isSome_iff_exists.mp present
  simp [sideAt, found, resolved]

theorem tables_disjoint : Disjoint (edgeTables resolver spec).outputs := by
  have ordered : Ordered (edgeTables resolver spec).outputs := scanEdges_ordered List.Pairwise.nil
  have origin : ∀ entry ∈ (edgeTables resolver spec).outputs, ∀ id ∈ entry.2.consumers.map EdgeSpec.id,
      ∃ edge ∈ spec.edges, edge.id = id ∧ edge.fromPort.render = entry.1 := by
    intro entry member id consumer
    obtain ⟨edge, inside, rfl⟩ := mem_map.mp consumer
    have listed := (tables_outputs checked entry.1).1
    rw [(find_eq_some ordered).mpr member, elim_some] at listed
    rw [listed, mem_filter, decide_eq_true_eq] at inside
    exact ⟨edge, inside.1, rfl, inside.2⟩
  intro left leftIn right rightIn id leftHas rightHas
  obtain ⟨first, firstIn, firstId, firstKey⟩ := origin left leftIn id leftHas
  obtain ⟨second, secondIn, secondId, secondKey⟩ := origin right rightIn id rightHas
  have same := inj_on_of_nodup_map checked.edgeIds firstIn secondIn
    (firstId.trans secondId.symm)
  rw [← firstKey, ← secondKey, same]

end Checked

theorem exists_targets {edges : List EdgeSpec} {side : EdgeSpec → Option PortUse}
    (resolved : ∀ edge ∈ edges, (side edge).isSome = true) :
    ∃ targets : List PortUse, edges.map side = targets.map some := by
  induction edges with
  | nil => exact ⟨[], rfl⟩
  | cons edge rest ih =>
    obtain ⟨head, tail⟩ := forall_mem_cons.mp resolved
    obtain ⟨target, found⟩ := isSome_iff_exists.mp head
    obtain ⟨targets, sides⟩ := ih tail
    exact ⟨target :: targets, by rw [map_cons, found, sides, map_cons]⟩

theorem negotiateOutput_eq {negotiator : Negotiator State} {infos : List NodeInfo} {use : OutputUse}
    {source : PortUse} {targets : List PortUse} (state : State)
    (head : (use.consumers.head?.bind fun edge =>
      portUse negotiator infos edge.fromPort.nodeId none (some use.port)) = some source)
    (sides : (use.consumers.map fun edge =>
      portUse negotiator infos edge.toPort.nodeId edge.sync (inPort infos edge)) =
        targets.map some) :
    negotiateOutput negotiator infos use state = negotiate negotiator source targets state := by
  unfold negotiateOutput negotiate
  simp only [head, sides]
  match targets with
  | [] => rfl
  | [target] => rfl
  | first :: second :: rest => simp

/-- The contract of an edge is the negotiation of its own output port with the
inputs of exactly the edges that leave that port. -/
theorem edge_negotiated {negotiator : Negotiator State} {resolver : CapabilityResolver}
    {spec : GraphSpec} {start : State} (checked : Checked resolver spec)
    (apart : Apart resolver spec) (clean : ((edgeTables resolver spec).outputs.foldl
      (negotiateStep negotiator (scanNodes resolver spec).infos) { state := start }).issues = [])
    {edge : EdgeSpec} (member : edge ∈ spec.edges) :
    ∃ contract, Negotiated resolver spec negotiator edge.fromPort contract ∧
      find edge.id ((edgeTables resolver spec).outputs.foldl
        (negotiateStep negotiator (scanNodes resolver spec).infos)
        { state := start }).edgeContracts = some contract ∧
      find edge.fromPort.render ((edgeTables resolver spec).outputs.foldl
        (negotiateStep negotiator (scanNodes resolver spec).infos)
        { state := start }).outputContracts = some contract := by
  have nodesClean := checked.nodesClean
  have declared := checked.outputs edge member
  obtain ⟨listed, ports⟩ := tables_outputs checked edge.fromPort.render
  rw [leaving_render apart declared] at listed
  have inside : edge ∈ leaving spec edge.fromPort := mem_filter.mpr ⟨member, by simp⟩
  cases found : find edge.fromPort.render (edgeTables resolver spec).outputs with
  | none =>
    rw [found] at listed
    rw [← listed] at inside
    cases inside
  | some use =>
    rw [found, elim_some] at listed
    have leaves : ∀ other ∈ use.consumers, other ∈ spec.edges ∧ other.fromPort = edge.fromPort := by
      intro other consumer
      rw [listed] at consumer
      simpa [leaving] using consumer
    obtain ⟨contract, state, done, edgeHas, portHas⟩ := negotiate_finds clean
      (scanEdges_ordered List.Pairwise.nil) (tables_disjoint checked) (mem_of_find found)
      (mem_map_of_mem (listed ▸ inside))
    -- The port on record is that of a consumer, so that of the edge.
    have port : outputAt resolver spec edge.fromPort = some use.port := by
      obtain ⟨other, consumer, same⟩ := ports use found
      rw [outPort_eq nodesClean, (leaves other consumer).2] at same
      exact same
    obtain ⟨source, side⟩ := isSome_iff_exists.mp
      (side_isSome negotiator none (isSome_of_isSome_bind declared) declared)
    have head : (use.consumers.head?.bind fun other =>
        portUse negotiator (scanNodes resolver spec).infos other.fromPort.nodeId none
          (some use.port)) = some source := by
      cases consumers : use.consumers with
      | nil =>
        rw [← listed, consumers] at inside
        cases inside
      | cons first rest =>
        have same := (leaves first (consumers ▸ mem_cons_self)).2
        rw [head?_cons, bind_some, portUse_eq nodesClean, same, ← port]
        exact side
    have resolved : ∀ other ∈ leaving spec edge.fromPort,
        (sideAt resolver spec negotiator other.toPort other.sync
          (inputAt resolver spec other.toPort)).isSome = true := by
      intro other consumer
      have input := checked.inputs other (leaves other (listed ▸ consumer)).1
      exact side_isSome negotiator other.sync (isSome_of_isSome_bind input) input
    obtain ⟨targets, sides⟩ := exists_targets resolved
    refine ⟨contract, ⟨source, targets, state, side, sides, ?_⟩, edgeHas, portHas⟩
    rw [← done, negotiateOutput_eq state head]
    rw [← sides, listed]
    refine map_congr_left fun other _ => ?_
    rw [portUse_eq nodesClean, inPort_eq nodesClean]

/-- On a graph that validates each edge has the contract of its own port, each port is counted by
its own edges, and the non-feedback edges have no cycle, exactly when no edge is at a port that
renders like another. -/
theorem validated_exact_iff {State : Type} {negotiator : Negotiator State}
    {resolver : CapabilityResolver} {start : State} {spec : GraphSpec} {out : ValidatedGraph}
    (accepted : validate negotiator resolver start spec = .ok out) :
    Exact resolver spec negotiator out ↔ Apart resolver spec := by
  unfold validate at accepted
  split at accepted
  · cases accepted
  rename_i clean
  dsimp only at accepted
  split at accepted
  · cases accepted
  rename_i negotiated
  cases accepted
  have checked := checked_of_clean clean
  refine ⟨fun exact => ⟨fun ref declared edge member same => ?_,
    fun ref declared edge member same => ?_⟩, fun apart =>
      ⟨?_, ?_, ?_, ?_, ?_, ?_, ?_, forward_acyclic checked⟩⟩
  · have inside : edge ∈ leaving spec ref := by
      rw [← exact.outputCounts ref declared, (tables_outputs checked ref.render).1]
      exact mem_filter.mpr ⟨member, decide_eq_true same⟩
    exact of_decide_eq_true (mem_filter.mp inside).2
  · have inside : edge ∈ entering spec ref := by
      rw [← exact.inputCounts ref declared, tables_inputs checked ref.render]
      exact mem_filter.mpr ⟨member, decide_eq_true same⟩
    exact of_decide_eq_true (mem_filter.mp inside).2
  · intro edge member
    obtain ⟨contract, own, found, -⟩ := edge_negotiated checked apart negotiated member
    exact ⟨contract, found, own⟩
  · intro edge member
    obtain ⟨contract, own, -, found⟩ := edge_negotiated checked apart negotiated member
    exact ⟨contract, found, own⟩
  · intro ref declared
    exact (tables_outputs checked ref.render).1.trans (leaving_render apart declared)
  · intro ref declared
    exact (tables_inputs checked ref.render).trans (entering_render apart declared)
  · intro node member cap described port declared
    exact (input_checked checked apart member described declared).1
  · intro node member cap described port declared
    exact (input_checked checked apart member described declared).2
  · intro node member cap described port declared
    exact output_checked checked apart member described declared

/-! Two ports render alike only if a port name holds a dot. -/

theorem split_at_last_dot {left right leftPort rightPort : List Char} (leftPlain : '.' ∉ leftPort)
    (rightPlain : '.' ∉ rightPort) (same : left ++ '.' :: leftPort = right ++ '.' :: rightPort) :
    left = right ∧ leftPort = rightPort := by
  rcases append_eq_append_iff.mp same with ⟨middle, rfl, rest⟩ | ⟨middle, rfl, rest⟩
  · cases middle with
    | nil => simpa using rest
    | cons dot tail =>
      rw [cons_append, cons.injEq] at rest
      exact absurd (rest.2 ▸ mem_append_right tail mem_cons_self) leftPlain
  · cases middle with
    | nil => simpa [eq_comm] using rest
    | cons dot tail =>
      rw [cons_append, cons.injEq] at rest
      exact absurd (rest.2 ▸ mem_append_right tail mem_cons_self) rightPlain

theorem render_injective {left right : PortRef} (leftPlain : '.' ∉ left.port.toList)
    (rightPlain : '.' ∉ right.port.toList) (same : left.render = right.render) : left = right := by
  have chars := congrArg String.toList same
  simp only [PortRef.render, String.toList_append, append_assoc] at chars
  obtain ⟨node, port⟩ := split_at_last_dot leftPlain rightPlain chars
  cases left
  cases right
  exact PortRef.mk.injEq .. ▸ ⟨String.toList_inj.mp node, String.toList_inj.mp port⟩

theorem apart_of_plain {resolver : CapabilityResolver} {spec : GraphSpec}
    (plain : ∀ node ∈ spec.nodes, ∀ cap, resolver node.op = some cap →
      ∀ port ∈ cap.inputs ++ cap.outputs, '.' ∉ port.name.toList) (edges : ∀ edge ∈ spec.edges,
      '.' ∉ edge.fromPort.port.toList ∧ '.' ∉ edge.toPort.port.toList) : Apart resolver spec := by
  have named : ∀ ports : CapabilityDescriptor → List PortCapability,
      (∀ cap, ports cap ⊆ cap.inputs ++ cap.outputs) → ∀ ref : PortRef,
      ((nodeCap resolver spec ref.nodeId).bind fun cap =>
        lookup PortCapability.name ref.port (ports cap)).isSome = true → '.' ∉ ref.port.toList := by
    intro ports listed ref declared
    obtain ⟨port, found⟩ := isSome_iff_exists.mp declared
    obtain ⟨cap, known, found⟩ := bind_eq_some_iff.mp found
    obtain ⟨node, known, described⟩ := bind_eq_some_iff.mp known
    obtain ⟨member, named⟩ := lookup_some found
    rw [← named]
    exact plain node (lookup_some known).1 cap described port (listed cap member)
  have outputs := named CapabilityDescriptor.outputs fun cap => subset_append_right _ _
  have inputs := named CapabilityDescriptor.inputs fun cap => subset_append_left _ _
  exact ⟨fun ref declared edge member => render_injective (edges edge member).1 (outputs ref declared),
    fun ref declared edge member => render_injective (edges edge member).2 (inputs ref declared)⟩

/-! A graph in which node "a" has an input port "b.c" and node "a.b" an input
port "c". -/

def agreeable : Negotiator Unit where
  version := fun _ => 0
  negotiateEdge := fun source _ _ => (.ok { logicalType := source.port.typeTag }, ())
  negotiateFanout := fun source _ _ => (.ok { logicalType := source.port.typeTag }, ())
  lastConflict := fun _ => none

def portedOperators : CapabilityResolver := fun op =>
  if op.typeName = "source" then
    some { op := op, outputs := [{ name := "out", direction := .output, typeTag := "Bytes" }] }
  else some { op := op, inputs := [{ name := op.semanticVersion, typeTag := "Bytes" }] }

def portedGraph (first second : String) (fed : List EdgeSpec) : GraphSpec where
  nodes := [
    { id := "s", op := ⟨"source", ""⟩ },
    { id := "t", op := ⟨"source", ""⟩ },
    { id := "a", op := ⟨"sink", first⟩ },
    { id := "a.b", op := ⟨"sink", second⟩ }]
  edges := { id := "e", fromPort := ⟨"s", "out"⟩, toPort := ⟨"a.b", second⟩ } :: fed

/-- The edge into "a.b" passes for the required input of "a". -/
theorem dotted_names_collide : ∃ out,
    validate agreeable portedOperators () (portedGraph "b.c" "c" []) = .ok out ∧
      ¬ Exact portedOperators (portedGraph "b.c" "c" []) agreeable out := by
  refine (exists_of_isOk).imp fun out done => ⟨done, ?_⟩
  intro exact
  have connected := exact.requiredInputs { id := "a", op := ⟨"sink", "b.c"⟩ }
    (by simp [portedGraph]) _ rfl { name := "b.c", typeTag := "Bytes" } mem_cons_self rfl
  exact connected (by decide +kernel)

/-- With plain port names the same graph is judged port by port. -/
theorem plain_names_exact : ∃ out,
    validate agreeable portedOperators () (portedGraph "in" "in"
      [{ id := "f", fromPort := ⟨"t", "out"⟩, toPort := ⟨"a", "in"⟩ }]) = .ok out ∧
    Exact portedOperators (portedGraph "in" "in"
      [{ id := "f", fromPort := ⟨"t", "out"⟩, toPort := ⟨"a", "in"⟩ }]) agreeable out := by
  refine (exists_of_isOk).imp fun out done => ⟨done, ?_⟩
  refine (validated_exact_iff done).mpr (apart_of_plain ?_ (by decide))
  intro node member cap described port declared
  simp only [portedGraph, mem_cons, not_mem_nil, or_false] at member
  rcases member with rfl | rfl | rfl | rfl <;>
    (cases described; rw [mem_singleton.mp declared]; decide)

end GraphEngine.ValidatedContracts
