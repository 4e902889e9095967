import GraphEngine.TopologyCoherence

/-!
Chains of topology versions. Each version after the first is built on the one
before it, with the reuse sets of the structural diff; between two builds the
pending rebinds are applied and the runtimes go on working. Coherence is the
invariant of every chain, whatever factory and negotiator each build meets.
-/

namespace GraphEngine.TopologyChains

open Values GraphSpecs Capabilities KeyedLists OrderedMaps Validation StructuralDiff
  NodeRuntimes Topologies TopologyCoherence Fallible

def diffFrom (base : RuntimeTopology) (candidate : GraphSpec) (validated : ValidatedGraph) :
    GraphDiff :=
  compute base.spec base.validated.edgeContracts candidate validated.edgeContracts

/-- The build of a mutation: what the diff keeps is carried over. -/
def mutationOptions (sessionId version : Nat) (base : RuntimeTopology) (candidate : GraphSpec)
    (validated : ValidatedGraph) : BuildOptions where
  sessionId := sessionId
  version := version
  base := some base
  reusedNodes := (diffFrom base candidate validated).reusedNodes
  reusedEdges := (diffFrom base candidate validated).reusedEdges

/-- The graphs of the versions so far, the running one first, with the store and
the running topology. -/
inductive Chain : List GraphSpec → Store → RuntimeTopology → Prop where
  | initial {factory : OperatorFactory} {options : BuildOptions} {State : Type}
      {negotiator : Negotiator State} {start : State} {store after : Store} {spec : GraphSpec}
      {validated : ValidatedGraph} {topology : RuntimeTopology} (baseless : options.base = none)
      (accepted : validate negotiator factory.describe start spec = .ok validated)
      (built : build factory options store spec validated = .ok (after, topology)) :
      Chain [spec] after topology
  | evolve {history : List GraphSpec} {store later : Store} {topology : RuntimeTopology}
      (chain : Chain history store topology) (evolves : store.Evolves later) :
      Chain history later topology
  | rebound {history : List GraphSpec} {store : Store} {topology : RuntimeTopology}
      (chain : Chain history store topology) : Chain history store { topology with rebinds := [] }
  | mutate {history : List GraphSpec} {factory : OperatorFactory} {State : Type}
      {negotiator : Negotiator State} {start : State} {sessionId version : Nat}
      {store after : Store} {base topology : RuntimeTopology} {candidate : GraphSpec}
      {validated : ValidatedGraph} (chain : Chain history store base)
      (accepted : validate negotiator factory.describe start candidate = .ok validated)
      (built : build factory (mutationOptions sessionId version base candidate validated) store
        candidate validated = .ok (after, topology)) :
      Chain (candidate :: history) after topology

/-- The node a running runtime was created from: the one of the version that
added the id or gave it its operator. -/
def createdFrom (id : String) : List GraphSpec → Option NodeSpec
  | [] => none
  | spec :: past =>
    match spec.findNode id, past.head?.bind fun before => before.findNode id with
    | none, _ => none
    | some node, none => some node
    | some node, some old => if old.op = node.op then createdFrom id past else some node

variable {id : String} {State : Type} {store : Store} {validated : ValidatedGraph}
  {place : String → NodeRef} {channelAt : String → ChannelRef} {start : State}
  {negotiator : Negotiator State}

section Diffs

variable {base candidate : GraphSpec} {baseContracts contracts : Contracts}

structure KeptEdge (base candidate : GraphSpec) (baseContracts contracts : Contracts)
    (reused : List String) (id : String) (old new : EdgeSpec) : Prop where
  inBase : old ∈ base.edges ∧ old.id = id
  inCandidate : new ∈ candidate.edges ∧ new.id = id
  endpoints : old.fromPort = new.fromPort ∧ old.toPort = new.toPort
  queue : old.queue = new.queue
  feedback : old.feedback = new.feedback
  contract : ∀ before after, find id baseContracts = some before →
    find id contracts = some after → before.sameDataPlane after = true
  ends : new.fromPort.nodeId ∈ reused ∧ new.toPort.nodeId ∈ reused

theorem contractChanged_false (same : contractChanged baseContracts contracts id = false)
    {before after : ConnectionContract} (old : find id baseContracts = some before)
    (new : find id contracts = some after) : before.sameDataPlane after = true := by
  simpa [contractChanged, old, new] using same

theorem reusedEdges_kept (shaped : Shaped base) (candidateShaped : Shaped candidate)
    (reused : id ∈ (compute base baseContracts candidate contracts).reusedEdges) :
    ∃ old new, KeptEdge base candidate baseContracts contracts
      (compute base baseContracts candidate contracts).reusedNodes id old new := by
  obtain ⟨old, new, foundOld, foundNew, nothing⟩ :=
    (mem_reusedEdges shaped.edgeIdsDistinct candidateShaped.edgeIdsDistinct).mp reused
  obtain ⟨source, target, producer, consumer, queue, feedback, contract⟩ :=
    edgeReasons_nil.mp nothing
  obtain ⟨oldMember, oldNamed⟩ := GraphSpec.findEdge_some foundOld
  obtain ⟨newMember, newNamed⟩ := GraphSpec.findEdge_some foundNew
  refine ⟨old, new, ⟨oldMember, oldNamed⟩, ⟨newMember, newNamed⟩, ⟨source, target⟩, queue, feedback,
    ?_, ?_, ?_⟩
  · intro before after foundBefore foundAfter
    rw [oldNamed] at contract
    exact contractChanged_false contract foundBefore foundAfter
  · exact reused_of_not_replaced shaped.nodeIdsDistinct candidateShaped.nodeIdsDistinct
      (source ▸ shaped.fromKnown old oldMember) (candidateShaped.fromKnown new newMember) producer
  · exact reused_of_not_replaced shaped.nodeIdsDistinct candidateShaped.nodeIdsDistinct
      (target ▸ shaped.toKnown old oldMember) (candidateShaped.toKnown new newMember) consumer

end Diffs

variable {spec : GraphSpec} {node : NodeSpec}

theorem findNode_member (distinct : spec.nodeIds.Nodup) (member : node ∈ spec.nodes) :
    spec.findNode node.id = some node :=
  (lookup_eq_some distinct).mpr ⟨member, rfl⟩

theorem findEdge_member (distinct : spec.edgeIds.Nodup) {edge : EdgeSpec}
    (member : edge ∈ spec.edges) : spec.findEdge edge.id = some edge :=
  (lookup_eq_some distinct).mpr ⟨member, rfl⟩

section Mutations

variable {factory : OperatorFactory} {base : RuntimeTopology} {candidate : GraphSpec}

theorem mutation_ready (sessionId version : Nat)
    (coherent : Coherent store base place channelAt) (shaped : Shaped candidate) :
    BaseReady store (mutationOptions sessionId version base candidate validated) candidate validated
      place channelAt where
  coherent := by
    rintro _ ⟨⟩
    exact coherent
  nodes := by
    rintro _ ⟨⟩ node member reused
    obtain ⟨old, new, foundOld, foundNew, same⟩ :=
      (mem_reusedNodes coherent.shaped.nodeIdsDistinct shaped.nodeIdsDistinct).mp reused
    rw [findNode_member shaped.nodeIdsDistinct member, Option.some.injEq] at foundNew
    obtain ⟨oldMember, oldNamed⟩ := lookup_some foundOld
    exact ⟨old, oldMember, oldNamed, foundNew ▸ same⟩
  edges := by
    rintro _ ⟨⟩ edge member reused
    obtain ⟨old, new, kept⟩ := reusedEdges_kept coherent.shaped shaped reused
    have same : new = edge := by
      have found := findEdge_member shaped.edgeIdsDistinct kept.inCandidate.1
      rw [kept.inCandidate.2, findEdge_member shaped.edgeIdsDistinct member] at found
      exact (Option.some.inj found).symm
    subst same
    exact ⟨old, kept.inBase.1, kept.inBase.2, kept.endpoints.1, kept.endpoints.2, kept.ends.1,
      kept.ends.2, kept.contract⟩

theorem mutation_outcome (sessionId version : Nat) (coherent : Coherent store base place channelAt)
    (accepted : validate negotiator factory.describe start candidate = .ok validated) :
    let options := mutationOptions sessionId version base candidate validated
    (∃ error, build factory options store candidate validated = .error error ∧
      Refused factory options candidate error) ∨
    ∃ after topology, build factory options store candidate validated = .ok (after, topology) ∧
      topology.spec = candidate ∧ topology.validated = validated ∧
      ∃ newPlace newChannel, Coherent after topology newPlace newChannel ∧
        Populated factory options store candidate validated place after topology newPlace := by
  have accepted := validate_accepted accepted
  have shaped := accepted_shaped accepted
  exact build_outcome (mutation_ready sessionId version coherent shaped) shaped accepted.described
    accepted.contracted

end Mutations

/-- The runtime at `ref` was created for the node as a past version listed it. -/
structure Originates (history : List GraphSpec) (store : Store) (node : NodeSpec) (ref : NodeRef) :
    Prop where
  exists_origin : ∃ runtime origin, store.nodes[ref]? = some runtime ∧
    createdFrom node.id history = some origin ∧ origin.op = node.op ∧ runtime.key = node.op ∧
    runtime.options = origin.options ∧
    runtime.maxParallelism = clampParallelism runtime.capability.execution origin.parallelism

variable {history : List GraphSpec}

theorem originates_evolves {later : Store} {ref : NodeRef} (evolves : store.Evolves later)
    (originates : Originates history store node ref) : Originates history later node ref := by
  obtain ⟨runtime, origin, stored, found, sameOp, key, options, parallelism⟩ :=
    originates.exists_origin
  obtain ⟨moved, storedLater, same⟩ := evolves.nodes ref runtime stored
  simp only [NodeRuntime.identity, Prod.mk.injEq] at same
  obtain ⟨-, -, sameKey, sameCapability, sameOptions, sameParallelism⟩ := same
  exact ⟨moved, origin, storedLater, found, sameOp, sameKey.trans key, sameOptions.trans options,
    by rw [sameParallelism, sameCapability, parallelism]⟩

structure Sound (history : List GraphSpec) (store : Store) (topology : RuntimeTopology)
    (place : String → NodeRef) (channelAt : String → ChannelRef) : Prop where
  current : history.head? = some topology.spec
  coherent : Coherent store topology place channelAt
  origins : ∀ node ∈ topology.spec.nodes, Originates history store node (place node.id)

theorem created_originates {ref : NodeRef} {id : Nat} {cap : CapabilityDescriptor}
    (distinct : spec.nodeIds.Nodup) (member : node ∈ spec.nodes)
    (fresh : ∀ before, history.head? = some before → ∀ old, before.findNode node.id = some old →
      old.op ≠ node.op) (stored : store.nodes[ref]? =
      some (.create id node.id node.op cap node.options node.parallelism)) :
    Originates (spec :: history) store node ref := by
  refine ⟨_, node, stored, ?_, rfl, rfl, rfl, rfl⟩
  unfold createdFrom
  rw [findNode_member distinct member]
  cases found : history.head?.bind fun before => before.findNode node.id with
  | none => rfl
  | some old =>
    obtain ⟨before, isHead, foundOld⟩ := Option.bind_eq_some_iff.mp found
    simp [fresh before isHead old foundOld]

theorem baseless_ready {options : BuildOptions} (baseless : options.base = none) :
    BaseReady store options spec validated (fun _ => 0) (fun _ => 0) := by
  constructor <;>
  · intro base based
    rw [baseless] at based
    cases based

variable {topology : RuntimeTopology}

theorem initial_sound {factory : OperatorFactory} {options : BuildOptions} {after : Store}
    (baseless : options.base = none)
    (accepted : validate negotiator factory.describe start spec = .ok validated)
    (built : build factory options store spec validated = .ok (after, topology)) :
    ∃ place channelAt, Sound [spec] after topology place channelAt := by
  have accepted := validate_accepted accepted
  have shaped := accepted_shaped accepted
  obtain ⟨specIs, -, place, channelAt, coherent, populated⟩ := outcome_ok (build_outcome
    (baseless_ready baseless) shaped accepted.described accepted.contracted) built
  refine ⟨place, channelAt, ⟨by rw [specIs]; rfl, coherent, ?_⟩⟩
  rw [specIs]
  intro node member
  obtain ⟨-, id, cap, -, stored⟩ := populated.created node member (by simp [reuseFrom, baseless])
  exact created_originates shaped.nodeIdsDistinct member (by simp) stored

theorem mutate_sound {factory : OperatorFactory} {sessionId version : Nat} {after : Store}
    {base : RuntimeTopology}
    {candidate : GraphSpec} (sound : Sound history store base place channelAt)
    (accepted : validate negotiator factory.describe start candidate = .ok validated)
    (built : build factory (mutationOptions sessionId version base candidate validated) store
      candidate validated = .ok (after, topology)) :
    ∃ newPlace newChannel, Sound (candidate :: history) after topology newPlace newChannel := by
  have shaped := accepted_shaped (validate_accepted accepted)
  have baseDistinct := sound.coherent.shaped.nodeIdsDistinct
  obtain ⟨specIs, -, newPlace, newChannel, coherent, populated⟩ :=
    outcome_ok (mutation_outcome sessionId version sound.coherent accepted) built
  refine ⟨newPlace, newChannel, ⟨by rw [specIs]; rfl, coherent, ?_⟩⟩
  rw [specIs]
  intro node member
  have found := findNode_member shaped.nodeIdsDistinct member
  by_cases reused : node.id ∈ (diffFrom base candidate validated).reusedNodes
  · obtain ⟨old, new, foundOld, foundNew, same⟩ :=
      (mem_reusedNodes baseDistinct shaped.nodeIdsDistinct).mp reused
    rw [found, Option.some.injEq] at foundNew
    subst foundNew
    obtain ⟨oldMember, oldNamed⟩ := lookup_some foundOld
    have carried := populated.carried node member base (reuseFrom_some.mpr ⟨rfl, reused⟩)
    obtain ⟨runtime, origin, stored, listed, sameOp, rest⟩ :=
      (originates_evolves populated.evolves (sound.origins old oldMember)).exists_origin
    rw [oldNamed] at stored listed
    rw [same] at sameOp rest
    refine ⟨runtime, origin, carried ▸ stored, ?_, sameOp, rest⟩
    simp [createdFrom, found, sound.current, foundOld, same, listed]
  · obtain ⟨-, id, cap, -, stored⟩ :=
      populated.created node member (by simp [reuseFrom, mutationOptions, reused])
    refine created_originates shaped.nodeIdsDistinct member ?_ stored
    intro before isHead old foundOld same
    rw [sound.current, Option.some.injEq] at isHead
    subst isHead
    exact reused ((mem_reusedNodes baseDistinct shaped.nodeIdsDistinct).mpr
      ⟨old, node, foundOld, found, same⟩)

theorem coherent_rebound (coherent : Coherent store topology place channelAt) :
    Coherent store { topology with rebinds := [] } place channelAt := by
  refine { coherent with
    runs := ?_
    carries := fun edge member => ⟨(coherent.carries edge member).exists_channel⟩ }
  intro node member
  obtain ⟨runtime, runs⟩ := coherent.runs node member
  exact ⟨runtime, runs_congr runs rfl rfl rfl⟩

theorem chain_sound (chain : Chain history store topology) :
    ∃ place channelAt, Sound history store topology place channelAt := by
  induction chain with
  | initial baseless accepted built => exact initial_sound baseless accepted built
  | evolve _ evolves ih =>
    obtain ⟨place, channelAt, sound⟩ := ih
    exact ⟨place, channelAt, sound.current, coherent_evolves evolves sound.coherent,
      fun node member => originates_evolves evolves (sound.origins node member)⟩
  | rebound _ ih =>
    obtain ⟨place, channelAt, sound⟩ := ih
    exact ⟨place, channelAt, sound.current, coherent_rebound sound.coherent, sound.origins⟩
  | mutate _ accepted built ih =>
    obtain ⟨place, channelAt, sound⟩ := ih
    exact mutate_sound sound accepted built

/-- Each edge of the graph has one channel, and each channel of the topology is an
edge's and is bound to the runtimes the topology uses for the edge's two ends. -/
structure ChannelsBound (store : Store) (topology : RuntimeTopology) : Prop where
  complete : ∀ edge ∈ topology.spec.edges, ∃ ref ∈ topology.edges,
    topology.findEdge store edge.id = some ref
  bound : ∀ ref ∈ topology.edges, ∃ edge ∈ topology.spec.edges, ∃ channel,
    store.channels[ref]? = some channel ∧ channel.externalId = edge.id ∧
    topology.findNode store edge.fromPort.nodeId = some channel.producer ∧
    topology.findNode store edge.toPort.nodeId = some channel.consumer

theorem coherent_bound (coherent : Coherent store topology place channelAt) :
    ChannelsBound store topology := by
  have located : ∀ id ∈ topology.spec.nodeIds, topology.findNode store id = some (place id) := by
    intro id known
    obtain ⟨node, member, rfl⟩ := mem_nodeIds known
    exact findNode_coherent coherent member
  constructor
  · intro edge member
    refine ⟨channelAt edge.id, ?_, findEdge_coherent coherent member⟩
    rw [coherent.edges]
    exact List.mem_map.mpr ⟨edge, member, rfl⟩
  · intro ref listed
    rw [coherent.edges] at listed
    obtain ⟨edge, member, rfl⟩ := List.mem_map.mp listed
    obtain ⟨channel, -, stored, named, -, -, producer, consumer⟩ :=
      (coherent.carries edge member).exists_channel
    refine ⟨edge, member, channel, stored, named, ?_, ?_⟩
    · rw [producer, located _ (coherent.shaped.fromKnown edge member)]
    · rw [consumer, located _ (coherent.shaped.toKnown edge member)]

/-- A kept edge, with the two contracts it had and has. -/
def KeptAcross (base : RuntimeTopology) (candidate : GraphSpec) (validated : ValidatedGraph)
    (id : String) : Prop :=
  ∃ old new before after, KeptEdge base.spec candidate base.validated.edgeContracts
      validated.edgeContracts (diffFrom base candidate validated).reusedNodes id old new ∧
    find id base.validated.edgeContracts = some before ∧
    find id validated.edgeContracts = some after ∧ before.sameDataPlane after = true

theorem kept_across {base : RuntimeTopology} {resolver : CapabilityResolver} {candidate : GraphSpec}
    (coherent : Coherent store base place channelAt)
    (accepted : Accepted resolver candidate validated)
    (kept : id ∈ (diffFrom base candidate validated).edgesOf .kept) :
    KeptAcross base candidate validated id := by
  obtain ⟨old, new, edge⟩ := reusedEdges_kept coherent.shaped (accepted_shaped accepted) kept
  obtain ⟨-, before, -, -, foundBefore, -⟩ := (coherent.carries old edge.inBase.1).exists_channel
  obtain ⟨after, foundAfter⟩ :=
    Option.isSome_iff_exists.mp (accepted.contracted new edge.inCandidate.1)
  rw [edge.inBase.2] at foundBefore
  rw [edge.inCandidate.2] at foundAfter
  exact ⟨old, new, before, after, edge, foundBefore, foundAfter,
    edge.contract before after foundBefore foundAfter⟩

/-- At every version of every chain, the diff against a valid candidate classes
each id once and keeps only what is unchanged, and the build that reuses what
the diff keeps is stopped by nothing but the factory; its result is again bound
to its own runtimes. -/
theorem chain_mutation_coherent {history : List GraphSpec} {store : Store} {base : RuntimeTopology}
    (chain : Chain history store base) {factory : OperatorFactory} {State : Type}
    {negotiator : Negotiator State} {start : State} {candidate : GraphSpec}
    {validated : ValidatedGraph}
    (accepted : validate negotiator factory.describe start candidate = .ok validated)
    (sessionId version : Nat) :
    let diff := diffFrom base candidate validated
    let options := mutationOptions sessionId version base candidate validated
    (keys diff.nodes).Nodup ∧ (keys diff.edges).Nodup ∧
      (∀ id, id ∈ keys diff.nodes ↔ id ∈ base.spec.nodeIds ∨ id ∈ candidate.nodeIds) ∧
      (∀ id, id ∈ keys diff.edges ↔ id ∈ base.spec.edgeIds ∨ id ∈ candidate.edgeIds) ∧
      (∀ id ∈ diff.edgesOf .kept, KeptAcross base candidate validated id) ∧
      ((∃ error, build factory options store candidate validated = .error error ∧
          Refused factory options candidate error) ∨
        ∃ after topology, build factory options store candidate validated = .ok (after, topology) ∧
          topology.spec = candidate ∧ ChannelsBound after topology ∧
          Chain (candidate :: history) after topology) := by
  obtain ⟨place, channelAt, sound⟩ := chain_sound chain
  have baseShaped := sound.coherent.shaped
  have valid := validate_accepted accepted
  obtain ⟨nodesOnce, edgesOnce, nodesAll, edgesAll⟩ :=
    @compute_total base.spec base.validated.edgeContracts candidate validated.edgeContracts
      baseShaped.nodeIdsDistinct valid.nodeIdsDistinct baseShaped.edgeIdsDistinct
      valid.edgeIdsDistinct
  refine ⟨nodesOnce, edgesOnce, nodesAll, edgesAll,
    fun id kept => kept_across sound.coherent valid kept, ?_⟩
  rcases mutation_outcome sessionId version sound.coherent accepted with
    failed | ⟨after, topology, built, specIs, -, newPlace, newChannel, coherent, -⟩
  · exact .inl failed
  · exact .inr ⟨after, topology, built, specIs, coherent_bound coherent,
      chain.mutate accepted built⟩

/-! A small pipeline to run the definitions on: one source, one sink, and filters
between them. -/

def framePort (name : String) (direction : PortDirection) : PortCapability :=
  { name := name, direction := direction, typeTag := "frame", required := false
    cardinality := .multi, dynamicConsumers := true }

def pipelineOperators : CapabilityResolver := fun key =>
  let described : CapabilityDescriptor := { op := key, execution := { stateful := false } }
  if key.typeName = "Source" then
    some { described with outputs := [framePort "out" .output] }
  else if key.typeName = "Sink" then
    some { described with inputs := [framePort "in" .input] }
  else if key.typeName = "Filter" then
    some { described with
      inputs := [framePort "in" .input]
      outputs := [framePort "out" .output]
      parameters := { hotUpdatable := ["gain"], migratable := ["gain"] } }
  else none

def pipelineFactory : OperatorFactory where
  describe := pipelineOperators
  create := fun _ => .ok ()

def pipelineNegotiator : Negotiator Unit where
  version := fun _ => 1
  negotiateEdge := fun source _ state => (.ok { logicalType := source.port.typeTag }, state)
  negotiateFanout := fun source _ state => (.ok { logicalType := source.port.typeTag }, state)
  lastConflict := fun _ => none

def directPipeline : GraphSpec where
  name := "pipeline"
  nodes := [{ id := "source", op := ⟨"Source", "1"⟩ }, { id := "sink", op := ⟨"Sink", "1"⟩ }]
  edges := [{ id := "direct", fromPort := ⟨"source", "out"⟩, toPort := ⟨"sink", "in"⟩ }]

def filteredPipeline : GraphSpec where
  name := "pipeline"
  nodes := directPipeline.nodes ++ [{ id := "filter", op := ⟨"Filter", "1"⟩ }]
  edges := directPipeline.edges ++
    [{ id := "enter", fromPort := ⟨"source", "out"⟩, toPort := ⟨"filter", "in"⟩ },
      { id := "leave", fromPort := ⟨"filter", "out"⟩, toPort := ⟨"sink", "in"⟩ }]

def validatePipeline (spec : GraphSpec) : Result ValidatedGraph :=
  validate pipelineNegotiator pipelineOperators () spec

def directValidated : ValidatedGraph := (validatePipeline directPipeline).toOption.getD {}

def filteredValidated : ValidatedGraph := (validatePipeline filteredPipeline).toOption.getD {}

def directVersion : Store × RuntimeTopology :=
  (build pipelineFactory {} {} directPipeline directValidated).toOption.getD
    ({}, { spec := {}, validated := {} })

theorem directValidated_ok :
    validate pipelineNegotiator pipelineFactory.describe () directPipeline = .ok directValidated := by
  decide

theorem filteredValidated_ok :
    validate pipelineNegotiator pipelineFactory.describe () filteredPipeline =
      .ok filteredValidated := by
  decide

theorem directVersion_chain : Chain [directPipeline] directVersion.1 directVersion.2 := by
  have built : build pipelineFactory {} {} directPipeline directValidated =
      .ok (directVersion.1, directVersion.2) := by decide
  exact .initial rfl directValidated_ok built

/-- Adding the side path keeps the direct edge, and its channel stays bound to the
runtimes of the source and the sink. -/
theorem addFilter_coherent :
    (diffFrom directVersion.2 filteredPipeline filteredValidated).edgesOf .kept = ["direct"] ∧
      ∃ after topology, build pipelineFactory
          (mutationOptions 0 2 directVersion.2 filteredPipeline filteredValidated) directVersion.1
          filteredPipeline filteredValidated = .ok (after, topology) ∧
        ChannelsBound after topology := by
  obtain ⟨-, -, -, -, -, failed | ⟨after, topology, built, -, bound, -⟩⟩ :=
    chain_mutation_coherent directVersion_chain filteredValidated_ok 0 2
  · obtain ⟨_, -, _, -, -, _, _, -, refused⟩ := failed
    cases refused
  · exact ⟨by decide, after, topology, built, bound⟩

def unfedPipeline : GraphSpec := { filteredPipeline with edges := filteredPipeline.edges.tail }

def unfedValidated : ValidatedGraph := (validatePipeline unfedPipeline).toOption.getD {}

end GraphEngine.TopologyChains
