import GraphEngine.Topologies

/-!
Coherence of a topology with its graph, and what `build` makes of a coherent
base: the three loops of the function, one invariant each. `place` names the
runtime a topology uses for each node id and `channelAt` the channel it uses for
each edge id.
-/

namespace GraphEngine.TopologyCoherence

open GraphSpecs Capabilities OrderedMaps Fallible Validation
  NodeRuntimes Topologies Function Option
open List hiding keys

structure Shaped (spec : GraphSpec) : Prop where
  nodeIdsDistinct : spec.nodeIds.Nodup
  edgeIdsDistinct : spec.edgeIds.Nodup
  fromKnown : ∀ edge ∈ spec.edges, edge.fromPort.nodeId ∈ spec.nodeIds
  toKnown : ∀ edge ∈ spec.edges, edge.toPort.nodeId ∈ spec.nodeIds

variable {spec : GraphSpec}

theorem accepted_shaped {resolver : CapabilityResolver} {out : ValidatedGraph}
    (accepted : Accepted resolver spec out) : Shaped spec :=
  { accepted with }

/-- The runtime at `ref` runs the node, under the id the topology filed. -/
structure Runs (store : Store) (topology : RuntimeTopology) (node : NodeSpec) (ref : NodeRef)
    (runtime : NodeRuntime) : Prop where
  stored : store.nodes[ref]? = some runtime
  named : runtime.externalId = node.id
  operator : runtime.key = node.op
  filed : find node.id topology.nodeIds = some runtime.id
  below : runtime.id < topology.nextNodeId

/-- The channel at `ref` is the edge's, bound to the given runtimes, and carries
the data the current contract describes. -/
structure Carries (store : Store) (topology : RuntimeTopology) (place : String → NodeRef)
    (edge : EdgeSpec) (ref : ChannelRef) : Prop where
  exists_channel : ∃ channel contract, store.channels[ref]? = some channel ∧
    channel.externalId = edge.id ∧
    find edge.id topology.validated.edgeContracts = some contract ∧
    channel.contract.sameDataPlane contract = true ∧
    channel.producer = place edge.fromPort.nodeId ∧ channel.consumer = place edge.toPort.nodeId

structure Coherent (store : Store) (topology : RuntimeTopology) (place : String → NodeRef)
    (channelAt : String → ChannelRef) : Prop where
  shaped : Shaped topology.spec
  nodes : topology.nodes = topology.spec.nodes.map fun node => place node.id
  runs : ∀ node ∈ topology.spec.nodes, ∃ runtime, Runs store topology node (place node.id) runtime
  idsDistinct : ∀ node ∈ topology.spec.nodes, ∀ other ∈ topology.spec.nodes,
    find node.id topology.nodeIds = find other.id topology.nodeIds → node.id = other.id
  known : ∀ id ∈ keys topology.nodeIds, id ∈ topology.spec.nodeIds
  edges : topology.edges = topology.spec.edges.map fun edge => channelAt edge.id
  carries : ∀ edge ∈ topology.spec.edges, Carries store topology place edge (channelAt edge.id)
  inputs : ∀ node ∈ topology.spec.nodes, ∀ id, find node.id topology.nodeIds = some id →
    ∃ ref, find id topology.inputs = some ref ∧ ref < store.bindings.length

variable {node : NodeSpec} {runtime : NodeRuntime} {ref : NodeRef} {edge : EdgeSpec}
  {store later : Store} {place : String → NodeRef} {topology : RuntimeTopology}

theorem runs_evolves {before after : Store} (evolves : before.Evolves after)
    (runs : Runs before topology node ref runtime) :
    ∃ later, Runs after topology node ref later ∧ later.identity = runtime.identity := by
  obtain ⟨later, stored, same⟩ := evolves.nodes ref runtime runs.stored
  simp only [NodeRuntime.identity, Prod.mk.injEq] at same
  obtain ⟨id, named, operator, capability, options, parallelism⟩ := same
  refine ⟨later, ⟨stored, ?_, ?_, ?_, ?_⟩, ?_⟩
  · rw [named, runs.named]
  · rw [operator, runs.operator]
  · rw [id, runs.filed]
  · rw [id]
    exact runs.below
  · simp [NodeRuntime.identity, id, named, operator, capability, options, parallelism]

theorem coherent_evolves {before after : Store} (evolves : before.Evolves after)
    {channelAt : String → ChannelRef} (coherent : Coherent before topology place channelAt) :
    Coherent after topology place channelAt := by
  refine { coherent with runs := ?_, carries := ?_, inputs := ?_ }
  · intro node member
    obtain ⟨runtime, runs⟩ := coherent.runs node member
    obtain ⟨later, laterRuns, -⟩ := runs_evolves evolves runs
    exact ⟨later, laterRuns⟩
  · intro edge member
    obtain ⟨channel, contract, stored, rest⟩ := (coherent.carries edge member).exists_channel
    exact ⟨channel, contract, evolves.channels _ _ stored, rest⟩
  · intro node member id filed
    obtain ⟨ref, found, bound⟩ := coherent.inputs node member id filed
    exact ⟨ref, found, evolves.bindings ref bound⟩

theorem find_map_unique {Item : Type} {items : List Item} {value : Item → Nat}
    {test : Nat → Bool} {item : Item} (member : item ∈ items) (hit : test (value item) = true)
    (unique : ∀ other ∈ items, test (value other) = true → value other = value item) :
    (items.map value).find? test = some (value item) := by
  cases found : (items.map value).find? test with
  | none => exact absurd hit (find?_eq_none.mp found _ (mem_map_of_mem member))
  | some first =>
    obtain ⟨other, inside, rfl⟩ := mem_map.mp (mem_of_find?_eq_some found)
    rw [unique other inside (find?_some found)]

section Lookups

variable {channelAt : String → ChannelRef}

theorem findNodeById_placed {nodes : List NodeSpec}
    (placed : topology.nodes = nodes.map fun node => place node.id)
    (runs : ∀ node ∈ nodes, ∃ runtime, Runs store topology node (place node.id) runtime)
    (distinct : ∀ node ∈ nodes, ∀ other ∈ nodes,
      find node.id topology.nodeIds = find other.id topology.nodeIds → node.id = other.id)
    (member : node ∈ nodes) {id : Nat} (filed : find node.id topology.nodeIds = some id) :
    topology.findNodeById store id = some (place node.id) := by
  unfold RuntimeTopology.findNodeById
  rw [placed]
  apply find_map_unique member
  · obtain ⟨runtime, runs⟩ := runs node member
    rw [runs.filed, some.injEq] at filed
    simp [runs.stored, filed]
  · intro other inside hit
    obtain ⟨runtime, otherRuns⟩ := runs other inside
    simp only [otherRuns.stored, any_some, decide_eq_true_eq] at hit
    have same : find node.id topology.nodeIds = find other.id topology.nodeIds := by
      rw [filed, otherRuns.filed, hit]
    rw [distinct node member other inside same]

theorem findNode_coherent (coherent : Coherent store topology place channelAt)
    (member : node ∈ topology.spec.nodes) :
    topology.findNode store node.id = some (place node.id) := by
  obtain ⟨runtime, runs⟩ := coherent.runs node member
  unfold RuntimeTopology.findNode
  rw [runs.filed]
  exact findNodeById_placed coherent.nodes coherent.runs coherent.idsDistinct member runs.filed

theorem findEdge_coherent (coherent : Coherent store topology place channelAt)
    (member : edge ∈ topology.spec.edges) :
    topology.findEdge store edge.id = some (channelAt edge.id) := by
  unfold RuntimeTopology.findEdge
  rw [coherent.edges]
  apply find_map_unique member
  · obtain ⟨channel, -, stored, named, -⟩ := (coherent.carries edge member).exists_channel
    simp [stored, named]
  · intro other inside hit
    obtain ⟨channel, -, stored, named, -⟩ := (coherent.carries other inside).exists_channel
    simp only [stored, any_some, decide_eq_true_eq, named] at hit
    rw [hit]

end Lookups

/-- What a build may assume of the base topology and of the reuse sets. -/
structure BaseReady (store : Store) (options : BuildOptions) (spec : GraphSpec)
    (validated : ValidatedGraph) (basePlace : String → NodeRef)
    (baseChannel : String → ChannelRef) : Prop where
  coherent : ∀ base, options.base = some base → Coherent store base basePlace baseChannel
  nodes : ∀ base, options.base = some base → ∀ node ∈ spec.nodes,
    node.id ∈ options.reusedNodes → ∃ old ∈ base.spec.nodes, old.id = node.id ∧ old.op = node.op
  edges : ∀ base, options.base = some base → ∀ edge ∈ spec.edges,
    edge.id ∈ options.reusedEdges → ∃ old ∈ base.spec.edges, old.id = edge.id ∧
      old.fromPort = edge.fromPort ∧ old.toPort = edge.toPort ∧
      edge.fromPort.nodeId ∈ options.reusedNodes ∧ edge.toPort.nodeId ∈ options.reusedNodes ∧
      ∀ before after, find edge.id base.validated.edgeContracts = some before →
        find edge.id validated.edgeContracts = some after → before.sameDataPlane after = true

theorem sameDataPlane_trans {a b c : ConnectionContract} (first : a.sameDataPlane b = true)
    (second : b.sameDataPlane c = true) : a.sameDataPlane c = true := by
  simp only [ConnectionContract.sameDataPlane, Bool.and_eq_true, decide_eq_true_eq] at *
  simp [first, second]

theorem sameDataPlane_refl (a : ConnectionContract) : a.sameDataPlane a = true := by
  simp [ConnectionContract.sameDataPlane]

variable {base : RuntimeTopology} {id : String}

theorem reuseFrom_some {options : BuildOptions} {reused : List String} :
    reuseFrom options reused id = some base ↔ options.base = some base ∧ id ∈ reused := by
  simp [reuseFrom]

/-- Node ids below this one belong to the base topology. -/
def firstNewId (options : BuildOptions) : Nat := options.base.elim 1 RuntimeTopology.nextNodeId

theorem getElem_append_old {Object : Type} {objects made : List Object} {ref : Nat} {object : Object}
    (stored : objects[ref]? = some object) : (objects ++ made)[ref]? = some object := by
  rw [List.getElem?_append_left (List.getElem?_eq_some_iff.mp stored).1, stored]

theorem fresh_of_split {Item : Type} {key : Item → String} {items front back : List Item} {item : Item}
    (distinct : (items.map key).Nodup) (split : items = front ++ item :: back) :
    key item ∉ front.map key := by
  rw [split, map_append, nodup_append] at distinct
  exact fun seen => distinct.2.2 _ seen _ mem_cons_self rfl

variable {b : Building} {newNodes : List NodeRef} {factory : OperatorFactory}
  {options : BuildOptions} {validated : ValidatedGraph} {basePlace : String → NodeRef}
  {baseChannel channelAt : String → ChannelRef}
  (ready : BaseReady store options spec validated basePlace baseChannel)

section Nodes

variable {done : List NodeSpec}

def Fresh (node : NodeRuntime) : Prop :=
  node.parameters = .create node.options ∧ node.state = .created

/-- The later store has the same nodes, followed by fresh ones at the new
addresses. -/
def Grown (store later : Store) (newNodes : List NodeRef) : Prop :=
  ∃ made, later.nodes = store.nodes ++ made ∧
    newNodes = range' store.nodes.length made.length ∧ ∀ node ∈ made, Fresh node

theorem grown_stored (grown : Grown store later newNodes) (ref : Nat) (node : NodeRuntime)
    (stored : store.nodes[ref]? = some node) : later.nodes[ref]? = some node := by
  obtain ⟨made, nodes, -⟩ := grown
  exact nodes ▸ getElem_append_old stored

theorem grown_length (grown : Grown store later newNodes) :
    store.nodes.length ≤ later.nodes.length := by
  obtain ⟨made, nodes, -⟩ := grown
  rw [nodes, length_append]
  exact Nat.le_add_right _ _

theorem grown_trans {first second third : Store} {left right : List NodeRef}
    (before : Grown first second left) (after : Grown second third right) :
    Grown first third (left ++ right) := by
  obtain ⟨early, nodes, refs, fresh⟩ := before
  obtain ⟨late, laterNodes, laterRefs, laterFresh⟩ := after
  refine ⟨early ++ late, by rw [laterNodes, nodes, append_assoc], ?_, ?_⟩
  · rw [refs, laterRefs, nodes, length_append, length_append, range'_append_1]
  · exact forall_mem_append.mpr ⟨fresh, laterFresh⟩

/-- What the node loop leaves alone. -/
def outsideNodes (b : Building) : Building :=
  { b with
    store := { b.store with nodes := [] }
    topology := { b.topology with nodes := [], nodeIds := [], nextNodeId := 0, newNodes := [] }
    nodeById := [] }

/-- One more node, with the runtimes made for it. -/
def fileNode (b : Building) (name : String) (ref : NodeRef) (id : Nat) (made : List NodeRuntime) :
    Building :=
  { b with
    store := { b.store with nodes := b.store.nodes ++ made }
    topology := { b.topology with
      nodes := b.topology.nodes ++ [ref]
      nodeIds := assign name id b.topology.nodeIds
      nextNodeId := b.topology.nextNodeId + made.length
      newNodes := b.topology.newNodes ++ range' b.store.nodes.length made.length }
    nodeById := emplace id ref b.nodeById }

/-- The state of the node loop after the nodes `done`. -/
structure NodesBuilt (factory : OperatorFactory) (options : BuildOptions) (store : Store)
    (spec : GraphSpec) (validated : ValidatedGraph) (basePlace : String → NodeRef)
    (done : List NodeSpec) (place : String → NodeRef) (b : Building) : Prop where
  evolves : store.Evolves b.store
  untouched : outsideNodes b = outsideNodes (startBuilding options store spec validated)
  grown : Grown store b.store b.topology.newNodes
  above : firstNewId options ≤ b.topology.nextNodeId
  nodes : b.topology.nodes = done.map fun node => place node.id
  runs : ∀ node ∈ done, ∃ runtime, Runs b.store b.topology node (place node.id) runtime ∧
    find runtime.id b.nodeById = some (place node.id)
  idsDistinct : ∀ node ∈ done, ∀ other ∈ done,
    find node.id b.topology.nodeIds = find other.id b.topology.nodeIds → node.id = other.id
  known : ∀ id ∈ keys b.topology.nodeIds, id ∈ done.map NodeSpec.id
  indexed : ∀ id ref, find id b.nodeById = some ref →
    ∃ node ∈ done, find node.id b.topology.nodeIds = some id
  carried : ∀ node ∈ done, ∀ base, reuseFrom options options.reusedNodes node.id = some base →
    place node.id = basePlace node.id ∧ find node.id b.topology.nodeIds = find node.id base.nodeIds
  created : ∀ node ∈ done, reuseFrom options options.reusedNodes node.id = none →
    store.nodes.length ≤ place node.id ∧ ∃ id cap, firstNewId options ≤ id ∧
      factory.describe node.op = some cap ∧ b.store.nodes[place node.id]? =
        some (.create id node.id node.op cap node.options node.parallelism)

/-- A build only fails where the factory refuses a node that is not carried
over. -/
def Refused (factory : OperatorFactory) (options : BuildOptions) (spec : GraphSpec)
    (error : BuildError) : Prop :=
  ∃ node ∈ spec.nodes, reuseFrom options options.reusedNodes node.id = none ∧
    ∃ id status, error = .status status ∧
      factory.create ⟨node.op, id, node.id, node.options, options.sessionId, options.version⟩ =
        .error status

theorem startBuilding_nodes (place : String → NodeRef) :
    NodesBuilt factory options store spec validated basePlace [] place
      (startBuilding options store spec validated) where
  evolves := store.evolves_refl
  untouched := rfl
  grown := ⟨[], (append_nil _).symm, rfl, nofun⟩
  above := Nat.le_refl _
  nodes := rfl
  runs := nofun
  idsDistinct := nofun
  known := nofun
  indexed := nofun
  carried := nofun
  created := nofun

theorem nodesBuilt_extend (runtime : NodeRuntime) {made : List NodeRuntime}
    (built : NodesBuilt factory options store spec validated basePlace done place b)
    (fresh : node.id ∉ done.map NodeSpec.id) (anew : ∀ node ∈ made, Fresh node)
    (stored : (b.store.nodes ++ made)[ref]? = some runtime) (named : runtime.externalId = node.id)
    (operator : runtime.key = node.op) (below : runtime.id < b.topology.nextNodeId + made.length)
    (unused : ∀ other ∈ done, find other.id b.topology.nodeIds ≠ some runtime.id)
    (carried : ∀ base, reuseFrom options options.reusedNodes node.id = some base →
      ref = basePlace node.id ∧ some runtime.id = find node.id base.nodeIds)
    (created : reuseFrom options options.reusedNodes node.id = none →
      store.nodes.length ≤ ref ∧ ∃ id cap, firstNewId options ≤ id ∧
        factory.describe node.op = some cap ∧
        runtime = .create id node.id node.op cap node.options node.parallelism) :
    NodesBuilt factory options store spec validated basePlace (done ++ [node])
      (update place node.id ref) (fileNode b node.id ref runtime.id made) := by
  set next := fileNode b node.id ref runtime.id made
  have grown : Grown b.store next.store (range' b.store.nodes.length made.length) :=
    ⟨made, rfl, rfl, anew⟩
  have stores := grown_stored grown
  have apart : ∀ other ∈ done, other.id ≠ node.id := by
    intro other member same
    exact fresh (mem_map.mpr ⟨other, member, same⟩)
  have oldPlace : ∀ other ∈ done, update place node.id ref other.id = place other.id :=
    fun other member => update_of_ne (apart other member) _ _
  have newPlace : update place node.id ref node.id = ref := update_self ..
  have oldFiled : ∀ other ∈ done,
      find other.id next.topology.nodeIds = find other.id b.topology.nodeIds :=
    fun other member => (find_assign ..).trans (if_neg (apart other member))
  have newFiled : find node.id next.topology.nodeIds = some runtime.id :=
    (find_assign ..).trans (if_pos rfl)
  have unindexed : find runtime.id b.nodeById = none := by
    by_contra known
    obtain ⟨other, found⟩ := ne_none_iff_exists'.mp known
    obtain ⟨owner, member, filed⟩ := built.indexed _ _ found
    exact unused owner member filed
  have indexedAt : ∀ id, find id next.nodeById =
      if id = runtime.id then some ref else find id b.nodeById := by
    intro id
    refine (find_emplace ..).trans ?_
    rw [unindexed, getD_none]
  constructor
  · refine ⟨?_, ?_, ?_⟩
    · intro r old found
      obtain ⟨later, laterStored, same⟩ := built.evolves.nodes r old found
      exact ⟨later, stores r later laterStored, same⟩
    · exact built.evolves.channels
    · exact built.evolves.bindings
  · exact built.untouched
  · exact grown_trans built.grown grown
  · exact built.above.trans (Nat.le_add_right _ _)
  · rw [map_append, map_cons, newPlace]
    refine congrArg (· ++ [ref]) (built.nodes.trans ?_)
    exact map_congr_left fun other member => (oldPlace other member).symm
  · refine forall_mem_append.mpr ⟨fun other old => ?_, forall_mem_singleton.mpr ?_⟩
    · obtain ⟨otherRuntime, runs, indexed⟩ := built.runs other old
      refine ⟨otherRuntime, ⟨?_, runs.named, runs.operator, (oldFiled other old).trans runs.filed,
        runs.below.trans_le (Nat.le_add_right _ _)⟩, ?_⟩
      · rw [oldPlace other old]
        exact stores _ _ runs.stored
      · have different : otherRuntime.id ≠ runtime.id := by
          intro same
          exact unused other old (same ▸ runs.filed)
        rw [indexedAt, if_neg different, oldPlace other old, indexed]
    · rw [newPlace]
      refine ⟨runtime, ⟨stored, named, operator, newFiled, below⟩, ?_⟩
      rw [indexedAt, if_pos rfl]
  · intro left leftMember right rightMember same
    rcases mem_append.mp leftMember with leftOld | leftNew <;>
      rcases mem_append.mp rightMember with rightOld | rightNew
    · rw [oldFiled left leftOld, oldFiled right rightOld] at same
      exact built.idsDistinct left leftOld right rightOld same
    · rw [mem_singleton.mp rightNew, newFiled, oldFiled left leftOld] at same
      exact absurd same (unused left leftOld)
    · rw [mem_singleton.mp leftNew, newFiled, oldFiled right rightOld] at same
      exact absurd same.symm (unused right rightOld)
    · rw [mem_singleton.mp leftNew, mem_singleton.mp rightNew]
  · intro id filed
    rw [map_append]
    rcases (mem_keys_assign ..).mp filed with rfl | old
    · exact mem_append_right _ mem_cons_self
    · exact mem_append_left _ (built.known id old)
  · intro id found known
    rw [indexedAt] at known
    by_cases same : id = runtime.id
    · exact ⟨node, by simp, same ▸ newFiled⟩
    · rw [if_neg same] at known
      obtain ⟨owner, member, filed⟩ := built.indexed id found known
      exact ⟨owner, mem_append_left _ member, (oldFiled owner member).trans filed⟩
  · refine forall_mem_append.mpr ⟨fun other old => ?_, forall_mem_singleton.mpr ?_⟩
    · rw [oldPlace other old, oldFiled other old]
      exact built.carried other old
    · rw [newPlace, newFiled]
      exact carried
  · refine forall_mem_append.mpr ⟨fun other old notReused => ?_,
      forall_mem_singleton.mpr fun notReused => ?_⟩
    · obtain ⟨high, id, cap, above, described, storedOld⟩ := built.created other old notReused
      rw [oldPlace other old]
      exact ⟨high, id, cap, above, described, stores _ _ storedOld⟩
    · obtain ⟨high, id, cap, above, described, made⟩ := created notReused
      rw [newPlace]
      exact ⟨high, id, cap, above, described, stored.trans (congrArg some made)⟩

include ready in
/-- A carried node keeps the runtime and the node id it has in the base. No
earlier node has that id: carried ones have their own base ids, created ones
have newer ids. -/
theorem carryNode_builds (inside : ∀ other ∈ done, other ∈ spec.nodes) (member : node ∈ spec.nodes)
    (fresh : node.id ∉ done.map NodeSpec.id)
    (built : NodesBuilt factory options store spec validated basePlace done place b)
    (reused : reuseFrom options options.reusedNodes node.id = some base) :
    ∃ next, carryNode node base b = .ok next ∧ ∃ place',
      NodesBuilt factory options store spec validated basePlace (done ++ [node]) place' next := by
  obtain ⟨based, listed⟩ := reuseFrom_some.mp reused
  have coherent := coherent_evolves built.evolves (ready.coherent base based)
  obtain ⟨old, oldMember, oldNamed, oldOperator⟩ := ready.nodes base based node member listed
  obtain ⟨runtime, runs⟩ := coherent.runs old oldMember
  have located : base.findNode b.store node.id = some (basePlace node.id) := by
    rw [← oldNamed]
    exact findNode_coherent coherent oldMember
  rw [oldNamed] at runs
  have floor : firstNewId options = base.nextNodeId := by simp [firstNewId, based]
  have filed : find node.id base.nodeIds = some runtime.id := by
    rw [← oldNamed]
    exact runs.filed
  have unused : ∀ other ∈ done, find other.id b.topology.nodeIds ≠ some runtime.id := by
    intro other otherMember same
    cases otherReused : reuseFrom options options.reusedNodes other.id with
    | some otherBase =>
      cases based.symm.trans (reuseFrom_some.mp otherReused).1
      have otherFiled := (built.carried other otherMember _ otherReused).2
      obtain ⟨prior, priorMember, priorNamed, -⟩ := ready.nodes _ based other
        (inside other otherMember) (reuseFrom_some.mp otherReused).2
      have sameId : prior.id = old.id := by
        apply coherent.idsDistinct prior priorMember old oldMember
        rw [priorNamed, oldNamed, ← otherFiled, same, filed]
      exact fresh (mem_map.mpr
        ⟨other, otherMember, priorNamed.symm.trans (sameId.trans oldNamed)⟩)
    | none =>
      obtain ⟨-, id, cap, above, -, made⟩ := built.created other otherMember otherReused
      obtain ⟨otherRuntime, otherRuns, -⟩ := built.runs other otherMember
      have stored := otherRuns.stored
      rw [made, some.injEq] at stored
      have sameId : otherRuntime.id = id := by rw [← stored]; rfl
      have filedOther := otherRuns.filed
      rw [same, some.injEq] at filedOther
      have below := runs.below
      omega
  unfold carryNode
  simp only [located, load, runs.stored, bind, Except.bind]
  refine ⟨fileNode b node.id (basePlace node.id) runtime.id [], by simp [fileNode],
    update place node.id (basePlace node.id), ?_⟩
  refine nodesBuilt_extend runtime built fresh nofun (by rw [append_nil, runs.stored])
    (runs.named.trans oldNamed) (runs.operator.trans oldOperator) ?_ unused ?_ ?_
  · have above := built.above
    rw [floor] at above
    exact runs.below.trans_le above
  · intro other otherReused
    cases reused.symm.trans otherReused
    exact ⟨rfl, filed.symm⟩
  · intro notReused
    cases reused.symm.trans notReused

theorem createNode_builds (member : node ∈ spec.nodes)
    (described : (factory.describe node.op).isSome = true) (fresh : node.id ∉ done.map NodeSpec.id)
    (built : NodesBuilt factory options store spec validated basePlace done place b)
    (notReused : reuseFrom options options.reusedNodes node.id = none) :
    (∃ error, createNode factory options node b = .error error ∧
      Refused factory options spec error) ∨
    ∃ next, createNode factory options node b = .ok next ∧ ∃ place',
      NodesBuilt factory options store spec validated basePlace (done ++ [node]) place' next := by
  obtain ⟨cap, describes⟩ := isSome_iff_exists.mp described
  unfold createNode
  rw [describes]
  dsimp only
  split
  · next status refused =>
      exact .inl ⟨_, rfl, node, member, notReused, _, status, rfl, refused⟩
  refine Or.inr ⟨_, rfl, update place node.id b.store.nodes.length, ?_⟩
  refine nodesBuilt_extend (.create _ node.id node.op cap node.options node.parallelism) built fresh
    (forall_mem_singleton.mpr ⟨rfl, rfl⟩) getElem?_concat_length rfl rfl
    (Nat.lt_succ_self _) ?_ ?_ ?_
  · -- The new id is the next free one.
    intro other otherMember same
    obtain ⟨otherRuntime, runs, -⟩ := built.runs other otherMember
    have filed := runs.filed
    rw [same, some.injEq] at filed
    exact absurd filed.symm (Nat.ne_of_lt runs.below)
  · intro base reused
    cases notReused.symm.trans reused
  · intro _
    exact ⟨grown_length built.grown, _, cap, built.above, describes, rfl⟩

include ready in
theorem buildNodes_outcome (shaped : Shaped spec)
    (described : ∀ node ∈ spec.nodes, (factory.describe node.op).isSome = true) :
    (∃ error, spec.nodes.foldlM (buildNode factory options)
        (startBuilding options store spec validated) = .error error ∧
      Refused factory options spec error) ∨ ∃ b, spec.nodes.foldlM (buildNode factory options)
        (startBuilding options store spec validated) = .ok b ∧
      ∃ place, NodesBuilt factory options store spec validated basePlace spec.nodes place b := by
  apply foldlM_outcome (fun done b => ∃ place,
    NodesBuilt factory options store spec validated basePlace done place b)
  · rintro done node rest b split ⟨place, built⟩
    have member : node ∈ spec.nodes := by simp [split]
    have inside : ∀ other ∈ done, other ∈ spec.nodes := by
      intro other otherMember
      rw [split]
      exact mem_append_left _ otherMember
    have fresh := fresh_of_split shaped.nodeIdsDistinct split
    unfold buildNode
    cases reused : reuseFrom options options.reusedNodes node.id with
    | some base => exact .inr (carryNode_builds ready inside member fresh built reused)
    | none => exact createNode_builds member (described node member) fresh built reused
  · exact ⟨fun _ => 0, startBuilding_nodes _⟩

end Nodes

theorem runs_congr {next : RuntimeTopology} (runs : Runs store topology node ref runtime)
    (nodes : later.nodes = store.nodes) (nodeIds : next.nodeIds = topology.nodeIds)
    (nextNodeId : next.nextNodeId = topology.nextNodeId) : Runs later next node ref runtime where
  stored := nodes ▸ runs.stored
  named := runs.named
  operator := runs.operator
  filed := nodeIds ▸ runs.filed
  below := nextNodeId ▸ runs.below

theorem mem_nodeIds (known : id ∈ spec.nodeIds) : ∃ node ∈ spec.nodes, node.id = id :=
  mem_map.mp known

theorem fetch_some {Key Value : Type} [LinearOrder Key] {key : Key} {entries : List (Key × Value)}
    {value : Value} (found : find key entries = some value) : fetch key entries = .ok value := by
  rw [fetch, found]

variable {contract : ConnectionContract}

section Edges

variable {start : Building} {done : List EdgeSpec}

def outsideEdges (b : Building) : Building :=
  { b with
    store := { b.store with channels := [] }
    topology := { b.topology with edges := [], routes := [], nextEdgeId := 0, newEdges := [] }
    bindings := [] }

/-- The state of the edge loop after the edges `done`; `start` is where the node
loop ended. -/
structure EdgesBuilt (place : String → NodeRef) (start : Building) (done : List EdgeSpec)
    (channelAt : String → ChannelRef) (b : Building) : Prop where
  untouched : outsideEdges b = outsideEdges start
  channels : ∀ (ref : Nat) channel, start.store.channels[ref]? = some channel →
    b.store.channels[ref]? = some channel
  edges : b.topology.edges = done.map fun edge => channelAt edge.id
  carries : ∀ edge ∈ done, Carries b.store b.topology place edge (channelAt edge.id)

theorem edgesBuilt_extend {next : Building} {ref : ChannelRef}
    (built : EdgesBuilt place start done channelAt b) (fresh : edge.id ∉ done.map EdgeSpec.id)
    (untouched : outsideEdges next = outsideEdges b)
    (channels : ∀ (r : Nat) old, b.store.channels[r]? = some old →
      next.store.channels[r]? = some old) (edges : next.topology.edges = b.topology.edges ++ [ref])
    (carries : Carries next.store next.topology place edge ref) :
    EdgesBuilt place start (done ++ [edge]) (update channelAt edge.id ref) next := by
  have apart : ∀ other ∈ done, other.id ≠ edge.id := by
    intro other member same
    exact fresh (mem_map.mpr ⟨other, member, same⟩)
  have oldAt : ∀ other ∈ done, update channelAt edge.id ref other.id = channelAt other.id :=
    fun other member => update_of_ne (apart other member) _ _
  have newAt : update channelAt edge.id ref edge.id = ref := update_self ..
  have sameValidated := congrArg (·.topology.validated) untouched
  constructor
  · exact untouched.trans built.untouched
  · exact fun r old found => channels r old (built.channels r old found)
  · rw [edges, built.edges, map_append, map_cons, newAt]
    congr 1
    exact map_congr_left fun other member => (oldAt other member).symm
  · refine forall_mem_append.mpr ⟨fun other old => ?_, forall_mem_singleton.mpr ?_⟩
    · rw [oldAt other old]
      obtain ⟨channel, contract, stored, named, found, rest⟩ :=
        (built.carries other old).exists_channel
      exact ⟨channel, contract, channels _ _ stored, named, sameValidated ▸ found, rest⟩
    · rw [newAt]
      exact carries

theorem EdgesBuilt.evolves (built : EdgesBuilt place start done channelAt b) :
    start.store.Evolves b.store := by
  refine ⟨fun ref node found => ⟨node, ?_, rfl⟩, built.channels, fun ref bound => ?_⟩
  · exact (congrArg (·.store.nodes[ref]?) built.untouched).trans found
  · exact (congrArg (ref < ·.store.bindings.length) built.untouched).mpr bound

theorem connectEdge_ok (edge : EdgeSpec) (contract : ConnectionContract) (source : Nat)
    (ref : ChannelRef) {target : Nat} {targetRef : NodeRef}
    (located : b.topology.findNodeById b.store target = some targetRef)
    (stored : b.store.nodes[targetRef]? = some runtime) :
    ∃ next, connectEdge edge contract source target ref b = .ok next ∧ next.store = b.store ∧
      next.topology = { b.topology with
        edges := b.topology.edges ++ [ref]
        routes := b.topology.routes ++ [(⟨source, edge.fromPort.port⟩, ⟨ref, contract⟩)] } ∧
      next.nodeById = b.nodeById := by
  unfold connectEdge
  rw [located]
  simp only [load, stored]
  exact ⟨_, rfl, rfl, rfl, rfl⟩

variable (nodesBuilt : NodesBuilt factory options store spec validated basePlace spec.nodes place start)
include nodesBuilt

theorem EdgesBuilt.contracted (built : EdgesBuilt place start done channelAt b)
    (found : find edge.id validated.edgeContracts = some contract) :
    find edge.id b.topology.validated.edgeContracts = some contract :=
  (congrArg (find edge.id ·.topology.validated.edgeContracts) built.untouched).trans
    ((congrArg (find edge.id ·.topology.validated.edgeContracts) nodesBuilt.untouched).trans found)

theorem endpoint_built (built : EdgesBuilt place start done channelAt b)
    (known : id ∈ spec.nodeIds) : ∃ runtime, fetch id b.topology.nodeIds = .ok runtime.id ∧
      fetch runtime.id b.nodeById = .ok (place id) ∧
      b.topology.findNodeById b.store runtime.id = some (place id) ∧
      b.store.nodes[place id]? = some runtime := by
  have sameNodes := congrArg (·.store.nodes) built.untouched
  have sameIds : b.topology.nodeIds = start.topology.nodeIds :=
    congrArg (·.topology.nodeIds) built.untouched
  have sameNext := congrArg (·.topology.nextNodeId) built.untouched
  have runsAt : ∀ node ∈ spec.nodes, ∃ runtime,
      Runs b.store b.topology node (place node.id) runtime := by
    intro node member
    obtain ⟨runtime, runs, -⟩ := nodesBuilt.runs node member
    exact ⟨runtime, runs_congr runs sameNodes sameIds sameNext⟩
  obtain ⟨node, member, rfl⟩ := mem_nodeIds known
  obtain ⟨runtime, runs, indexed⟩ := nodesBuilt.runs node member
  have runs := runs_congr runs sameNodes sameIds sameNext
  refine ⟨runtime, fetch_some runs.filed,
    fetch_some ((congrArg (find _ ·.nodeById) built.untouched).trans indexed), ?_, runs.stored⟩
  refine findNodeById_placed ((congrArg (·.topology.nodes) built.untouched).trans nodesBuilt.nodes)
    runsAt (fun node member other inside same => ?_) member runs.filed
  exact nodesBuilt.idsDistinct node member other inside (by rwa [← sameIds])

section Edge

variable (shaped : Shaped spec) (member : edge ∈ spec.edges)
  (fresh : edge.id ∉ done.map EdgeSpec.id) (built : EdgesBuilt place start done channelAt b)
  (contracted : find edge.id validated.edgeContracts = some contract)
include shaped member fresh built contracted

include ready in
theorem carryEdge_builds (reused : reuseFrom options options.reusedEdges edge.id = some base) :
    ∃ next, buildEdge options b edge = .ok next ∧ ∃ channelAt',
      EdgesBuilt place start (done ++ [edge]) channelAt' next := by
  obtain ⟨based, listed⟩ := reuseFrom_some.mp reused
  have evolves := Store.evolves_trans nodesBuilt.evolves (built.evolves)
  have coherent := coherent_evolves evolves (ready.coherent base based)
  obtain ⟨old, oldMember, oldNamed, sameFrom, sameTo, fromReused, toReused, plane⟩ :=
    ready.edges base based edge member listed
  obtain ⟨channel, before, stored, named, foundBefore, same, producer, consumer⟩ :=
    (coherent.carries old oldMember).exists_channel
  have located : base.findEdge b.store edge.id = some (baseChannel edge.id) := by
    rw [← oldNamed]
    exact findEdge_coherent coherent oldMember
  rw [oldNamed] at stored foundBefore
  have current := built.contracted nodesBuilt contracted
  have samePlane := sameDataPlane_trans same (plane before contract foundBefore contracted)
  obtain ⟨source, fetchSource, -⟩ := endpoint_built nodesBuilt built (shaped.fromKnown edge member)
  obtain ⟨target, fetchTarget, -, locatedTarget, storedTarget⟩ :=
    endpoint_built nodesBuilt built (shaped.toKnown edge member)
  obtain ⟨next, connected, nextStore, nextTopology, nextIndex⟩ :=
    connectEdge_ok edge contract source.id (baseChannel edge.id) locatedTarget storedTarget
  refine ⟨next, ?_, update channelAt edge.id (baseChannel edge.id), ?_⟩
  · simp only [buildEdge, fetch_some current, reused, carryEdge, located, load, stored, samePlane,
      fetchSource, fetchTarget, bind, Except.bind, Bool.true_eq_false, ↓reduceIte, connected]
  · refine edgesBuilt_extend built fresh ?_ (fun _ _ found => by rw [nextStore, found])
      (by rw [nextTopology]) ?_
    · simp only [outsideEdges, nextStore, nextTopology, nextIndex]
    · rw [nextStore, nextTopology]
      refine ⟨channel, contract, stored, named.trans oldNamed, current, samePlane, ?_, ?_⟩
      · obtain ⟨node, inside, nodeNamed⟩ := mem_nodeIds (shaped.fromKnown edge member)
        have carried := (nodesBuilt.carried node inside base
          (reuseFrom_some.mpr ⟨based, nodeNamed ▸ fromReused⟩)).1
        rw [producer, sameFrom, ← nodeNamed, carried]
      · obtain ⟨node, inside, nodeNamed⟩ := mem_nodeIds (shaped.toKnown edge member)
        have carried := (nodesBuilt.carried node inside base
          (reuseFrom_some.mpr ⟨based, nodeNamed ▸ toReused⟩)).1
        rw [consumer, sameTo, ← nodeNamed, carried]

theorem createEdge_builds (notReused : reuseFrom options options.reusedEdges edge.id = none) :
    ∃ next, buildEdge options b edge = .ok next ∧ ∃ channelAt',
      EdgesBuilt place start (done ++ [edge]) channelAt' next := by
  have current := built.contracted nodesBuilt contracted
  obtain ⟨source, fetchSource, producer, -⟩ :=
    endpoint_built nodesBuilt built (shaped.fromKnown edge member)
  obtain ⟨target, fetchTarget, consumer, locatedTarget, storedTarget⟩ :=
    endpoint_built nodesBuilt built (shaped.toKnown edge member)
  simp only [buildEdge, fetch_some current, notReused, fetchSource, fetchTarget, createEdge,
    producer, consumer, bind, Except.bind]
  -- The target is looked up after the channel was allocated.
  generalize allocated : ({ b with
    store := { b.store with channels := b.store.channels ++ [{
      id := b.topology.nextEdgeId
      externalId := edge.id
      contract := contract
      config := ⟨max edge.queue.capacity 1, edge.queue.policy, contract.syncPolicy⟩
      fromPort := edge.fromPort
      toPort := edge.toPort
      producer := place edge.fromPort.nodeId
      consumer := place edge.toPort.nodeId }] }
    topology := { b.topology with
      nextEdgeId := b.topology.nextEdgeId + 1
      newEdges := b.topology.newEdges ++ [b.store.channels.length] } } : Building) = grown
  have locatedAgain : grown.topology.findNodeById grown.store target.id =
      some (place edge.toPort.nodeId) := by
    subst allocated
    exact locatedTarget
  have storedAgain : grown.store.nodes[place edge.toPort.nodeId]? = some target := by
    subst allocated
    exact storedTarget
  obtain ⟨next, connected, nextStore, nextTopology, nextIndex⟩ :=
    connectEdge_ok edge contract source.id b.store.channels.length locatedAgain storedAgain
  refine ⟨next, connected, update channelAt edge.id b.store.channels.length, ?_⟩
  subst allocated
  refine edgesBuilt_extend built fresh ?_ ?_ (by rw [nextTopology]) ?_
  · simp only [outsideEdges, nextStore, nextTopology, nextIndex]
  · intro r old found
    rw [nextStore]
    exact getElem_append_old found
  · rw [nextStore, nextTopology]
    exact ⟨_, contract, getElem?_concat_length, rfl, current, sameDataPlane_refl _, rfl, rfl⟩

end Edge

include ready in
theorem buildEdges_ok (shaped : Shaped spec)
    (contracted : ∀ edge ∈ spec.edges, (find edge.id validated.edgeContracts).isSome = true) :
    ∃ b, spec.edges.foldlM (buildEdge options) start = .ok b ∧
      ∃ channelAt, EdgesBuilt place start spec.edges channelAt b := by
  apply foldlM_completes (fun done b => ∃ channelAt, EdgesBuilt place start done channelAt b)
  · rintro done edge rest b split ⟨channelAt, built⟩
    have member : edge ∈ spec.edges := by simp [split]
    have fresh := fresh_of_split shaped.edgeIdsDistinct split
    obtain ⟨contract, found⟩ := isSome_iff_exists.mp (contracted edge member)
    cases reused : reuseFrom options options.reusedEdges edge.id with
    | some base => exact carryEdge_builds ready nodesBuilt shaped member fresh built found reused
    | none => exact createEdge_builds nodesBuilt shaped member fresh built found reused
  · exact ⟨fun _ => 0, rfl, fun _ _ found => found,
      congrArg (·.topology.edges) nodesBuilt.untouched, nofun⟩

end Edges

section Inputs

variable {start middle : Building} {done : List NodeSpec}

def outsideInputs (b : Building) : Building :=
  { b with
    store := { b.store with bindings := [] }
    topology := { b.topology with inputs := [], rebinds := [] } }

/-- The state of the binding loop after the nodes `done`; `middle` is where the
edge loop ended. -/
structure InputsBuilt (middle : Building) (done : List NodeSpec) (b : Building) : Prop where
  untouched : outsideInputs b = outsideInputs middle
  bindings : middle.store.bindings.length ≤ b.store.bindings.length
  inputs : ∀ node ∈ done, ∀ id, find node.id middle.topology.nodeIds = some id →
    ∃ ref, find id b.topology.inputs = some ref ∧ ref < b.store.bindings.length

theorem inputsBuilt_extend {next : Building} {id : Nat} {ref : BindingRef}
    (built : InputsBuilt middle done b) (filed : find node.id middle.topology.nodeIds = some id)
    (untouched : outsideInputs next = outsideInputs b)
    (bindings : b.store.bindings.length ≤ next.store.bindings.length)
    (inputs : next.topology.inputs = assign id ref b.topology.inputs)
    (bound : ref < next.store.bindings.length) : InputsBuilt middle (done ++ [node]) next := by
  constructor
  · exact untouched.trans built.untouched
  · exact built.bindings.trans bindings
  · intro other member otherId otherFiled
    rw [inputs, find_assign]
    by_cases same : otherId = id
    · rw [if_pos same]
      exact ⟨ref, rfl, bound⟩
    · rw [if_neg same]
      rcases mem_append.mp member with old | new
      · obtain ⟨oldRef, found, oldBound⟩ := built.inputs other old otherId otherFiled
        exact ⟨oldRef, found, oldBound.trans_le bindings⟩
      · rw [mem_singleton.mp new, filed, some.injEq] at otherFiled
        exact absurd otherFiled.symm same

variable (nodesBuilt : NodesBuilt factory options store spec validated basePlace spec.nodes place start)
  (edgesBuilt : EdgesBuilt place start spec.edges channelAt middle)
include ready nodesBuilt edgesBuilt

theorem buildInput_builds (member : node ∈ spec.nodes) (built : InputsBuilt middle done b) :
    ∃ next, buildInput options b (place node.id) = .ok next ∧
      InputsBuilt middle (done ++ [node]) next := by
  obtain ⟨runtime, runs, -⟩ := nodesBuilt.runs node member
  have stored : b.store.nodes[place node.id]? = some runtime :=
    (congrArg (·.store.nodes[place node.id]?) built.untouched).trans
      ((congrArg (·.store.nodes[place node.id]?) edgesBuilt.untouched).trans runs.stored)
  have filed : find node.id middle.topology.nodeIds = some runtime.id :=
    (congrArg (find node.id ·.topology.nodeIds) edgesBuilt.untouched).trans runs.filed
  unfold buildInput
  simp only [load, stored, bind, Except.bind, runs.named]
  cases reused : reuseFrom options options.reusedNodes node.id with
  | none =>
    exact ⟨_, rfl, inputsBuilt_extend built filed rfl (by simp) rfl (by simp)⟩
  | some base =>
    obtain ⟨based, listed⟩ := reuseFrom_some.mp reused
    have coherent := ready.coherent base based
    obtain ⟨old, oldMember, oldNamed, -⟩ := ready.nodes base based node member listed
    have baseFiled : find old.id base.nodeIds = some runtime.id := by
      rw [oldNamed, ← (nodesBuilt.carried node member base reused).2, runs.filed]
    obtain ⟨ref, found, bound⟩ := coherent.inputs old oldMember runtime.id baseFiled
    have inStore := ((nodesBuilt.evolves.bindings ref bound |> edgesBuilt.evolves.bindings ref).trans_le
      built.bindings)
    simp only [found, getElem?_eq_getElem inStore]
    exact ⟨_, rfl, inputsBuilt_extend built filed rfl (Nat.le_refl _) rfl inStore⟩

theorem buildInputs_ok : ∃ b, middle.topology.nodes.foldlM (buildInput options) middle = .ok b ∧
      InputsBuilt middle spec.nodes b := by
  have listed : middle.topology.nodes = spec.nodes.map fun node => place node.id :=
    (congrArg (·.topology.nodes) edgesBuilt.untouched).trans nodesBuilt.nodes
  rw [listed, foldlM_map]
  apply foldlM_completes (InputsBuilt middle)
  · intro done node rest b split built
    have member : node ∈ spec.nodes := by simp [split]
    exact buildInput_builds ready nodesBuilt edgesBuilt member built
  · exact ⟨rfl, Nat.le_refl _, nofun⟩

end Inputs

/-- What a successful build says about the nodes: carried ones keep their
runtime, the others are created from the candidate. -/
structure Populated (factory : OperatorFactory) (options : BuildOptions) (store : Store)
    (spec : GraphSpec) (validated : ValidatedGraph) (basePlace : String → NodeRef) (after : Store)
    (topology : RuntimeTopology) (place : String → NodeRef) : Prop where
  evolves : store.Evolves after
  grown : Grown store after topology.newNodes
  ordered : topology.order = validated.topologicalOrder
  carried : ∀ node ∈ spec.nodes, ∀ base,
    reuseFrom options options.reusedNodes node.id = some base → place node.id = basePlace node.id
  created : ∀ node ∈ spec.nodes, reuseFrom options options.reusedNodes node.id = none →
    store.nodes.length ≤ place node.id ∧
    ∃ id cap, factory.describe node.op = some cap ∧ after.nodes[place node.id]? =
      some (.create id node.id node.op cap node.options node.parallelism)

include ready in
/-- A build on a coherent base either stops where the factory refuses a new node
or yields a coherent topology. -/
theorem build_outcome (shaped : Shaped spec)
    (described : ∀ node ∈ spec.nodes, (factory.describe node.op).isSome = true)
    (contracted : ∀ edge ∈ spec.edges, (find edge.id validated.edgeContracts).isSome = true) :
    (∃ error, build factory options store spec validated = .error error ∧
      Refused factory options spec error) ∨
    ∃ after topology, build factory options store spec validated = .ok (after, topology) ∧
      topology.spec = spec ∧ topology.validated = validated ∧
      ∃ place channelAt, Coherent after topology place channelAt ∧
        Populated factory options store spec validated basePlace after topology place := by
  unfold build
  rcases buildNodes_outcome ready shaped described with
    ⟨error, failed, refused⟩ | ⟨start, ran, place, nodesBuilt⟩
  · refine Or.inl ⟨error, ?_, refused⟩
    rw [failed]
    rfl
  · obtain ⟨middle, ranEdges, channelAt, edgesBuilt⟩ :=
      buildEdges_ok ready nodesBuilt shaped contracted
    obtain ⟨last, ranInputs, inputsBuilt⟩ := buildInputs_ok ready nodesBuilt edgesBuilt
    simp only [ran, ranEdges, ranInputs, bind, Except.bind]
    have same : outsideInputs (outsideEdges last) = outsideInputs (outsideEdges start) :=
      (congrArg outsideEdges inputsBuilt.untouched).trans
        (congrArg outsideInputs edgesBuilt.untouched)
    have nodesAre : last.store.nodes = start.store.nodes := congrArg (·.store.nodes) same
    have idsAre : last.topology.nodeIds = start.topology.nodeIds :=
      congrArg (·.topology.nodeIds) same
    have specIs : last.topology.spec = spec :=
      (congrArg (·.topology.spec) same).trans (congrArg (·.topology.spec) nodesBuilt.untouched)
    have evolves : store.Evolves last.store := by
      refine Store.evolves_trans nodesBuilt.evolves (Store.evolves_trans edgesBuilt.evolves
        ⟨fun ref node found => ⟨node, ?_, rfl⟩, fun ref channel found => ?_,
          fun ref bound => bound.trans_le inputsBuilt.bindings⟩)
      · exact (congrArg (·.store.nodes[ref]?) inputsBuilt.untouched).trans found
      · exact (congrArg (·.store.channels[ref]?) inputsBuilt.untouched).trans found
    subst specIs
    right
    refine ⟨last.store, last.topology, rfl, rfl, ?_, place, channelAt, ?_,
      ⟨evolves, ?_, ?_, ?_, ?_⟩⟩
    · exact (congrArg (·.topology.validated) same).trans
        (congrArg (·.topology.validated) nodesBuilt.untouched)
    · constructor
      · exact shaped
      · exact (congrArg (·.topology.nodes) same).trans nodesBuilt.nodes
      · intro node member
        obtain ⟨runtime, runs, -⟩ := nodesBuilt.runs node member
        exact ⟨runtime, runs_congr runs nodesAre idsAre (congrArg (·.topology.nextNodeId) same)⟩
      · rw [idsAre]
        exact nodesBuilt.idsDistinct
      · rw [idsAre]
        exact nodesBuilt.known
      · exact (congrArg (·.topology.edges) inputsBuilt.untouched).trans edgesBuilt.edges
      · intro edge member
        obtain ⟨channel, contract, stored, named, found, rest⟩ :=
          (edgesBuilt.carries edge member).exists_channel
        exact ⟨channel, contract,
          (congrArg (·.store.channels[channelAt edge.id]?) inputsBuilt.untouched).trans stored, named,
          (congrArg (find edge.id ·.topology.validated.edgeContracts) inputsBuilt.untouched).trans
            found, rest⟩
      · rw [show last.topology.nodeIds = middle.topology.nodeIds from
          congrArg (·.topology.nodeIds) inputsBuilt.untouched]
        exact inputsBuilt.inputs
    · obtain ⟨made, nodes, refs, fresh⟩ := nodesBuilt.grown
      exact ⟨made, nodesAre.trans nodes, (congrArg (·.topology.newNodes) same).trans refs, fresh⟩
    · exact (congrArg (·.topology.order) same).trans
        (congrArg (·.topology.order) nodesBuilt.untouched)
    · exact fun node member base reused => (nodesBuilt.carried node member base reused).1
    · intro node member fresh
      obtain ⟨high, id, cap, -, describes, stored⟩ := nodesBuilt.created node member fresh
      exact ⟨high, id, cap, describes, nodesAre ▸ stored⟩

end GraphEngine.TopologyCoherence
