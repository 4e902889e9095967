import GraphEngine.SessionRuns

/-!
What the nodes of a running session are: created from the version that gave the
id its operator, with the options and the parallelism of that version, and tuned
since then by updates of hot-updatable parameters only. A later version that
lists other options for the same operator reuses the runtime as it is.
-/

namespace GraphEngine.SessionParameters

open Runs Values GraphSpecs Capabilities OrderedMaps Ledgers Validation NodeRuntimes
  TopologyCoherence TopologyChains Sessions SessionLeases SessionStores SessionRuns List

/-- An update of hot-updatable parameters only. -/
def Hot (cap : CapabilityDescriptor) (update : JsonObject) : Prop :=
  ∀ key ∈ keys update, key ∈ cap.parameters.hotUpdatable

def replay (updates : List JsonObject) (values : JsonObject) : JsonObject :=
  updates.foldl (fun current update => overlay update current) values

/-- The current values are the creation options under hot updates, and so are the
pending ones on top of them. -/
structure Tuned (node : NodeRuntime) : Prop where
  current : ∃ updates, (∀ update ∈ updates, Hot node.capability update) ∧
    node.parameters.current.values = replay updates node.options.asObject
  pending : ∀ next, node.parameters.pending = some next → ∃ update, Hot node.capability update ∧
    next.values = overlay update node.parameters.current.values
  queued : ∀ request ∈ node.parameters.queued, Hot node.capability request.values.asObject

variable {node : NodeRuntime} {machine : Machine}

theorem fresh_tuned (fresh : Fresh node) : Tuned node := by
  obtain ⟨parameters, -⟩ := fresh
  constructor
  · exact ⟨[], nofun, by rw [parameters]; rfl⟩
  · intro next found
    rw [parameters] at found
    cases found
  · intro request member
    rw [parameters] at member
    cases member

section Promotions

variable (node) (current : ∃ updates, (∀ update ∈ updates, Hot node.capability update) ∧
    node.parameters.current.values = replay updates node.options.asObject)
  (idle : node.parameters.pending = none)
include current idle

theorem promote_tuned (queue : List ParameterUpdateRequest)
    (hot : ∀ request ∈ queue, Hot node.capability request.values.asObject) :
    Tuned { node with parameters := node.parameters.promote queue } := by
  induction queue with
  | nil =>
    refine ⟨current, ?_, nofun⟩
    intro next found
    rw [ParameterStore.promote, idle] at found
    cases found
  | cons request rest ih =>
    obtain ⟨first, hot⟩ := forall_mem_cons.mp hot
    unfold ParameterStore.promote
    split
    · refine ⟨current, ?_, hot⟩
      rintro _ ⟨⟩
      exact ⟨request.values.asObject, first, rfl⟩
    · exact ih hot

theorem promoteQueued_tuned
    (hot : ∀ request ∈ node.parameters.queued, Hot node.capability request.values.asObject) :
    Tuned { node with parameters := node.parameters.promoteQueued } := by
  unfold ParameterStore.promoteQueued
  rw [idle]
  exact promote_tuned node current idle node.parameters.queued hot

end Promotions

theorem submitTo_tuned (request : ParameterUpdateRequest) (tuned : Tuned node) :
    Tuned (submitTo request node) := by
  unfold submitTo
  split
  · next parameters version submitted =>
      unfold ParameterStore.submit at submitted
      split at submitted
      · cases submitted
      split at submitted
      · cases submitted
      rename_i allowed
      have hot : Hot node.capability request.values.asObject := by
        intro key member
        have checked := find?_eq_none.mp allowed key member
        simpa using checked
      split at submitted
      · next pending waiting =>
          cases submitted
          refine ⟨tuned.current, tuned.pending, ?_⟩
          exact forall_mem_append.mpr ⟨tuned.queued, forall_mem_singleton.mpr hot⟩
      · cases submitted
        refine ⟨tuned.current, ?_, tuned.queued⟩
        rintro _ ⟨⟩
        exact ⟨request.values.asObject, hot, rfl⟩
  · exact tuned

theorem switch_tuned (seq : Nat) (tuned : Tuned node) :
    Tuned { node with parameters := node.parameters.switchAtPacketBoundary seq } := by
  unfold ParameterStore.switchAtPacketBoundary
  split
  · exact tuned
  rename_i next found
  obtain ⟨updates, hot, current⟩ := tuned.current
  obtain ⟨update, hotUpdate, values⟩ := tuned.pending next found
  refine promoteQueued_tuned { node with parameters := { node.parameters with
    current := { next with effectiveAfterSeq := seq }, pending := none } }
    ⟨updates ++ [update], ?_, ?_⟩ rfl tuned.queued
  · exact forall_mem_append.mpr ⟨hot, forall_mem_singleton.mpr hotUpdate⟩
  · simp only [replay, foldl_append]
    rw [values, current]
    rfl

theorem rejectPending_tuned (tuned : Tuned node) :
    Tuned { node with parameters := node.parameters.rejectPending } :=
  promoteQueued_tuned { node with parameters := { node.parameters with pending := none } }
    tuned.current rfl tuned.queued

theorem lives_tuned {later : NodeRuntime} (lives : Lives node later) (tuned : Tuned node) :
    Tuned later := by
  cases lives with
  | submit request => exact submitTo_tuned request tuned
  | boundary seq => exact switch_tuned seq tuned
  | reject => exact rejectPending_tuned tuned
  | move state onwards => exact { tuned with }

/-! The same for every node of a store. -/

def AllTuned (store : Store) : Prop :=
  ∀ (ref : NodeRef) node, store.nodes[ref]? = some node → Tuned node

theorem grown_tuned {before after : Store} {newNodes : List NodeRef}
    (grown : Grown before after newNodes) (tuned : AllTuned before) : AllTuned after := by
  obtain ⟨made, nodes, -, fresh⟩ := grown
  intro ref node stored
  rw [nodes] at stored
  rcases mem_append.mp (mem_of_getElem? stored) with old | new
  · obtain ⟨oldRef, found⟩ := mem_iff_getElem?.mp old
    exact tuned oldRef node found
  · exact fresh_tuned (fresh node new)

theorem restated_tuned {touched : NodeRef → Prop} {before after : Store}
    (restated : Restated touched before after) (tuned : AllTuned before) : AllTuned after := by
  intro ref node stored
  have same := restated.settled ref
  rw [stored] at same
  obtain ⟨old, found, equal⟩ := Option.map_eq_some_iff.mp same.symm
  have settledTuned : Tuned (settled old) := { tuned ref old found with }
  rw [equal] at settledTuned
  exact { settledTuned with }

theorem updateNode_tuned {store : Store} {ref : NodeRef} {change : NodeRuntime → NodeRuntime}
    (keeps : ∀ node, Tuned node → Tuned (change node)) (tuned : AllTuned store) :
    AllTuned (updateNode store ref change) := by
  intro other node stored
  rw [getElem?_updateNode] at stored
  split at stored
  · obtain ⟨old, found, rfl⟩ := Option.map_eq_some_iff.mp stored
    exact keeps old (tuned other old found)
  · exact tuned other node stored

theorem submitUpdates_tuned (updates : List (NodeRef × ParameterUpdateRequest)) {store : Store}
    (tuned : AllTuned store) : AllTuned (submitUpdates updates store) := by
  exact foldlRecOn updates _ tuned fun _ tuned update _ =>
    updateNode_tuned (fun _ => submitTo_tuned update.2) tuned

theorem withdraw_tuned {session : Session} (prepared : Prepared) (tuned : AllTuned session.store) :
    AllTuned (withdraw prepared session).store := by
  rw [withdraw_frame]
  exact restated_tuned (abandonCandidate_restated prepared.candidate session.store) tuned

variable {estimate : NodeResourceEstimator} {before after : Machine}

theorem step_tuned (consistent : Consistent before) (tuned : AllTuned before.session.store)
    (step : Step estimate before after) : AllTuned after.session.store := by
  cases step with
  | reject priced refused =>
    rcases prepareCandidate_error refused with
      rfl | ⟨candidate, validated, store, topology, accepted, built, rfl⟩
    · exact tuned
    · obtain ⟨-, -, -, -, grown, -⟩ := next_version consistent.ready.chain accepted built
      exact restated_tuned (abandonCandidate_restated topology store) (grown_tuned grown tuned)
  | prepare priced accepts current admitted =>
    obtain ⟨validated, store, reserved, admitted⟩ := prepareCandidate_ok admitted
    obtain ⟨-, -, -, -, grown, -⟩ :=
      next_version consistent.ready.chain admitted.accepted admitted.built
    rw [admitted.result]
    exact grown_tuned grown tuned
  | refuse refused =>
    obtain ⟨store, opened, rfl⟩ := warmUp_error refused
    exact withdraw_tuned _ (restated_tuned (openNodes_restated opened) tuned)
  | warm warmed =>
    obtain ⟨store, opened, rfl⟩ := warmUp_ok warmed
    exact restated_tuned (openNodes_restated opened) tuned
  | commit committed =>
    rcases commit_cases committed with
      ⟨status, -, -, rfl⟩ | ⟨updates, -, ⟨-, -, rfl⟩ | ⟨-, -, retirement, -, rfl⟩⟩
    · exact withdraw_tuned _ tuned
    · exact withdraw_tuned _ (submitUpdates_tuned updates tuned)
    · intro ref node stored
      rw [applyRebinds_nodes] at stored
      exact submitUpdates_tuned updates tuned ref node stored
  | retire member =>
    rw [completeRetirement, returnResources_frame]
    exact tuned
  | live ref change lives => exact updateNode_tuned (fun node => lives_tuned (lives node)) tuned
  | bind bindings same | control state stopping | share ledger => exact tuned

theorem started_tuned (started : Started estimate machine) : AllTuned machine.session.store := by
  obtain ⟨-, created, started⟩ := started
  obtain ⟨-, -, validated, accepted, built, -⟩ := create_ok created
  obtain ⟨store, opened, rfl⟩ := start_ok started
  obtain ⟨-, -, -, -, grown⟩ := first_version rfl accepted built
  exact restated_tuned (openNodes_restated opened) (grown_tuned grown nofun)

theorem reachable_tuned (reached : Reachable (Started estimate) (Step estimate) machine) :
    AllTuned machine.session.store :=
  reachable_invariant (fun machine => AllTuned machine.session.store)
    (fun _ started => started_tuned started)
    (fun _ _ reached tuned step => step_tuned (reachable_consistent reached) tuned step) reached

/-- In every reachable state each node of the running topology runs the operator
its graph lists. Its options and its parallelism are those of the version that
added the id or gave it that operator (migrated values included), and its current
parameters are these options under the hot updates since. -/
theorem running_nodes_originate (reached : Reachable (Started estimate) (Step estimate) machine) :
    machine.history.head? = some machine.session.topology.spec ∧
      ∀ node ∈ machine.session.topology.spec.nodes, ∃ ref runtime origin updates,
        machine.session.topology.findNode machine.session.store node.id = some ref ∧
        machine.session.store.nodes[ref]? = some runtime ∧
        createdFrom node.id machine.history = some origin ∧ origin.op = node.op ∧
        runtime.key = node.op ∧ runtime.options = origin.options ∧ runtime.maxParallelism =
          clampParallelism runtime.capability.execution origin.parallelism ∧
        (∀ update ∈ updates, Hot runtime.capability update) ∧
        runtime.parameters.current.values = replay updates origin.options.asObject := by
  have consistent := reachable_consistent reached
  obtain ⟨place, channelAt, sound⟩ := chain_sound consistent.ready.chain
  refine ⟨sound.current, ?_⟩
  intro node member
  obtain ⟨runtime, origin, stored, since, sameOp, key, options, parallelism⟩ :=
    (sound.origins node member).exists_origin
  obtain ⟨updates, hot, current⟩ := (reachable_tuned reached _ runtime stored).current
  rw [options] at current
  exact ⟨place node.id, runtime, origin, updates, findNode_coherent sound.coherent member, stored,
    since, sameOp, key, options, parallelism, hot, current⟩

/-- A published version lists what the running one lists for every id that keeps
its operator. -/
def Faithful (before after : Machine) : Prop :=
  ∀ candidate, after.history = candidate :: before.history → ∀ node ∈ candidate.nodes,
    ∀ old ∈ before.session.topology.spec.nodes, old.id = node.id → old.op = node.op →
      old.options = node.options ∧ old.parallelism = node.parallelism

/-- Every node is listed as it was when it was created. -/
def Unaltered (history : List GraphSpec) : Prop :=
  ∀ spec ∈ history.head?, ∀ node ∈ spec.nodes, ∀ origin,
    createdFrom node.id history = some origin →
      origin.options = node.options ∧ origin.parallelism = node.parallelism

theorem faithful_unaltered {candidate : GraphSpec}
    (running : before.history.head? = some before.session.topology.spec)
    (distinct : candidate.nodeIds.Nodup) (grows : after.history = candidate :: before.history)
    (faithful : Faithful before after) (unaltered : Unaltered before.history) :
    Unaltered after.history := by
  rw [grows]
  rintro _ ⟨⟩ node member origin since
  unfold createdFrom at since
  rw [findNode_member distinct member, running, Option.bind_some] at since
  cases found : before.session.topology.spec.findNode node.id with
  | none =>
    rw [found] at since
    cases since
    exact ⟨rfl, rfl⟩
  | some old =>
    rw [found] at since
    obtain ⟨oldMember, named⟩ := KeyedLists.lookup_some found
    dsimp only at since
    split at since
    · next sameOp =>
        obtain ⟨options, parallelism⟩ :=
          unaltered _ (running ▸ rfl) old oldMember origin (named ▸ since)
        obtain ⟨listed, slots⟩ := faithful candidate grows node member old oldMember named sameOp
        exact ⟨options.trans listed, parallelism.trans slots⟩
    · cases since
      exact ⟨rfl, rfl⟩

theorem step_history (step : Step estimate before after) :
    after.history = before.history ∨ ∃ candidate, after.history = candidate :: before.history := by
  cases step with
  | commit committed =>
    split
    · exact .inl rfl
    · exact .inr ⟨_, rfl⟩
  | _ => exact .inl rfl

theorem running_head (consistent : Consistent machine) :
    machine.history.head? = some machine.session.topology.spec := by
  obtain ⟨place, channelAt, sound⟩ := chain_sound consistent.ready.chain
  exact sound.current

theorem faithful_run_unaltered
    (reached : Reachable (Started estimate) (Under Faithful (Step estimate)) machine) :
    Unaltered machine.history := by
  refine reachable_invariant (fun machine => Unaltered machine.history) ?_ ?_ reached
  · rintro machine ⟨-, created, started⟩
    rintro _ ⟨⟩ node member origin since
    obtain ⟨-, -, validated, accepted, -, -⟩ := create_ok created
    unfold createdFrom at since
    rw [findNode_member (validate_accepted accepted).nodeIdsDistinct member] at since
    cases since
    exact ⟨rfl, rfl⟩
  · rintro before after reached unaltered ⟨step, faithful⟩
    have consistent := reachable_consistent (reachable_of_under reached)
    rcases step_history step with same | ⟨candidate, grows⟩
    · rw [same]
      exact unaltered
    · have later := step_consistent consistent step
      have current := running_head later
      rw [grows, head?_cons, Option.some.injEq] at current
      obtain ⟨place, channelAt, sound⟩ := chain_sound later.ready.chain
      exact faithful_unaltered (running_head consistent)
        (current ▸ sound.coherent.shaped.nodeIdsDistinct) grows faithful unaltered

/-- In every run whose publications list unchanged options and parallelism for
the ids that keep their operator, the running nodes are what the graph says. -/
theorem faithful_run_matches_graph {estimate : NodeResourceEstimator} {machine : Machine}
    (reached : Reachable (Started estimate) (Under Faithful (Step estimate)) machine) :
    ∀ node ∈ machine.session.topology.spec.nodes, ∃ ref runtime updates,
      machine.session.topology.findNode machine.session.store node.id = some ref ∧
      machine.session.store.nodes[ref]? = some runtime ∧ runtime.key = node.op ∧
      runtime.options = node.options ∧
      runtime.maxParallelism = clampParallelism runtime.capability.execution node.parallelism ∧
      (∀ update ∈ updates, Hot runtime.capability update) ∧
      runtime.parameters.current.values = replay updates node.options.asObject := by
  intro node member
  obtain ⟨current, originates⟩ := running_nodes_originate (reachable_of_under reached)
  obtain ⟨ref, runtime, origin, updates, located, stored, since, -, key, options, parallelism, hot,
    values⟩ := originates node member
  obtain ⟨sameOptions, sameParallelism⟩ :=
    faithful_run_unaltered reached _ current node member origin since
  rw [sameOptions] at options values
  rw [sameParallelism] at parallelism
  exact ⟨ref, runtime, updates, located, stored, key, options, parallelism, hot, values⟩

def quietPipeline : GraphSpec where
  name := "pipeline"
  nodes := directPipeline.nodes ++
    [{ id := "filter", op := ⟨"Filter", "1"⟩, options := .object [("gain", .integer 1)] }]
  edges := filteredPipeline.edges

def quietSession : Session := pipelineSession none quietPipeline

def turnUp (node : NodeRuntime) : NodeRuntime := submitTo ⟨7, .object [("gain", .integer 5)]⟩ node

def passPacket (node : NodeRuntime) : NodeRuntime :=
  { node with parameters := node.parameters.switchAtPacketBoundary 12 }

def tunedSession : Session :=
  { quietSession with
    store := updateNode (updateNode quietSession.store 2 turnUp) 2 passPacket }

/-- The filter is replaced by another version of it. -/
def renewed : Merged where
  patch := { actions := [.replaceNode {
    node := "filter"
    replacementOp := ⟨"Filter", "2"⟩
    replacementOptions := .object [("gain", .integer 3)] }] }

def renewedSession : Session :=
  retireOldest (mutate renewed tunedSession).2

def renewedChanges : Result Applier.CandidateSpec :=
  applyPatch pipelineEngine.factory.describe tunedSession.store tunedSession.topology renewed.patch

theorem renewed_faithful {before after : Machine} {changes : Applier.CandidateSpec}
    (applied : renewedChanges = .ok changes)
    (running : before.session.topology = tunedSession.topology)
    (grows : after.history = changes.candidate :: before.history) : Faithful before after := by
  have unaltered : renewedChanges.toOption.all (fun changes => ∀ node ∈ changes.candidate.nodes,
      ∀ old ∈ tunedSession.topology.spec.nodes, old.id = node.id → old.op = node.op →
        old.options = node.options ∧ old.parallelism = node.parallelism) = true := by
    decide +kernel
  rw [applied] at unaltered
  intro candidate grown
  obtain rfl : candidate = changes.candidate := (List.cons.inj (grown.symm.trans grows)).1
  rw [running]
  exact of_decide_eq_true unaltered

/-- The filter is turned up and then replaced; what runs in the end is what the graph lists. -/
theorem renewed_matches_graph :
    (mutate renewed tunedSession).1 = .published 2 ∧
      renewedSession.retiring = [] ∧ ∀ node ∈ renewedSession.topology.spec.nodes, ∃ ref runtime,
        renewedSession.topology.findNode renewedSession.store node.id = some ref ∧
        renewedSession.store.nodes[ref]? = some runtime ∧ runtime.key = node.op ∧
        runtime.options = node.options := by
  have still : ∀ before after : Machine, after.history = before.history → Faithful before after :=
    fun _ _ same candidate grows => absurd (same.symm.trans grows).symm (List.cons_ne_self _ _)
  have started : Reachable (Started pipelineEngine.estimate)
      (Under Faithful (Step pipelineEngine.estimate)) ⟨quietSession, none, [quietPipeline]⟩ :=
    .initial (pipelineSession_started (by decide))
  have submitted := started.next ⟨.live 2 turnUp fun _ => .submit _, still _ _ rfl⟩
  have switched := submitted.next
    ⟨.live 2 passPacket fun _ => .boundary _, still _ _ rfl⟩
  obtain ⟨later, executed⟩ := execute_reachable_under (fun _ _ => false) false renewed
    (fun _ _ _ => still _ _) (fun _ _ _ => still _ _ rfl)
    (fun _ _ _ _ prepares running _ grows => by
      obtain ⟨_, _, _, admits⟩ := prepareCandidate_ok prepares
      exact renewed_faithful admits.applied running grows) switched
  refine ⟨by decide +kernel, by decide +kernel, fun node member => ?_⟩
  obtain ⟨ref, runtime, -, located, stored, key, options, -⟩ :=
    faithful_run_matches_graph (retireOldest_reachable_under (fun _ _ _ => still _ _) executed)
      node member
  exact ⟨ref, runtime, located, stored, key, options⟩

/-- The filter is replaced by the same operator with another gain. -/
def louder : Merged where
  patch := { actions := [.replaceNode {
    node := "filter"
    replacementOp := ⟨"Filter", "1"⟩
    replacementOptions := .object [("gain", .integer 2)] }] }

def louderSession : Session :=
  retireOldest (mutate louder quietSession).2

/-- The graph lists the new gain; the filter goes on with the old one. -/
theorem louder_keeps_gain :
    ∃ history, Reachable (Started pipelineEngine.estimate) (Step pipelineEngine.estimate)
        ⟨louderSession, none, history⟩ ∧ louderSession.retiring = [] ∧
      (mutate louder quietSession).1 = .published 2 ∧
      ((louderSession.topology.spec.findNode "filter").map NodeSpec.options) =
        some (.object [("gain", .integer 2)]) ∧
      (((louderSession.topology.findNode louderSession.store "filter").bind
          (louderSession.store.nodes[·]?)).map
        fun runtime => (runtime.options, runtime.parameters.current.values)) =
        some (.object [("gain", .integer 1)], [("gain", .integer 1)]) := by
  have started : (launchPipeline none quietPipeline).toBool = true := by decide
  obtain ⟨history, published⟩ := execute_reachable (fun _ _ => false) false louder
    (Reachable.initial (pipelineSession_started started))
  exact ⟨history, retireOldest_reachable published, by decide, by decide, by decide, by decide⟩

end GraphEngine.SessionParameters
