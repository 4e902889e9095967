import GraphEngine.SessionRuns

/-!
What a failed or cancelled batch leaves behind. A candidate's nodes live above
the nodes of the session, and opening and abandoning it only touches those;
submitted parameters are the one effect on running nodes that is not taken back.
-/

namespace GraphEngine.SessionRollback

open Runs Values GraphSpecs KeyedLists OrderedMaps Ledgers Applier Validation
  StructuralDiff NodeRuntimes Topologies TopologyCoherence TopologyChains Sessions SessionLeases
  SessionStores SessionRuns List

def AgreeBelow (bound : Nat) (before after : Store) : Prop :=
  ∀ ref < bound, after.nodes[ref]? = before.nodes[ref]?

theorem agreeBelow_trans {bound : Nat} {first second third : Store}
    (left : AgreeBelow bound first second) (right : AgreeBelow bound second third) :
    AgreeBelow bound first third :=
  fun ref below => (right ref below).trans (left ref below)

/-- The session is as it was, and every node above its own is closed or failed. -/
structure Unchanged (before after : Session) : Prop where
  topology : after.topology = before.topology
  retiring : after.retiring = before.retiring
  lease : after.lease = before.lease
  nodes : AgreeBelow before.store.nodes.length before.store after.store
  ended : ∀ ref, before.store.nodes.length ≤ ref → Ended after.store ref

/-! Parameters that wait to take effect. -/

def backlog (node : NodeRuntime) : Nat :=
  node.parameters.queued.length + if node.parameters.pending.isSome then 1 else 0

def Takes (node : NodeRuntime) (values : JsonValue) : Prop :=
  values.isObject = true ∧
    ∀ key ∈ keys values.asObject, key ∈ node.capability.parameters.hotUpdatable

variable {node : NodeRuntime} {store : Store} {history : List GraphSpec}

theorem submitTo_backlog {request : ParameterUpdateRequest} (takes : Takes node request.values) :
    backlog (submitTo request node) = backlog node + 1 := by
  obtain ⟨isObject, hot⟩ := takes
  have allowed : (keys request.values.asObject).find?
      (· ∉ node.capability.parameters.hotUpdatable) = none := by
    simpa using hot
  unfold submitTo ParameterStore.submit
  rw [if_neg (by simp [isObject]), allowed]
  cases pending : node.parameters.pending with
  | none => simp [backlog, pending]
  | some waiting =>
    simp only [backlog, pending, length_append, length_singleton, Option.isSome_some, if_true]

theorem submitTo_takes {values : JsonValue} (request : ParameterUpdateRequest)
    (takes : Takes node values) : Takes (submitTo request node) values := by
  have same := submitTo_identity request node
  simp only [NodeRuntime.identity, Prod.mk.injEq] at same
  rw [Takes, same.2.2.2.1]
  exact takes

variable {updates : List (NodeRef × ParameterUpdateRequest)} {ref : NodeRef}

theorem submitUpdates_elsewhere (elsewhere : ∀ update ∈ updates, update.1 ≠ ref) (store : Store) :
    (submitUpdates updates store).nodes[ref]? = store.nodes[ref]? := by
  refine foldlRecOn (motive := fun later : Store => later.nodes[ref]? = store.nodes[ref]?)
    updates _ rfl fun later same update listed => ?_
  rw [getElem?_updateNode, if_neg (elsewhere update listed), same]

theorem submitUpdates_backlog (stored : store.nodes[ref]? = some node)
    (takes : ∀ update ∈ updates, update.1 = ref → Takes node update.2.values) :
    ∃ later, (submitUpdates updates store).nodes[ref]? = some later ∧
      backlog later = backlog node + updates.countP fun update => update.1 = ref := by
  induction updates generalizing store node with
  | nil => exact ⟨node, stored, rfl⟩
  | cons update rest ih =>
    obtain ⟨here, takes⟩ := forall_mem_cons.mp takes
    have moved := getElem?_updateNode store update.1 (submitTo update.2) ref
    by_cases same : update.1 = ref
    · rw [if_pos same, stored] at moved
      obtain ⟨later, found, grows⟩ := ih moved fun other member hits =>
        submitTo_takes update.2 (takes other member hits)
      rw [submitTo_backlog (here same)] at grows
      refine ⟨later, found, ?_⟩
      rw [countP_cons_of_pos (by simpa using same)]
      omega
    · rw [if_neg same, stored] at moved
      obtain ⟨later, found, grows⟩ := ih moved takes
      exact ⟨later, found, by rw [grows, countP_cons_of_neg (by simpa using same)]⟩

variable {candidate : RuntimeTopology}

theorem checkUpdate_ok {update : SetNodeOptionsAction}
    (done : checkUpdate candidate store update = .ok ref) :
    candidate.findNode store update.node = some ref ∧
      ∀ node, store.nodes[ref]? = some node → Takes node update.parameters := by
  unfold checkUpdate at done
  split at done
  · cases done
  rename_i found located
  split at done
  · cases done
  rename_i isObject
  split at done
  · cases done
  rename_i allowed
  cases done
  refine ⟨located, fun node stored => ⟨by simpa using isObject, ?_⟩⟩
  intro key member
  have hot := find?_eq_none.mp allowed key member
  simpa [stored] using hot

theorem checkUpdates_ok {operation : Nat} {updates : List SetNodeOptionsAction}
    {entries : List (NodeRef × ParameterUpdateRequest)}
    (done : checkUpdates candidate store operation updates = .ok entries) :
    (∀ update ∈ updates, ∃ entry ∈ entries, candidate.findNode store update.node = some entry.1) ∧
    ∀ entry ∈ entries, (∃ update ∈ updates, candidate.findNode store update.node = some entry.1) ∧
      ∀ node, store.nodes[entry.1]? = some node → Takes node entry.2.values := by
  obtain ⟨mapped, sources⟩ := Fallible.mapM_ok done
  constructor
  · intro update member
    obtain ⟨entry, listed, success⟩ := mapped update member
    obtain ⟨ref, found, rest⟩ := Fallible.bind_ok.mp success
    cases rest
    exact ⟨_, listed, (checkUpdate_ok found).1⟩
  · intro entry listed
    obtain ⟨update, member, success⟩ := sources entry listed
    obtain ⟨ref, found, rest⟩ := Fallible.bind_ok.mp success
    cases rest
    obtain ⟨located, takes⟩ := checkUpdate_ok found
    exact ⟨⟨update, member, located⟩, takes⟩

/-! Where a candidate's nodes are. -/

/-- The candidate of an admission: its new nodes lie above the session's, and its
other nodes are those the session runs. -/
structure Placed (session : Session) (prepared : Prepared) (store : Store) : Prop where
  grown : Grown session.store store prepared.candidate.newNodes
  located : ∀ id ref, prepared.candidate.findNode store id = some ref →
    (id ∈ prepared.diff.reusedNodes ∧ ref ∈ session.topology.nodes) ∨
      (id ∉ prepared.diff.reusedNodes ∧ session.store.nodes.length ≤ ref)
  listed : ∀ ref ∈ prepared.candidate.nodes,
    ref ∈ session.topology.nodes ∨ session.store.nodes.length ≤ ref

variable {topology : RuntimeTopology}

theorem build_placed {State : Type} {engine : Engine State} {after : Store} {base : RuntimeTopology}
    {candidate : GraphSpec} {validated : ValidatedGraph} {sessionId version : Nat}
    (chain : Chain history store base)
    (accepted : validate engine.negotiator engine.factory.describe engine.start candidate =
      .ok validated)
    (built : build engine.factory (mutationOptions sessionId version base candidate validated)
      store candidate validated = .ok (after, topology)) {id : String}
    (known : id ∈ candidate.nodeIds) : ∃ ref, topology.findNode after id = some ref ∧
      ((id ∈ (diffFrom base candidate validated).reusedNodes ∧ ref ∈ base.nodes) ∨
        (id ∉ (diffFrom base candidate validated).reusedNodes ∧ store.nodes.length ≤ ref)) := by
  obtain ⟨place, channelAt, sound⟩ := chain_sound chain
  have coherent := sound.coherent
  have shaped := accepted_shaped (validate_accepted accepted)
  obtain ⟨specIs, -, newPlace, newChannel, newCoherent, populated⟩ :=
    Fallible.outcome_ok (mutation_outcome sessionId version coherent accepted) built
  obtain ⟨node, member, rfl⟩ := mem_nodeIds known
  refine ⟨newPlace node.id, findNode_coherent newCoherent (specIs ▸ member), ?_⟩
  by_cases reused : node.id ∈ (diffFrom base candidate validated).reusedNodes
  · obtain ⟨old, -, foundOld, -⟩ :=
      (mem_reusedNodes coherent.shaped.nodeIdsDistinct shaped.nodeIdsDistinct).mp reused
    obtain ⟨oldMember, oldNamed⟩ := lookup_some foundOld
    have carried := populated.carried node member base (reuseFrom_some.mpr ⟨rfl, reused⟩)
    refine Or.inl ⟨reused, ?_⟩
    rw [carried, coherent.nodes]
    exact mem_map.mpr ⟨old, oldMember, by rw [oldNamed]⟩
  · refine Or.inr ⟨reused, (populated.created node member ?_).1⟩
    simp [reuseFrom, mutationOptions, reused]

variable {prepared : Prepared} {admitted : Session} {patch : MutationPatch}

theorem prepared_placed {State : Type} {engine : Engine State} {session : Session}
    (ready : Ready history session)
    (prepares : prepareCandidate engine patch session = (.ok prepared, admitted)) :
    Placed session prepared admitted.store := by
  obtain ⟨validated, store, reserved, admission⟩ := prepareCandidate_ok prepares
  obtain ⟨chain, specIs, -, -, grown, -⟩ :=
    next_version ready.chain admission.accepted admission.built
  obtain ⟨place, channelAt, sound⟩ := chain_sound chain
  have built := @build_placed _ _ _ _ _ _ _ _ _ _ _ ready.chain admission.accepted admission.built
  rw [← admission.diff, ← specIs] at built
  rw [admission.result]
  refine ⟨grown, ?_, ?_⟩
  · intro id ref located
    have known : id ∈ prepared.candidate.spec.nodeIds := by
      obtain ⟨nodeId, filed, -⟩ := Option.bind_eq_some_iff.mp located
      exact sound.coherent.known id (find_isSome.mp (filed ▸ rfl))
    obtain ⟨found, locatedAt, side⟩ := built known
    rw [located, Option.some.injEq] at locatedAt
    exact locatedAt ▸ side
  · intro ref listed
    rw [sound.coherent.nodes] at listed
    obtain ⟨node, member, rfl⟩ := mem_map.mp listed
    obtain ⟨found, locatedAt, side⟩ := built (mem_map.mpr ⟨node, member, rfl⟩)
    rw [findNode_coherent sound.coherent member, Option.some.injEq] at locatedAt
    rw [locatedAt]
    exact side.imp And.right And.right

variable {before : Store}

theorem grown_agrees {after : Store} {newNodes : List NodeRef}
    (grown : Grown before after newNodes) : AgreeBelow before.nodes.length before after := by
  obtain ⟨made, nodes, -⟩ := grown
  intro ref below
  rw [nodes, getElem?_append_left below]

theorem restated_length {touched : NodeRef → Prop} {after : Store}
    (restated : Restated touched before after) : after.nodes.length = before.nodes.length := by
  have same : after.nodes.map settled = before.nodes.map settled := by
    apply ext_getElem?
    intro ref
    rw [getElem?_map, getElem?_map]
    exact restated.settled ref
  simpa using congrArg length same

theorem submitUpdates_length (updates : List (NodeRef × ParameterUpdateRequest)) (store : Store) :
    (submitUpdates updates store).nodes.length = store.nodes.length := by
  refine foldlRecOn (motive := fun later : Store => later.nodes.length = store.nodes.length)
    updates _ rfl fun later same update _ => ?_
  simpa [updateNode] using same

theorem opening_agrees {session : Session} {opened : Store} (ready : Ready history session)
    (placed : Placed session prepared store)
    (restated : Restated (Opening store prepared.candidate) store opened) :
    AgreeBelow session.store.nodes.length session.store opened := by
  refine agreeBelow_trans (grown_agrees placed.grown) fun ref below => ?_
  refine restated.untouched ref ?_
  rintro ⟨⟨node, stored, created⟩, listed⟩
  rcases placed.listed ref listed with running | above
  · rw [grown_agrees placed.grown ref below] at stored
    exact ready.opened ref running ⟨node, stored, created⟩
  · omega

theorem abandon_agrees (grown : Grown before store topology.newNodes) (later : Store) :
    AgreeBelow before.nodes.length later (abandonCandidate topology later) := by
  intro ref below
  refine (abandonCandidate_restated topology later).untouched ref ?_
  obtain ⟨made, -, refs, -⟩ := grown
  rw [refs, mem_range'_1]
  omega

theorem abandon_ends (grown : Grown before store topology.newNodes) {later : Store}
    (sameLength : later.nodes.length = store.nodes.length) (above : before.nodes.length ≤ ref) :
    Ended (abandonCandidate topology later) ref := by
  obtain ⟨made, nodes, refs, -⟩ := grown
  by_cases new : ref < before.nodes.length + made.length
  · exact abandonCandidate_ends later (refs ▸ mem_range'_1.mpr ⟨above, new⟩)
  · intro node stored
    have bound := (List.getElem?_eq_some_iff.mp stored).1
    rw [restated_length (abandonCandidate_restated topology later), sameLength, nodes,
      List.length_append] at bound
    exact absurd bound new

theorem unchanged_refl (session : Session) : Unchanged session session := by
  refine ⟨rfl, rfl, rfl, fun _ _ => rfl, fun ref above node stored => ?_⟩
  rw [getElem?_eq_none above] at stored
  cases stored

section Ends

variable {State : Type} {engine : Engine State} {batch : Merged} {session after : Session}
  {outcome : Outcome}

/-- Taking an admission back leaves the session unchanged exactly when the
reservation fitted and no running node was touched meanwhile. -/
theorem withdraw_unchanged (later : Session) (ready : Ready history session)
    (admits : Admits engine batch session prepared admitted)
    (topology : later.topology = admitted.topology) (retiring : later.retiring = admitted.retiring)
    (lease : later.lease = admitted.lease)
    (sameLength : later.store.nodes.length = admitted.store.nodes.length) :
    Unchanged session (withdraw prepared later) ↔ Fits session prepared.added ∧
      AgreeBelow session.store.nodes.length session.store later.store := by
  have placed := prepared_placed ready admits.prepares
  obtain ⟨validated, store, reserved, admission⟩ := prepareCandidate_ok admits.prepares
  obtain ⟨purpose, reserves⟩ := admission.reserves
  have frame := (reserveResources_frame reserves).1
  rw [admission.result, frame] at topology retiring
  have returned := withdrawn_lease later ready.canonical admits.prepares lease
  have store : (withdraw prepared later).store = abandonCandidate prepared.candidate later.store := by
    rw [withdraw_frame]
  have abandoned := abandon_agrees placed.grown later.store
  constructor
  · intro unchanged
    refine ⟨returned.mp unchanged.lease, fun ref below => ?_⟩
    rw [← abandoned ref below, ← store]
    exact unchanged.nodes ref below
  · rintro ⟨fits, agrees⟩
    refine ⟨?_, ?_, returned.mpr fits, ?_, ?_⟩
    · rw [withdraw_frame]
      exact topology
    · rw [withdraw_frame]
      exact retiring
    · rw [store]
      exact agreeBelow_trans agrees abandoned
    · rw [store]
      exact fun ref above => abandon_ends placed.grown sameLength above

/-- Submitting leaves the running nodes alone exactly when no update names a node
that is carried over. -/
theorem submit_agrees {opened : Store} {operation : Nat} (ready : Ready history session)
    (admits : Admits engine batch session prepared admitted)
    (restated : Restated (Opening admitted.store prepared.candidate) admitted.store opened)
    (checked : checkUpdates prepared.candidate opened operation
      prepared.changes.parameterUpdates = .ok updates) :
    AgreeBelow session.store.nodes.length session.store (submitUpdates updates opened) ↔
      ∀ update ∈ prepared.changes.parameterUpdates, update.node ∉ prepared.diff.reusedNodes := by
  have placed := prepared_placed ready admits.prepares
  have agrees := opening_agrees ready placed restated
  obtain ⟨targets, sources⟩ := checkUpdates_ok checked
  simp only [findNode_restated restated] at targets sources
  constructor
  · intro same update member reused
    obtain ⟨entry, listed, located⟩ := targets update member
    have running : entry.1 ∈ session.topology.nodes :=
      (placed.located _ _ located).elim And.right fun fresh => absurd reused fresh.1
    have below := chain_stored ready.chain running
    obtain ⟨node, stored⟩ : ∃ node, opened.nodes[entry.1]? = some node :=
      ⟨_, (agrees entry.1 below).trans (getElem?_eq_getElem below)⟩
    obtain ⟨later, found, grows⟩ := submitUpdates_backlog stored fun other otherListed hits =>
      (sources other otherListed).2 node (hits ▸ stored)
    -- The backlog of the node has grown, so it is not the node it was.
    have unmoved : later = node := by
      rw [same entry.1 below, ← agrees entry.1 below, stored, Option.some.injEq] at found
      exact found.symm
    have counted : 0 < updates.countP fun other => other.1 = entry.1 :=
      countP_pos_iff.mpr ⟨entry, listed, by simp⟩
    rw [unmoved] at grows
    omega
  · intro fresh ref below
    rw [submitUpdates_elsewhere, agrees ref below]
    rintro entry listed rfl
    obtain ⟨⟨update, member, located⟩, -⟩ := sources entry listed
    rcases placed.located _ _ located with ⟨reused, -⟩ | ⟨-, above⟩
    · exact fresh update member reused
    · omega

theorem rejected_unchanged {status : Status} (ready : Ready history session)
    (refused : prepareCandidate engine patch session = (.error status, after)) :
    Unchanged session after := by
  rcases prepareCandidate_error refused with
    rfl | ⟨candidate, validated, store, topology, accepted, built, rfl⟩
  · exact unchanged_refl _
  · obtain ⟨-, -, -, -, grown, -⟩ := next_version ready.chain accepted built
    exact ⟨rfl, rfl, rfl, agreeBelow_trans (grown_agrees grown) (abandon_agrees grown store),
      fun ref above => abandon_ends grown rfl above⟩

theorem admits_unique {other : Prepared} {otherAdmitted : Session}
    (admits : Admits engine batch session prepared admitted)
    (again : Admits engine batch session other otherAdmitted) : other = prepared := by
  have same := again.prepares
  rw [admits.prepares] at same
  cases same
  rfl

/-- The new nodes of the batch open and its updates pass their check, so only a
stop can keep it from being published. -/
def passes (engine : Engine State) (batch : Merged) (session : Session) : Bool :=
  match prepareCandidate engine batch.patch session with
  | (.error _, _) => false
  | (.ok prepared, admitted) =>
    match openNodes engine.opens prepared.candidate admitted.store with
    | (.error _, _) => false
    | (.ok (), store) => (checks batch prepared store).toBool

theorem undone_unchanged (ready : Ready history session)
    (undone : Undone engine batch session outcome after) : Unchanged session after ↔
      ∀ prepared admitted, Admits engine batch session prepared admitted →
        Fits session prepared.added ∧ (passes engine batch session = true →
          ∀ update ∈ prepared.changes.parameterUpdates,
            update.node ∉ prepared.diff.reusedNodes) := by
  cases undone with
  | turnedAway away =>
    exact ⟨fun _ prepared admitted admits => absurd admits (away prepared admitted),
      fun _ => unchanged_refl session⟩
  | rejected refused =>
    refine ⟨fun _ prepared admitted admits => ?_, fun _ => rejected_unchanged ready refused⟩
    rw [admits.prepares] at refused
    cases refused
  | unopened admits tried | unsupported admits tried refused =>
    have stuck : passes engine batch session = false := by
      simp [passes, admits.prepares, Except.toBool, *]
    have restated := openNodes_restated tried
    have agrees := opening_agrees ready (prepared_placed ready admits.prepares) restated
    rw [withdraw_unchanged _ ready admits (by rfl) (by rfl) (by rfl) (restated_length restated)]
    constructor
    · rintro ⟨fits, -⟩ prepared admitted again
      exact admits_unique admits again ▸ ⟨fits, by simp [stuck]⟩
    · intro condition
      exact ⟨(condition _ _ admits).1, agrees⟩
  | overtaken admits opened checked =>
    have restated := openNodes_restated opened
    have submits := submit_agrees ready admits restated checked
    rw [withdraw_unchanged _ ready admits (by rfl) (by rfl) (by rfl)
      ((submitUpdates_length _ _).trans (restated_length restated)), submits]
    constructor
    · rintro ⟨fits, fresh⟩ prepared admitted again
      exact admits_unique admits again ▸ ⟨fits, fun _ => fresh⟩
    · intro condition
      obtain ⟨fits, fresh⟩ := condition _ _ admits
      exact ⟨fits, fresh (by simp [passes, admits.prepares, opened, checked, Except.toBool])⟩

end Ends

/-- In every reachable state: a batch that fails or is cancelled leaves the session
as it was, unless its reservation wrapped around or only a stop undid it and it had
an update for a running node. -/
theorem undone_batch_unchanged {estimate : NodeResourceEstimator} {session : Session}
    {history : List GraphSpec}
    (reached : Reachable (Started estimate) (Step estimate) ⟨session, none, history⟩)
    {State : Type} {engine : Engine State} {ended : BindingRef → String → Bool} {raced : Bool}
    {batch : Merged} {outcome : Outcome} {after : Session}
    (done : execute engine ended raced batch session = (outcome, after))
    (undone : outcome.undone = true) : Unchanged session after ↔
      ∀ prepared admitted, Admits engine batch session prepared admitted →
        Fits session prepared.added ∧ (passes engine batch session = true →
          ∀ update ∈ prepared.changes.parameterUpdates, update.node ∉ prepared.diff.reusedNodes) :=
  undone_unchanged (reachable_consistent reached).ready (execute_undone done undone)

def besidePipeline : GraphSpec where
  name := "pipeline"
  nodes := directPipeline.nodes ++ [{ id := "filter", op := ⟨"Filter", "1"⟩ }]
  edges := filteredPipeline.edges

def besideSession : Session := pipelineSession none besidePipeline

theorem besideSession_reachable :
    Reachable (Started pipelineEngine.estimate) (Step pipelineEngine.estimate)
      ⟨besideSession, none, [besidePipeline]⟩ := by
  have launched : (launchPipeline none besidePipeline).toBool = true := by decide
  exact .initial (pipelineSession_started launched)

/-- A second filter, and a parameter the sink does not have. -/
def muteSink : Merged where
  patch := { actions := [
    .addNode { id := "second", op := ⟨"Filter", "1"⟩ },
    .setNodeOptions { node := "sink", parameters := .object [("mute", .bool true)] }] }

/-- The second filter is opened before the update is refused; nothing is left of
it. -/
theorem muteSink_unchanged :
    (mutate muteSink besideSession).2.store.nodes.length = 4 ∧
      Unchanged besideSession (mutate muteSink besideSession).2 := by
  have stuck : passes pipelineEngine muteSink besideSession = false := by decide
  have unleased : besideSession.lease = none := by decide
  refine ⟨by decide, (undone_batch_unchanged besideSession_reachable Prod.mk.eta.symm
    (by decide)).mpr ?_⟩
  intro prepared admitted _
  constructor
  · intro amounts held
    rw [unleased] at held
    cases held
  · intro passed
    rw [stuck] at passed
    cases passed

def turnUpFilter : Merged where
  patch := { actions := [
    .setNodeOptions { node := "filter", parameters := .object [("gain", .integer 9)] }] }

/-- The batch is cancelled by a stop, and the running filter keeps the update. -/
theorem turnUpFilter_stays :
    Reachable (Started pipelineEngine.estimate) (Step pipelineEngine.estimate)
        ⟨besideSession, none, [besidePipeline]⟩ ∧
      (execute pipelineEngine (fun _ _ => false) true turnUpFilter besideSession).1 =
        .cancelled "session stopping: topology not published" ∧
      ((besideSession.store.nodes[2]?).map fun node => node.parameters.pending) = some none ∧
      (((execute pipelineEngine (fun _ _ => false) true turnUpFilter besideSession).2.store.nodes[2]?).map
        fun node => (node.externalId, node.parameters.pending.map ParameterSnapshot.values)) =
          some ("filter", some [("gain", .integer 9)]) :=
  ⟨besideSession_reachable, by decide, by decide, by decide⟩

end GraphEngine.SessionRollback
