import GraphEngine.Runs
import GraphEngine.SessionLeases
import GraphEngine.SessionStores

/-!
Runs of a session. At most one mutation is in flight; its phases interleave with
the end of retirements, with the life of the nodes, with other sessions on the
ledger and with pause, stop and failure. Operators may answer differently each
time; only the resource estimate of an operator is fixed.
-/

namespace GraphEngine.SessionRuns

open Runs Values GraphSpecs OrderedMaps KeyedSums Ledgers Applier Validation StructuralDiff
  NodeRuntimes Topologies TopologyCoherence TopologyChains Sessions SessionLeases SessionStores

variable {session : Session} {estimate : NodeResourceEstimator} {prepared : Prepared}
  {batch : Merged} {spec : GraphSpec} {amounts : ResourceAmounts} {patch : MutationPatch}
  {outcome : Outcome} {status : Status} {ledger : Option Ledger} {contracts : Contracts}
  {State : Type} {history : List GraphSpec} {engine : Engine State} {topology : RuntimeTopology}
  {store : Store} {ended : BindingRef → String → Bool}

section Inversion

/-- A successful admission, step by step. -/
structure Admitted (engine : Engine State) (patch : MutationPatch) (session : Session)
    (prepared : Prepared) (validated : ValidatedGraph) (store : Store) (reserved after : Session) :
    Prop where
  applied : applyPatch engine.factory.describe session.store session.topology patch =
    .ok prepared.changes
  accepted : validate engine.negotiator engine.factory.describe engine.start
    prepared.changes.candidate = .ok validated
  built : build engine.factory (mutationOptions session.options.id (session.topology.version + 1)
    session.topology prepared.changes.candidate validated) session.store prepared.changes.candidate
    validated = .ok (store, prepared.candidate)
  diff : prepared.diff = diffFrom session.topology prepared.changes.candidate validated
  added : Admission.added engine.estimate session.options.rejectUnbudgetedEdges prepared.diff
    prepared.changes.candidate validated.edgeContracts = .ok prepared.added
  removed : prepared.removed = Admission.removed engine.estimate prepared.diff session.topology
  reserves : ∃ purpose, session.reserveResources prepared.added purpose = .ok reserved
  result : after = { reserved with store := store }

variable {after : Session}

theorem prepareCandidate_ok (done : prepareCandidate engine patch session = (.ok prepared, after)) :
    ∃ validated store reserved,
      Admitted engine patch session prepared validated store reserved after := by
  unfold prepareCandidate at done
  dsimp only at done
  split at done
  · cases done
  rename_i changes applied
  split at done
  · cases done
  rename_i validated accepted
  split at done
  · cases done
  rename_i store candidate built
  split at done
  · cases done
  rename_i added estimated
  split at done
  · cases done
  rename_i reserved reserves
  cases done
  exact ⟨validated, store, reserved, applied, accepted, built, rfl, estimated,
    rfl, ⟨_, reserves⟩, rfl⟩

theorem prepareCandidate_error
    (done : prepareCandidate engine patch session = (.error status, after)) :
    after = session ∨ ∃ candidate validated store topology,
      validate engine.negotiator engine.factory.describe engine.start candidate = .ok validated ∧
      build engine.factory (mutationOptions session.options.id (session.topology.version + 1)
        session.topology candidate validated) session.store candidate validated =
          .ok (store, topology) ∧
      after = { session with store := abandonCandidate topology store } := by
  unfold prepareCandidate at done
  dsimp only at done
  split at done
  · cases done
    exact .inl rfl
  split at done
  · cases done
    exact .inl rfl
  rename_i validated accepted
  split at done
  · cases done
    exact .inl rfl
  rename_i store topology built
  split at done
  · cases done
    exact .inr ⟨_, validated, store, topology, accepted, built, rfl⟩
  split at done
  · cases done
    exact .inr ⟨_, validated, store, topology, accepted, built, rfl⟩
  · cases done

theorem estimateForAdmission_ok {reject : Bool} {onlyNodes onlyEdges : List String}
    (done : Admission.estimateForAdmission estimate spec contracts reject onlyNodes onlyEdges =
      .ok amounts) :
    amounts = (estimateGraphResources estimate spec contracts onlyNodes onlyEdges).amounts := by
  unfold Admission.estimateForAdmission at done
  dsimp only at done
  split at done
  · cases done
  · cases done
    rfl

theorem initialLease_ok {options : SessionOptions} {after : Ledger}
    (done : initialLease engine options ledger spec contracts = .ok (after, some amounts)) :
    amounts = mergeAmounts
      (estimateGraphResources engine.estimate spec contracts [] []).amounts := by
  unfold initialLease at done
  split at done
  · cases done
  split at done
  · cases done
  rename_i estimated estimates
  split at done
  · cases done
  rename_i reserves
  cases done
  rw [(Ledger.reserve_ok reserves).2, estimateForAdmission_ok estimates]

theorem create_ok {options : SessionOptions}
    (done : create engine options ledger spec = .ok session) :
    session.options = options ∧ session.retiring = [] ∧ ∃ validated,
      validate engine.negotiator engine.factory.describe engine.start spec = .ok validated ∧
      build engine.factory { sessionId := options.id } {} spec validated =
        .ok (session.store, session.topology) ∧
      ∀ amounts, session.lease = some amounts → amounts = mergeAmounts
        (estimateGraphResources engine.estimate spec validated.edgeContracts [] []).amounts := by
  unfold create createPrevalidated at done
  obtain ⟨validated, accepted, done⟩ := Fallible.bind_ok.mp done
  obtain ⟨⟨shared, lease⟩, leased, done⟩ := Fallible.bind_ok.mp done
  dsimp only at done
  split at done
  · cases done
  rename_i store topology built
  cases done
  refine ⟨rfl, rfl, validated, accepted, built, ?_⟩
  rintro amounts rfl
  exact initialLease_ok leased

theorem start_ok (done : start engine session = (.ok (), after)) :
    ∃ store, openNodes engine.opens session.topology session.store = (.ok (), store) ∧
      after = { session with store := store, state := .running } := by
  unfold start at done
  split at done
  · cases done
  split at done
  · cases done
  rename_i store opened
  cases done
  exact ⟨store, opened, rfl⟩

theorem withdraw_frame (prepared : Prepared) (session : Session) :
    withdraw prepared session = { session with
      store := abandonCandidate prepared.candidate session.store
      ledger := (withdraw prepared session).ledger
      lease := (withdraw prepared session).lease } :=
  returnResources_frame _ prepared.added

theorem withdraw_unleased (prepared : Prepared) (unleased : session.lease = none) :
    (withdraw prepared session).lease = none := by
  have same := @returnResources_none
    { session with store := abandonCandidate prepared.candidate session.store } unleased
    prepared.added
  rw [withdraw, same]
  exact unleased

theorem withdraw_weight (prepared : Prepared) (canonical : Canonical amounts)
    (held : session.lease = some amounts) :
    ∃ resized, (withdraw prepared session).lease = some resized ∧ Canonical resized ∧
      ∀ dimension, weight dimension resized =
        weight dimension amounts - weight dimension prepared.added :=
  @returnResources_weight
    { session with store := abandonCandidate prepared.candidate session.store } amounts canonical
    held prepared.added

theorem warmUp_ok (done : warmUp engine prepared session = (.ok (), after)) :
    ∃ store, openNodes engine.opens prepared.candidate session.store = (.ok (), store) ∧
      after = { session with store := store } := by
  unfold warmUp at done
  split at done
  · next store opened =>
      cases done
      exact ⟨store, opened, rfl⟩
  · cases done

theorem warmUp_error (done : warmUp engine prepared session = (.error status, after)) :
    ∃ store, openNodes engine.opens prepared.candidate session.store = (.error status, store) ∧
      after = withdraw prepared { session with store := store } := by
  unfold warmUp at done
  split at done
  · cases done
  rename_i failed store refused
  cases done
  exact ⟨store, refused, rfl⟩

/-- The check of the batch's updates. -/
def checks (batch : Merged) (prepared : Prepared) (store : Store) :
    Result (List (NodeRef × ParameterUpdateRequest)) :=
  checkUpdates prepared.candidate store ((batch.origins.head?.map MutationRequest.operation).getD 0)
    prepared.changes.parameterUpdates

theorem commit_cases (done : commit ended batch prepared session = (outcome, after)) :
    (∃ status, checks batch prepared session.store = .error status ∧
      outcome = .failed status "set_node_options" ∧ after = withdraw prepared session) ∨
    ∃ updates, checks batch prepared session.store = .ok updates ∧
      ((session.stopping = true ∧ (∃ reason, outcome = .cancelled reason) ∧
          after = withdraw prepared
            { session with store := submitUpdates updates session.store }) ∨
        (session.stopping = false ∧ outcome = .published prepared.candidate.version ∧
          ∃ retirement, retirement.removed = prepared.removed ∧ after = { session with
            store := applyRebinds ended prepared.candidate (submitUpdates updates session.store)
            topology := { prepared.candidate with rebinds := [] }
            retiring := session.retiring ++ [retirement] })) := by
  unfold commit at done
  dsimp only at done
  split at done
  · next status refused =>
      cases done
      exact .inl ⟨status, refused, rfl, rfl⟩
  rename_i updates checked
  refine Or.inr ⟨updates, checked, ?_⟩
  unfold publish at done
  by_cases stopping : session.stopping = true
  · rw [if_pos stopping] at done
    cases done
    exact .inl ⟨stopping, ⟨_, rfl⟩, rfl⟩
  · rw [if_neg stopping] at done
    cases done
    exact .inr ⟨Bool.not_eq_true _ ▸ stopping, rfl, _, rfl, rfl⟩

/-- The batch gets as far as a candidate with its resources. -/
structure Admits (engine : Engine State) (batch : Merged) (session : Session) (prepared : Prepared)
    (admitted : Session) : Prop where
  accepts : session.acceptsMutations = true
  current : baseVersionCheck batch.patch session.topology.version = .ok ()
  prepares : prepareCandidate engine batch.patch session = (.ok prepared, admitted)

/-- The ways a batch comes to nothing: it is turned away at once, its admission is
refused, an operator does not open, an update is not allowed, a stop is faster. -/
inductive Undone (engine : Engine State) (batch : Merged) (session : Session) :
    Outcome → Session → Prop where
  | turnedAway {status : Status}
      (away : ∀ prepared admitted, ¬Admits engine batch session prepared admitted) :
      Undone engine batch session (.failed status "") session
  | rejected {status : Status} {action : String} {after : Session}
      (refused : prepareCandidate engine batch.patch session = (.error status, after)) :
      Undone engine batch session (.failed status action) after
  | unopened {prepared : Prepared} {admitted : Session} {status : Status} {action : String}
      {store : Store} (admits : Admits engine batch session prepared admitted)
      (refused : openNodes engine.opens prepared.candidate admitted.store = (.error status, store)) :
      Undone engine batch session (.failed status action)
        (withdraw prepared { admitted with store := store })
  | unsupported {prepared : Prepared} {admitted : Session} {status : Status} {store : Store}
      {stopping : Bool} (admits : Admits engine batch session prepared admitted)
      (opened : openNodes engine.opens prepared.candidate admitted.store = (.ok (), store))
      (refused : checks batch prepared store = .error status) :
      Undone engine batch session (.failed status "set_node_options")
        (withdraw prepared { admitted with store := store, stopping := stopping })
  | overtaken {prepared : Prepared} {admitted : Session} {reason : String} {store : Store}
      {updates : List (NodeRef × ParameterUpdateRequest)}
      (admits : Admits engine batch session prepared admitted)
      (opened : openNodes engine.opens prepared.candidate admitted.store = (.ok (), store))
      (checked : checks batch prepared store = .ok updates) :
      Undone engine batch session (.cancelled reason) (withdraw prepared
        { admitted with store := submitUpdates updates store, stopping := true })

theorem added_ordered {reject : Bool} {diff : GraphDiff}
    (done : Admission.added estimate reject diff spec contracts = .ok amounts) :
    Ordered amounts := by
  unfold Admission.added at done
  split at done
  · cases done
    exact List.Pairwise.nil
  · rw [estimateForAdmission_ok done]
    exact merge_ordered _

theorem withdrawn_lease {admitted : Session} (later : Session) (canonical : LeaseCanonical session)
    (prepares : prepareCandidate engine patch session = (.ok prepared, admitted))
    (kept : later.lease = admitted.lease) :
    (withdraw prepared later).lease = session.lease ↔ Fits session prepared.added := by
  obtain ⟨validated, store, reserved, admission⟩ := prepareCandidate_ok prepares
  obtain ⟨purpose, reserves⟩ := admission.reserves
  refine returned_lease _ canonical (added_ordered admission.added) reserves ?_
  rw [admission.result] at kept
  exact kept

theorem undone_lease (canonical : LeaseCanonical session)
    (undone : Undone engine batch session outcome after)
    (fits : ∀ prepared admitted, Admits engine batch session prepared admitted →
      Fits session prepared.added) : after.lease = session.lease := by
  cases undone with
  | turnedAway away => rfl
  | rejected refused =>
    rcases prepareCandidate_error refused with rfl | ⟨_, _, _, _, -, -, rfl⟩ <;> rfl
  | unopened admits | unsupported admits | overtaken admits =>
    refine (withdrawn_lease _ canonical admits.prepares ?_).mpr (fits _ _ admits)
    rfl

theorem execute_undone {raced : Bool}
    (done : execute engine ended raced batch session = (outcome, after))
    (undone : outcome.undone = true) : Undone engine batch session outcome after := by
  unfold execute at done
  split at done
  · next idle =>
      cases done
      refine .turnedAway fun prepared admitted admits => ?_
      rw [admits.accepts] at idle
      cases idle
  · next accepts =>
      split at done
      · next conflict =>
          cases done
          refine .turnedAway fun prepared admitted admits => ?_
          rw [admits.current] at conflict
          cases conflict
      · next current =>
          split at done
          · next refused =>
              cases done
              exact .rejected refused
          rename_i prepared admitted prepares
          have admits : Admits engine batch session prepared admitted :=
            ⟨Bool.not_eq_false _ ▸ accepts, current, prepares⟩
          split at done
          · next refused =>
              cases done
              obtain ⟨store, unopened, rfl⟩ := warmUp_error refused
              exact .unopened admits unopened
          · next warmed isWarm =>
              obtain ⟨store, opened, rfl⟩ := warmUp_ok isWarm
              rcases commit_cases done with
                ⟨status, refused, rfl, rfl⟩ | ⟨updates, checked,
                  ⟨stopping, ⟨reason, rfl⟩, rfl⟩ | ⟨-, rfl, -⟩⟩
              · exact @Undone.unsupported _ _ _ _ _ admitted _ _ _ admits opened refused
              · rw [stopping]
                exact @Undone.overtaken _ _ _ _ _ admitted _ _ _ admits opened checked
              · cases undone

end Inversion

/-! The machine. -/

structure Flight where
  batch : Merged
  prepared : Prepared
  warmed : Bool := false

/-- `history` lists the graphs published so far, the running one first. -/
structure Machine where
  session : Session
  flight : Option Flight
  history : List GraphSpec

/-- What happens to one node while it lives: `SetParameters`, the switch at a
packet boundary, a rejected update, and state changes. -/
inductive Lives : NodeRuntime → NodeRuntime → Prop where
  | submit {node : NodeRuntime} (request : ParameterUpdateRequest) :
      Lives node (submitTo request node)
  | boundary {node : NodeRuntime} (seq : Nat) :
      Lives node { node with parameters := node.parameters.switchAtPacketBoundary seq }
  | reject {node : NodeRuntime} :
      Lives node { node with parameters := node.parameters.rejectPending }
  | move {node : NodeRuntime} (state : NodeState) (onwards : state ≠ .created) :
      Lives node (moveTo state node)

inductive Step (estimate : NodeResourceEstimator) : Machine → Machine → Prop where
  | reject {State : Type} {engine : Engine State} {history : List GraphSpec} {batch : Merged}
      {session after : Session}
      {status : Status} (priced : engine.estimate = estimate)
      (refused : prepareCandidate engine batch.patch session = (.error status, after)) :
      Step estimate ⟨session, none, history⟩ ⟨after, none, history⟩
  | prepare {State : Type} {engine : Engine State} {history : List GraphSpec} {batch : Merged}
      {session after : Session}
      {prepared : Prepared} (priced : engine.estimate = estimate)
      (accepts : session.acceptsMutations = true)
      (current : baseVersionCheck batch.patch session.topology.version = .ok ())
      (admitted : prepareCandidate engine batch.patch session = (.ok prepared, after)) :
      Step estimate ⟨session, none, history⟩ ⟨after, some ⟨batch, prepared, false⟩, history⟩
  | refuse {State : Type} {engine : Engine State} {history : List GraphSpec} {batch : Merged}
      {session after : Session}
      {prepared : Prepared} {status : Status}
      (refused : warmUp engine prepared session = (.error status, after)) :
      Step estimate ⟨session, some ⟨batch, prepared, false⟩, history⟩ ⟨after, none, history⟩
  | warm {State : Type} {engine : Engine State} {history : List GraphSpec} {batch : Merged}
      {session after : Session}
      {prepared : Prepared} (warmed : warmUp engine prepared session = (.ok (), after)) :
      Step estimate ⟨session, some ⟨batch, prepared, false⟩, history⟩
        ⟨after, some ⟨batch, prepared, true⟩, history⟩
  | commit {ended : BindingRef → String → Bool} {history : List GraphSpec} {batch : Merged}
      {session after : Session} {prepared : Prepared} {outcome : Outcome}
      (committed : commit ended batch prepared session = (outcome, after)) :
      Step estimate ⟨session, some ⟨batch, prepared, true⟩, history⟩ ⟨after, none,
        if outcome.undone then history else prepared.changes.candidate :: history⟩
  | retire {history : List GraphSpec} {session : Session} {flight : Option Flight}
      {retirement : Retirement}
      (member : retirement ∈ session.retiring) :
      Step estimate ⟨session, flight, history⟩ ⟨completeRetirement retirement session, flight, history⟩
  | live {history : List GraphSpec} {session : Session} {flight : Option Flight} (ref : NodeRef)
      (change : NodeRuntime → NodeRuntime) (lives : ∀ node, Lives node (change node)) :
      Step estimate ⟨session, flight, history⟩
        ⟨{ session with store := updateNode session.store ref change }, flight, history⟩
  | bind {history : List GraphSpec} {session : Session} {flight : Option Flight}
      (bindings : List InputBinding)
      (same : bindings.length = session.store.bindings.length) :
      Step estimate ⟨session, flight, history⟩
        ⟨{ session with store := { session.store with bindings := bindings } }, flight, history⟩
  | control {history : List GraphSpec} {session : Session} {flight : Option Flight}
      (state : SessionState) (stopping : Bool) :
      Step estimate ⟨session, flight, history⟩
        ⟨{ session with state := state, stopping := stopping }, flight, history⟩
  | share {history : List GraphSpec} {session : Session} {flight : Option Flight} (ledger : Ledger) :
      Step estimate ⟨session, flight, history⟩ ⟨{ session with ledger := ledger }, flight, history⟩

inductive Started (estimate : NodeResourceEstimator) : Machine → Prop where
  | mk {State : Type} {engine : Engine State} {options : SessionOptions} {ledger : Option Ledger}
      {spec : GraphSpec} {session after : Session} (priced : engine.estimate = estimate)
      (created : create engine options ledger spec = .ok session)
      (started : start engine session = (.ok (), after)) : Started estimate ⟨after, none, [spec]⟩

variable {node : NodeRuntime} {machine : Machine}

theorem lives_identity {later : NodeRuntime} (lives : Lives node later) :
    later.identity = node.identity := by
  cases lives with
  | submit request => exact submitTo_identity request node
  | boundary seq | reject | move state onwards => rfl

theorem lives_created {later : NodeRuntime} (lives : Lives node later)
    (created : later.state = .created) : node.state = .created := by
  cases lives with
  | submit request => exact (submitTo_state request node).symm.trans created
  | boundary seq | reject => exact created
  | move state onwards => exact absurd created onwards

theorem live_progresses {ref : NodeRef} {change : NodeRuntime → NodeRuntime}
    (lives : ∀ node, Lives node (change node)) : Progresses store (updateNode store ref change) :=
  updateNode_progresses (fun node => lives_identity (lives node))
    fun node => lives_created (lives node)

/-! What every run keeps: the running topology is a version of a chain, its nodes
are open, the lease is canonical; a mutation in flight is the next version of the
same chain. -/

def Opened (store : Store) (topology : RuntimeTopology) : Prop :=
  ∀ ref ∈ topology.nodes, ¬Unopened store ref

structure Ready (history : List GraphSpec) (session : Session) : Prop where
  chain : Chain history session.store session.topology
  opened : Opened session.store session.topology
  canonical : LeaseCanonical session

structure InFlight (history : List GraphSpec) (store : Store) (flight : Flight) : Prop where
  chain : Chain (flight.prepared.changes.candidate :: history) store flight.prepared.candidate
  ordered : flight.prepared.candidate.order.Perm flight.prepared.candidate.spec.nodeIds
  warmed : flight.warmed = true → Opened store flight.prepared.candidate

structure Consistent (machine : Machine) : Prop where
  ready : Ready machine.history machine.session
  inFlight : ∀ flight, machine.flight = some flight →
    InFlight machine.history machine.session.store flight

theorem chain_stored (chain : Chain history store topology) {ref : NodeRef}
    (listed : ref ∈ topology.nodes) : ref < store.nodes.length := by
  obtain ⟨place, channelAt, sound⟩ := chain_sound chain
  rw [sound.coherent.nodes] at listed
  obtain ⟨node, member, rfl⟩ := List.mem_map.mp listed
  obtain ⟨runtime, runs⟩ := sound.coherent.runs node member
  exact (List.getElem?_eq_some_iff.mp runs.stored).1

theorem opened_progresses {before after : Store} (chain : Chain history before topology)
    (opened : Opened before topology) (progresses : Progresses before after) :
    Opened after topology := by
  intro ref listed unopened
  exact opened ref listed (progresses.unopened ref (chain_stored chain listed) unopened)

theorem consistent_progresses (after : Session) (consistent : Consistent machine)
    (topology : after.topology = machine.session.topology)
    (progresses : Progresses machine.session.store after.store) (canonical : LeaseCanonical after)
    (flight : Option Flight) (same : ∀ f, flight = some f → machine.flight = some f) :
    Consistent ⟨after, flight, machine.history⟩ := by
  obtain ⟨⟨chain, opened, -⟩, inFlight⟩ := consistent
  refine ⟨⟨?_, ?_, canonical⟩, ?_⟩
  · rw [topology]
    exact chain.evolve progresses.evolves
  · rw [topology]
    exact opened_progresses chain opened progresses
  · intro f found
    obtain ⟨flightChain, ordered, warmed⟩ := inFlight f (same f found)
    exact ⟨flightChain.evolve progresses.evolves, ordered,
      fun isWarm => opened_progresses flightChain (warmed isWarm) progresses⟩

variable {after : Session}

theorem reserveResources_canonical {delta : ResourceAmounts} {purpose : String}
    (canonical : LeaseCanonical session)
    (done : session.reserveResources delta purpose = .ok after) : LeaseCanonical after := by
  intro resized held
  cases lease : session.lease with
  | none =>
    have same := (reserveResources_frame done).2
    rw [held, lease] at same
    cases same
  | some amounts =>
    obtain ⟨found, heldFound, isCanonical, -⟩ :=
      reserveResources_weight (canonical amounts lease) lease done
    rw [held, Option.some.injEq] at heldFound
    exact heldFound ▸ isCanonical

theorem returnResources_canonical (canonical : LeaseCanonical session) (delta : ResourceAmounts) :
    LeaseCanonical (session.returnResources delta) := by
  intro resized held
  cases lease : session.lease with
  | none =>
    rw [returnResources_none lease, lease] at held
    cases held
  | some amounts =>
    obtain ⟨found, heldFound, isCanonical, -⟩ :=
      returnResources_weight (canonical amounts lease) lease delta
    rw [held, Option.some.injEq] at heldFound
    exact heldFound ▸ isCanonical

theorem first_version {options : BuildOptions} {after : Store} {validated : ValidatedGraph}
    (baseless : options.base = none)
    (accepted : validate engine.negotiator engine.factory.describe engine.start spec =
      .ok validated)
    (built : build engine.factory options {} spec validated = .ok (after, topology)) :
    Chain [spec] after topology ∧ topology.spec = spec ∧ topology.validated = validated ∧
      topology.order.Perm spec.nodeIds ∧ Grown {} after topology.newNodes := by
  have valid := validate_accepted accepted
  obtain ⟨specIs, validatedIs, _, _, -, populated⟩ := Fallible.outcome_ok (build_outcome
    (baseless_ready baseless) (accepted_shaped valid) valid.described valid.contracted) built
  refine ⟨.initial baseless accepted built, specIs, validatedIs, ?_, populated.grown⟩
  rw [populated.ordered]
  exact valid.ordered

section NextVersion

variable {after : Store} {base : RuntimeTopology} {candidate : GraphSpec}
  {validated : ValidatedGraph} {sessionId version : Nat}

theorem next_version (chain : Chain history store base)
    (accepted : validate engine.negotiator engine.factory.describe engine.start candidate =
      .ok validated)
    (built : build engine.factory (mutationOptions sessionId version base candidate validated)
      store candidate validated = .ok (after, topology)) :
    Chain (candidate :: history) after topology ∧ topology.spec = candidate ∧
      topology.validated = validated ∧ topology.order.Perm candidate.nodeIds ∧
      Grown store after topology.newNodes ∧ Progresses store after := by
  obtain ⟨place, channelAt, sound⟩ := chain_sound chain
  obtain ⟨specIs, validatedIs, _, _, -, populated⟩ :=
    Fallible.outcome_ok (mutation_outcome sessionId version sound.coherent accepted) built
  refine ⟨chain.mutate accepted built, specIs, validatedIs, ?_, populated.grown,
    grown_progresses populated.evolves populated.grown⟩
  rw [populated.ordered]
  exact (validate_accepted accepted).ordered

end NextVersion

theorem openNodes_opens {opens : NodeRuntime → Result Unit} {after : Store}
    (chain : Chain history store topology) (ordered : topology.order.Perm topology.spec.nodeIds)
    (done : openNodes opens topology store = (.ok (), after)) : Opened after topology := by
  obtain ⟨place, channelAt, sound⟩ := chain_sound chain
  intro ref listed
  rw [sound.coherent.nodes] at listed
  obtain ⟨node, member, rfl⟩ := List.mem_map.mp listed
  have inOrder : node.id ∈ topology.order := ordered.mem_iff.mpr (List.mem_map.mpr ⟨node, member, rfl⟩)
  obtain ⟨found, located, isOpen⟩ := (openFrom_opens topology.order done).2 node.id inOrder
  rw [findNode_coherent sound.coherent member, Option.some.injEq] at located
  exact located ▸ isOpen

theorem abandonCandidate_progresses (topology : RuntimeTopology) (store : Store) :
    Progresses store (abandonCandidate topology store) :=
  restated_progresses (abandonCandidate_restated topology store)

theorem withdraw_consistent (session : Session) (consistent : Consistent machine)
    (topology : session.topology = machine.session.topology)
    (lease : session.lease = machine.session.lease)
    (progresses : Progresses machine.session.store session.store) (prepared : Prepared) :
    Consistent ⟨withdraw prepared session, none, machine.history⟩ := by
  refine consistent_progresses _ consistent ?_ ?_ ?_ none nofun
  · rw [withdraw_frame]
    exact topology
  · rw [withdraw_frame]
    exact progresses_trans progresses (abandonCandidate_progresses _ _)
  · refine returnResources_canonical ?_ prepared.added
    intro amounts held
    exact consistent.ready.canonical amounts (lease ▸ held)

theorem commit_consistent (consistent : Consistent ⟨session, some ⟨batch, prepared, true⟩, history⟩)
    (done : commit ended batch prepared session = (outcome, after)) : Consistent ⟨after, none,
      if outcome.undone then history else prepared.changes.candidate :: history⟩ := by
  rcases commit_cases done with
    ⟨status, -, rfl, rfl⟩ | ⟨updates, -, ⟨-, ⟨reason, rfl⟩, rfl⟩ |
      ⟨-, rfl, retirement, -, rfl⟩⟩
  · exact withdraw_consistent _ consistent rfl rfl (progresses_refl _) prepared
  · refine withdraw_consistent _ consistent ?_ ?_ ?_ prepared
    · rfl
    · rfl
    · exact submitUpdates_progresses updates session.store
  · obtain ⟨chain, ordered, warmed⟩ := consistent.inFlight _ rfl
    have progresses := progresses_trans (submitUpdates_progresses updates session.store)
      (applyRebinds_progresses ended prepared.candidate _)
    have opened := opened_progresses chain (warmed rfl) progresses
    exact ⟨⟨(chain.evolve progresses.evolves).rebound, opened, consistent.ready.canonical⟩, nofun⟩

variable {flight : Option Flight}

theorem moved_consistent (after : Session) (consistent : Consistent ⟨session, flight, history⟩)
    (topology : after.topology = session.topology) (lease : after.lease = session.lease)
    (progresses : Progresses session.store after.store) : Consistent ⟨after, flight, history⟩ := by
  refine consistent_progresses after consistent topology progresses ?_ flight fun _ same => same
  intro amounts held
  exact consistent.ready.canonical amounts (lease ▸ held)

theorem reject_consistent (consistent : Consistent ⟨session, none, history⟩)
    (refused : prepareCandidate engine patch session = (.error status, after)) :
    Consistent ⟨after, none, history⟩ := by
  rcases prepareCandidate_error refused with
    rfl | ⟨candidate, validated, store, topology, accepted, built, rfl⟩
  · exact consistent
  · obtain ⟨-, -, -, -, -, progresses⟩ := next_version consistent.ready.chain accepted built
    refine moved_consistent _ consistent ?_ ?_ ?_
    · rfl
    · rfl
    · exact progresses_trans progresses (abandonCandidate_progresses topology store)

theorem prepare_consistent (consistent : Consistent ⟨session, none, history⟩)
    (admitted : prepareCandidate engine batch.patch session = (.ok prepared, after)) :
    Consistent ⟨after, some ⟨batch, prepared, false⟩, history⟩ := by
  obtain ⟨validated, store, reserved, admitted⟩ := prepareCandidate_ok admitted
  obtain ⟨chain, specIs, -, ordered, -, progresses⟩ :=
    next_version consistent.ready.chain admitted.accepted admitted.built
  obtain ⟨purpose, reserves⟩ := admitted.reserves
  have canonical := reserveResources_canonical consistent.ready.canonical reserves
  have topology : reserved.topology = session.topology := by
    rw [(reserveResources_frame reserves).1]
  rw [admitted.result]
  refine ⟨⟨?_, ?_, canonical⟩, ?_⟩
  · rw [topology]
    exact consistent.ready.chain.evolve progresses.evolves
  · rw [topology]
    exact opened_progresses consistent.ready.chain consistent.ready.opened progresses
  · rintro _ ⟨⟩
    exact ⟨chain, specIs ▸ ordered, nofun⟩

theorem warm_consistent (consistent : Consistent ⟨session, some ⟨batch, prepared, false⟩, history⟩)
    (done : warmUp engine prepared session = (.ok (), after)) :
    Consistent ⟨after, some ⟨batch, prepared, true⟩, history⟩ := by
  obtain ⟨store, opened, rfl⟩ := warmUp_ok done
  have progresses := restated_progresses (openNodes_restated opened)
  obtain ⟨chain, ordered, -⟩ := consistent.inFlight _ rfl
  have moved : Consistent ⟨{ session with store := store }, none, history⟩ := by
    refine consistent_progresses { session with store := store } consistent ?_ progresses
      consistent.ready.canonical none nofun
    rfl
  refine ⟨moved.ready, ?_⟩
  rintro _ ⟨⟩
  exact ⟨chain.evolve progresses.evolves, ordered, fun _ => openNodes_opens chain ordered opened⟩

theorem refuse_consistent
    (consistent : Consistent ⟨session, some ⟨batch, prepared, false⟩, history⟩)
    (refused : warmUp engine prepared session = (.error status, after)) :
    Consistent ⟨after, none, history⟩ := by
  obtain ⟨store, opened, rfl⟩ := warmUp_error refused
  have progresses := restated_progresses (openNodes_restated opened)
  refine withdraw_consistent _ consistent ?_ ?_ progresses prepared
  · rfl
  · rfl

theorem retire_consistent (retirement : Retirement)
    (consistent : Consistent ⟨session, flight, history⟩) :
    Consistent ⟨completeRetirement retirement session, flight, history⟩ := by
  have frame := returnResources_frame
    { session with retiring := session.retiring.erase retirement } retirement.removed
  have canonical : LeaseCanonical
      { session with retiring := session.retiring.erase retirement } := consistent.ready.canonical
  refine consistent_progresses _ consistent ?_ ?_ ?_ flight fun _ same => same
  · rw [completeRetirement, frame]
  · rw [completeRetirement, frame]
    exact progresses_refl _
  · exact returnResources_canonical canonical retirement.removed

theorem step_consistent {before after : Machine} (consistent : Consistent before)
    (step : Step estimate before after) : Consistent after := by
  cases step with
  | reject priced refused => exact reject_consistent consistent refused
  | prepare priced accepts current admitted => exact prepare_consistent consistent admitted
  | refuse refused => exact refuse_consistent consistent refused
  | warm warmed => exact warm_consistent consistent warmed
  | commit committed => exact commit_consistent consistent committed
  | retire member => exact retire_consistent _ consistent
  | live ref change lives => exact moved_consistent _ consistent rfl rfl (live_progresses lives)
  | bind bindings same =>
    refine moved_consistent _ consistent rfl rfl
      ⟨⟨fun _ node found => ⟨node, found, rfl⟩, fun _ _ found => found, ?_⟩,
        fun _ _ unopened => unopened⟩
    intro ref bound
    exact same ▸ bound
  | control state stopping | share ledger =>
    exact moved_consistent _ consistent rfl rfl (progresses_refl _)

theorem started_consistent (started : Started estimate machine) : Consistent machine := by
  obtain ⟨priced, created, started⟩ := started
  obtain ⟨-, -, validated, accepted, built, leased⟩ := create_ok created
  obtain ⟨store, opened, rfl⟩ := start_ok started
  obtain ⟨chain, specIs, -, ordered, -⟩ := first_version rfl accepted built
  rw [← specIs] at ordered
  have moved := restated_evolves (openNodes_restated opened)
  refine ⟨⟨chain.evolve moved, openNodes_opens chain ordered opened, ?_⟩, nofun⟩
  intro amounts held
  rw [leased amounts held]
  exact merge_merge_canonical _

theorem reachable_consistent (reached : Reachable (Started estimate) (Step estimate) machine) :
    Consistent machine :=
  reachable_invariant Consistent (fun _ started => started_consistent started)
    (fun _ _ _ consistent step => step_consistent consistent step) reached

variable {condition : Machine → Machine → Prop}

/-- `execute` is a run of the machine: its phases one after the other, and the stop
that it may race with. A condition that looks at admissions and publications is met
when those of the batch meet it. -/
theorem execute_reachable_under {start : Machine → Prop} (ended : BindingRef → String → Bool)
    (raced : Bool) (batch : Merged)
    (elsewhere : ∀ before after, (before.flight = none → after.flight = none) →
      after.history = before.history → condition before after)
    (admission : ∀ prepared admitted,
      prepareCandidate engine batch.patch session = (.ok prepared, admitted) →
      condition ⟨session, none, history⟩ ⟨admitted, some ⟨batch, prepared, false⟩, history⟩)
    (publication : ∀ prepared admitted before after,
      prepareCandidate engine batch.patch session = (.ok prepared, admitted) →
      before.session.topology = session.topology → after.flight = none →
      after.history = prepared.changes.candidate :: before.history → condition before after)
    (reached : Reachable start (Under condition (Step engine.estimate)) ⟨session, none, history⟩) :
    ∃ later, Reachable start (Under condition (Step engine.estimate))
      ⟨(execute engine ended raced batch session).2, none, later⟩ := by
  generalize done : execute engine ended raced batch session = result
  unfold execute at done
  split at done
  · cases done
    exact ⟨history, reached⟩
  rename_i accepts
  split at done
  · cases done
    exact ⟨history, reached⟩
  rename_i current
  split at done
  · next status _ refused =>
      cases done
      exact ⟨history, reached.next ⟨.reject rfl refused, elsewhere _ _ (fun _ => rfl) rfl⟩⟩
  rename_i prepared admitted prepares
  have flying := reached.next
    ⟨.prepare rfl (Bool.not_eq_false _ ▸ accepts) current prepares,
      admission prepared admitted prepares⟩
  split at done
  · next status _ refused =>
      cases done
      exact ⟨history, flying.next ⟨.refuse refused, elsewhere _ _ nofun rfl⟩⟩
  rename_i warmed isWarmed
  have raced := (flying.next ⟨.warm isWarmed, elsewhere _ _ nofun rfl⟩).next
    ⟨.control warmed.state (warmed.stopping || raced), elsewhere _ _ nofun rfl⟩
  refine ⟨_, raced.next ⟨.commit done, ?_⟩⟩
  by_cases undone : result.1.undone = true
  · exact elsewhere _ _ nofun (if_pos undone)
  · obtain ⟨_, -, rfl⟩ := warmUp_ok isWarmed
    obtain ⟨_, _, _, admits⟩ := prepareCandidate_ok prepares
    obtain ⟨_, reserves⟩ := admits.reserves
    refine publication prepared admitted _ _ prepares ?_ rfl (if_neg undone)
    change admitted.topology = session.topology
    rw [admits.result, (reserveResources_frame reserves).1]

theorem execute_reachable (ended : BindingRef → String → Bool) (raced : Bool) (batch : Merged)
    (reached : Reachable (Started engine.estimate) (Step engine.estimate) ⟨session, none, history⟩) :
    ∃ later, Reachable (Started engine.estimate) (Step engine.estimate)
      ⟨(execute engine ended raced batch session).2, none, later⟩ := by
  obtain ⟨later, run⟩ := @execute_reachable_under _ _ _ _ (fun _ _ => True) _ ended raced batch
    (fun _ _ _ _ => trivial) (fun _ _ _ => trivial) (fun _ _ _ _ _ _ _ _ => trivial)
    (reachable_mono (fun _ _ step => ⟨step, trivial⟩) reached)
  exact ⟨later, reachable_of_under run⟩

/-- The oldest retirement completes, if there is one. -/
def retireOldest (session : Session) : Session :=
  match session.retiring with
  | [] => session
  | retirement :: _ => completeRetirement retirement session

theorem retireOldest_reachable_under {start : Machine → Prop}
    (elsewhere : ∀ before after, (before.flight = none → after.flight = none) →
      after.history = before.history → condition before after)
    (reached : Reachable start (Under condition (Step estimate)) ⟨session, none, history⟩) :
    Reachable start (Under condition (Step estimate)) ⟨retireOldest session, none, history⟩ := by
  unfold retireOldest
  split
  · exact reached
  · next retirement rest listed =>
      exact reached.next ⟨.retire (listed ▸ List.mem_cons_self), elsewhere _ _ (fun _ => rfl) rfl⟩

theorem retireOldest_reachable
    (reached : Reachable (Started estimate) (Step estimate) ⟨session, flight, history⟩) :
    Reachable (Started estimate) (Step estimate) ⟨retireOldest session, flight, history⟩ := by
  unfold retireOldest
  split
  · exact reached
  · next retirement rest listed =>
      exact reached.next (.retire (listed ▸ List.mem_cons_self))

/-! The pipeline as a session. Every node is estimated at one thread. -/

def pipelineEngine : Engine Unit where
  factory := pipelineFactory
  estimate := fun _ _ => [(⟨.cpuThreads, -1⟩, 1)]
  negotiator := pipelineNegotiator
  start := ()
  opens := fun _ => .ok ()

def blankSession : Session := { store := {}, topology := { spec := {}, validated := {} } }

def launchPipeline (ledger : Option Ledger) (spec : GraphSpec) : Result Session :=
  match create pipelineEngine {} ledger spec with
  | .error status => .error status
  | .ok session =>
    match start pipelineEngine session with
    | (.error status, _) => .error status
    | (.ok (), started) => .ok started

def pipelineSession (ledger : Option Ledger) (spec : GraphSpec) : Session :=
  (launchPipeline ledger spec).toOption.getD blankSession

theorem pipelineSession_started (launched : (launchPipeline ledger spec).toBool = true) :
    Started pipelineEngine.estimate ⟨pipelineSession ledger spec, none, [spec]⟩ := by
  unfold pipelineSession
  unfold launchPipeline at launched ⊢
  split at launched
  · cases launched
  rename_i session created
  split at launched
  · cases launched
  · next after started => exact .mk rfl created started

/-- Whatever was published, refused, overtaken or retired, the session runs the graph published
last, each edge has its channel between the runtimes of its ends, and no node is unopened. -/
theorem running_session_coherent (reached : Reachable (Started estimate) (Step estimate) machine) :
    machine.history.head? = some machine.session.topology.spec ∧
      ChannelsBound machine.session.store machine.session.topology ∧
      Opened machine.session.store machine.session.topology := by
  have consistent := reachable_consistent reached
  obtain ⟨place, channelAt, sound⟩ := chain_sound consistent.ready.chain
  exact ⟨sound.current, coherent_bound sound.coherent, consistent.ready.opened⟩

/-- A batch on a running pipeline, with no port ended and no stop. -/
abbrev mutate (batch : Merged) (session : Session) : Outcome × Session :=
  execute pipelineEngine (fun _ _ => false) false batch session

def dropNode (id : String) : Merged where
  patch := { actions := [.removeNode { node := id }] }

def shortened : Outcome × Session :=
  mutate (dropNode "filter") (pipelineSession none filteredPipeline)

/-- The filter is removed, and then refused to be removed once more. -/
def refused : Outcome × Session :=
  mutate (dropNode "filter") shortened.2

theorem refused_session_coherent : shortened.1 = .published 2 ∧ refused.1.undone = true ∧
    refused.2.topology.nodes = [0, 1] ∧ ∃ history : List GraphSpec,
      history.head? = some refused.2.topology.spec ∧
      ChannelsBound refused.2.store refused.2.topology ∧
      Opened refused.2.store refused.2.topology := by
  refine ⟨by decide +kernel, by decide +kernel, by decide +kernel, ?_⟩
  have launched : (launchPipeline none filteredPipeline).toBool = true := by decide +kernel
  obtain ⟨_, published⟩ := execute_reachable (fun _ _ => false) false (dropNode "filter")
    (.initial (pipelineSession_started launched))
  obtain ⟨history, rest⟩ := execute_reachable (fun _ _ => false) false (dropNode "filter") published
  exact ⟨history, running_session_coherent rest⟩

end GraphEngine.SessionRuns
