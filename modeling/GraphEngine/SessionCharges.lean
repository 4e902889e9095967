import GraphEngine.SessionRuns

/-!
The lease of a session against the graph it runs. A mutation is charged for what
it adds when it is admitted and credited for what it takes out when its
retirement ends. The two balance as long as the lists of ids the estimates are
asked for are not read as "everything" by mistake.
-/

namespace GraphEngine.SessionCharges

open Runs GraphSpecs Capabilities KeyedLists OrderedMaps KeyedSums Ledgers Applier Validation
  StructuralDiff NodeRuntimes Topologies TopologyCoherence TopologyChains Sessions SessionLeases
  SessionRuns Option Admission
open List hiding keys

def nodeCost (estimate : NodeResourceEstimator) (dimension : Dimension) (node : NodeSpec) : Nat :=
  weight dimension (nodeAmounts estimate node)

def edgeCost (contracts : Contracts) (dimension : Dimension) (edge : EdgeSpec) : Nat :=
  weight dimension (edgeAmounts contracts edge)

/-- What a topology is charged: every node and every edge once. -/
def charges (estimate : NodeResourceEstimator) (topology : RuntimeTopology) : ResourceAmounts :=
  topology.spec.nodes.flatMap (nodeAmounts estimate) ++
    topology.spec.edges.flatMap (edgeAmounts topology.validated.edgeContracts)

variable {dimension : Dimension}

section Estimates

variable {estimate : NodeResourceEstimator} {spec : GraphSpec} {contracts : Contracts}
  {onlyNodes onlyEdges keptNodes keptEdges : List String}

theorem estimate_everything (topology : RuntimeTopology) :
    (estimateGraphResources estimate topology.spec topology.validated.edgeContracts [] []).amounts =
      mergeAmounts (charges estimate topology) := by
  simp [estimateGraphResources, wanted, charges]

theorem weight_charges (dimension : Dimension) (topology : RuntimeTopology) :
    weight dimension (charges estimate topology) =
      (topology.spec.nodes.map (nodeCost estimate dimension)).sum +
        (topology.spec.edges.map (edgeCost topology.validated.edgeContracts dimension)).sum := by
  rw [charges, weight_append, weight_flatMap, weight_flatMap]
  rfl

theorem weight_estimate (dimension : Dimension) :
    weight dimension (estimateGraphResources estimate spec contracts onlyNodes onlyEdges).amounts =
      (((spec.nodes.filter fun node => wanted onlyNodes node.id).map
          (nodeCost estimate dimension)).sum +
        ((spec.edges.filter fun edge => wanted onlyEdges edge.id).map
          (edgeCost contracts dimension)).sum) % 2 ^ 64 := by
  simp only [estimateGraphResources, mergeAmounts, weight_merge, weight_append, weight_flatMap]
  rfl

def rest (estimate : NodeResourceEstimator) (dimension : Dimension) (spec : GraphSpec)
    (contracts : Contracts) (keptNodes keptEdges : List String) : Nat :=
  ((spec.nodes.filter fun node => node.id ∉ keptNodes).map (nodeCost estimate dimension)).sum +
    ((spec.edges.filter fun edge => edge.id ∉ keptEdges).map (edgeCost contracts dimension)).sum

/-- A list of ids selects what is not carried over, unless it is empty: then it
selects everything, which must cost nothing. -/
theorem sum_wanted {Item : Type} {key : Item → String} {cost : Item → Nat} {items : List Item}
    {only kept : List String} (complement : ∀ item ∈ items, key item ∈ only ↔ key item ∉ kept)
    (clear : only = [] → (items.map cost).sum = 0) :
    ((items.filter fun item => wanted only (key item)).map cost).sum =
      ((items.filter fun item => key item ∉ kept).map cost).sum := by
  by_cases empty : only = []
  · have nothing := clear empty
    have left := sum_split (fun item => wanted only (key item)) cost items
    have right := sum_split (fun item => decide (key item ∉ kept)) cost items
    omega
  · congr 2
    refine filter_congr fun item member => ?_
    simp [wanted, empty, complement item member]

/-- The lists do not select by being empty: when one is and the other is not,
what the empty one stands for costs nothing. -/
structure Unambiguous (estimate : NodeResourceEstimator) (spec : GraphSpec) (contracts : Contracts)
    (onlyNodes onlyEdges : List String) : Prop where
  nodes : onlyNodes = [] → onlyEdges ≠ [] → ∀ dimension,
    (spec.nodes.map (nodeCost estimate dimension)).sum = 0
  edges : onlyEdges = [] → onlyNodes ≠ [] → ∀ dimension,
    (spec.edges.map (edgeCost contracts dimension)).sum = 0

theorem weight_selection (clear : Unambiguous estimate spec contracts onlyNodes onlyEdges)
    (nodes : ∀ node ∈ spec.nodes, node.id ∈ onlyNodes ↔ node.id ∉ keptNodes)
    (edges : ∀ edge ∈ spec.edges, edge.id ∈ onlyEdges ↔ edge.id ∉ keptEdges)
    (fits : (spec.nodes.map (nodeCost estimate dimension)).sum +
      (spec.edges.map (edgeCost contracts dimension)).sum < 2 ^ 64) :
    (if onlyNodes = [] ∧ onlyEdges = [] then 0 else weight dimension
        (estimateGraphResources estimate spec contracts onlyNodes onlyEdges).amounts) =
      rest estimate dimension spec contracts keptNodes keptEdges := by
  have splitNodes := sum_split (fun node : NodeSpec => decide (node.id ∉ keptNodes))
    (nodeCost estimate dimension) spec.nodes
  have splitEdges := sum_split (fun edge : EdgeSpec => decide (edge.id ∉ keptEdges))
    (edgeCost contracts dimension) spec.edges
  split
  · next empty =>
      have noNodes : (spec.nodes.filter fun node => node.id ∉ keptNodes) = [] := by
        refine filter_eq_nil_iff.mpr fun node member => ?_
        simpa [empty.1] using nodes node member
      have noEdges : (spec.edges.filter fun edge => edge.id ∉ keptEdges) = [] := by
        refine filter_eq_nil_iff.mpr fun edge member => ?_
        simpa [empty.2] using edges edge member
      rw [rest, noNodes, noEdges]
      rfl
  · next selects =>
      rw [weight_estimate, sum_wanted nodes, sum_wanted edges]
      · exact Nat.mod_eq_of_lt (by omega)
      · exact fun empty => clear.edges empty (fun none => selects ⟨none, empty⟩) dimension
      · exact fun empty => clear.nodes empty (fun none => selects ⟨empty, none⟩) dimension

end Estimates

/-! One admission. -/

/-- The condition on an admission: neither estimate is asked with an empty list it
could take for "everything", nodes that are carried over cost what they did, and
the lease has room for the candidate in 64 bits. -/
structure Counted (estimate : NodeResourceEstimator) (base candidate : RuntimeTopology)
    (diff : GraphDiff) (lease : Option ResourceAmounts) : Prop where
  adds : Unambiguous estimate candidate.spec candidate.validated.edgeContracts
    (addNodes diff) (addEdges diff)
  removes : Unambiguous estimate base.spec base.validated.edgeContracts
    (rmNodes diff) (rmEdges diff)
  steady : ∀ old ∈ base.spec.nodes, ∀ new ∈ candidate.spec.nodes, old.id = new.id →
    old.op = new.op → ∀ dimension, nodeCost estimate dimension old = nodeCost estimate dimension new
  fits : ∀ amounts, lease = some amounts → ∀ dimension,
    weight dimension amounts + weight dimension (charges estimate candidate) < 2 ^ 64

variable {id : String} {amounts : ResourceAmounts}

section Admissions

variable {estimate : NodeResourceEstimator} {base candidate : RuntimeTopology}

/-- A kept edge is estimated as before: the estimate reads its queue and the
data-plane part of its contract. -/
theorem edgeCost_kept {old new : EdgeSpec} {reused : List String}
    {before after : ConnectionContract}
    (kept : KeptEdge base.spec candidate.spec base.validated.edgeContracts
      candidate.validated.edgeContracts reused id old new)
    (foundBefore : find id base.validated.edgeContracts = some before)
    (foundAfter : find id candidate.validated.edgeContracts = some after) (dimension : Dimension) :
    edgeCost base.validated.edgeContracts dimension old =
      edgeCost candidate.validated.edgeContracts dimension new := by
  have same := kept.contract before after foundBefore foundAfter
  simp only [ConnectionContract.sameDataPlane, Bool.and_eq_true, decide_eq_true_eq] at same
  obtain ⟨⟨⟨⟨⟨⟨-, video⟩, -⟩, tensor⟩, -⟩, -⟩, -⟩ := same
  have bytes : estimatePacketBytes before = estimatePacketBytes after := by
    rw [estimatePacketBytes, estimatePacketBytes, video, tensor]
  rw [edgeCost, edgeCost, edgeAmounts, edgeAmounts, edgePacketBytes, edgePacketBytes,
    kept.inBase.2, kept.inCandidate.2, foundBefore, foundAfter, kept.queue, bind_some,
    bind_some, bytes]

variable {store : Store} {place : String → NodeRef} {channelAt : String → ChannelRef}
  {resolver : CapabilityResolver} {diff : GraphDiff}

theorem charges_exchange (coherent : Coherent store base place channelAt)
    (accepted : Accepted resolver candidate.spec candidate.validated)
    (isDiff : diff = diffFrom base candidate.spec candidate.validated)
    (steady : ∀ old ∈ base.spec.nodes, ∀ new ∈ candidate.spec.nodes, old.id = new.id →
      old.op = new.op → nodeCost estimate dimension old = nodeCost estimate dimension new) :
    weight dimension (charges estimate base) +
        rest estimate dimension candidate.spec candidate.validated.edgeContracts diff.reusedNodes
          diff.reusedEdges = weight dimension (charges estimate candidate) +
        rest estimate dimension base.spec base.validated.edgeContracts diff.reusedNodes
          diff.reusedEdges := by
  subst isDiff
  have shaped := coherent.shaped
  have distinct : ∀ {Entry : Type} {entries : List (String × Entry)} {keep : String × Entry → Bool},
      Ordered entries → (keys (entries.filter keep)).Nodup := fun ordered =>
    (ordered.imp fun below => ne_of_lt below).sublist (filter_sublist.map Prod.fst)
  have nodes := @sum_exchange _ _ _ NodeSpec.id base.spec.nodes candidate.spec.nodes
    (nodeCost estimate dimension) (nodeCost estimate dimension)
    (diffFrom base candidate.spec candidate.validated).reusedNodes
    (distinct (nodeClasses_ordered _)) shaped.nodeIdsDistinct accepted.nodeIdsDistinct (by
      intro id reused
      obtain ⟨old, new, foundOld, foundNew, sameOp⟩ :=
        (mem_reusedNodes shaped.nodeIdsDistinct accepted.nodeIdsDistinct).mp reused
      obtain ⟨oldMember, oldNamed⟩ := lookup_some foundOld
      obtain ⟨newMember, newNamed⟩ := lookup_some foundNew
      exact ⟨old, new, foundOld, foundNew,
        steady old oldMember new newMember (oldNamed.trans newNamed.symm) sameOp⟩)
  have edges := @sum_exchange _ _ _ EdgeSpec.id base.spec.edges candidate.spec.edges
    (edgeCost base.validated.edgeContracts dimension)
    (edgeCost candidate.validated.edgeContracts dimension)
    (diffFrom base candidate.spec candidate.validated).reusedEdges
    (distinct edgeClasses_ordered) shaped.edgeIdsDistinct accepted.edgeIdsDistinct (by
      intro id reused
      obtain ⟨old, new, before, after, kept, foundBefore, foundAfter, -⟩ :=
        kept_across coherent accepted reused
      obtain ⟨oldMember, oldNamed⟩ := kept.inBase
      obtain ⟨newMember, newNamed⟩ := kept.inCandidate
      exact ⟨old, new, (lookup_eq_some shaped.edgeIdsDistinct).mpr ⟨oldMember, oldNamed⟩,
        (lookup_eq_some accepted.edgeIdsDistinct).mpr ⟨newMember, newNamed⟩,
        edgeCost_kept kept foundBefore foundAfter dimension⟩)
  rw [weight_charges, weight_charges, rest, rest]
  omega

theorem added_weight {reject : Bool} {spec : GraphSpec} {contracts : Contracts}
    (done : added estimate reject diff spec contracts = .ok amounts)
    (dimension : Dimension) : weight dimension amounts =
      if addNodes diff = [] ∧ addEdges diff = [] then 0
      else weight dimension (estimateGraphResources estimate spec contracts
        (addNodes diff) (addEdges diff)).amounts := by
  unfold added at done
  split at done
  · next empty =>
      cases done
      rw [if_pos empty, weight_nil]
  · next selects =>
      rw [if_neg selects, estimateForAdmission_ok done]

theorem removed_weight (dimension : Dimension) : weight dimension (removed estimate diff base) =
      if rmNodes diff = [] ∧ rmEdges diff = [] then 0
      else weight dimension (estimateGraphResources estimate base.spec base.validated.edgeContracts
        (rmNodes diff) (rmEdges diff)).amounts := by
  unfold removed
  split
  · rfl
  · simp [estimateForAdmission]

theorem mem_changedNodes (baseDistinct : base.spec.nodeIds.Nodup)
    (distinct : candidate.spec.nodeIds.Nodup)
    (isDiff : diff = diffFrom base candidate.spec candidate.validated) :
    (id ∈ candidate.spec.nodeIds → (id ∈ addNodes diff ↔ id ∉ diff.reusedNodes)) ∧
      (id ∈ base.spec.nodeIds → (id ∈ rmNodes diff ↔ id ∉ diff.reusedNodes)) := by
  subst isDiff
  have classified := @node_class id base.spec base.validated.edgeContracts candidate.spec
    candidate.validated.edgeContracts baseDistinct distinct
  constructor <;> intro known
  · obtain ⟨change, classes, reused, notRemoved, -⟩ := classified (.inr known)
    simp only [Admission.addNodes, diffFrom]
    cases change <;> simp_all
  · obtain ⟨change, classes, reused, -, notAdded⟩ := classified (.inl known)
    simp only [rmNodes, diffFrom]
    cases change <;> simp_all

theorem mem_changedEdges (baseDistinct : base.spec.edgeIds.Nodup)
    (distinct : candidate.spec.edgeIds.Nodup)
    (isDiff : diff = diffFrom base candidate.spec candidate.validated) :
    (id ∈ candidate.spec.edgeIds → (id ∈ addEdges diff ↔ id ∉ diff.reusedEdges)) ∧
      (id ∈ base.spec.edgeIds → (id ∈ rmEdges diff ↔ id ∉ diff.reusedEdges)) := by
  subst isDiff
  have classified := @edge_class id base.spec base.validated.edgeContracts candidate.spec
    candidate.validated.edgeContracts baseDistinct distinct
  constructor <;> intro known
  · obtain ⟨change, classes, reused, notRemoved, -⟩ := classified (.inr known)
    simp only [Admission.addEdges, diffFrom]
    cases change <;> simp_all
  · obtain ⟨change, classes, reused, -, notAdded⟩ := classified (.inl known)
    simp only [rmEdges, diffFrom]
    cases change <;> simp_all

/-- What an admission adds and what it will take out make up the difference
between the two graphs. -/
theorem admission_balances (coherent : Coherent store base place channelAt)
    (accepted : Accepted resolver candidate.spec candidate.validated)
    (isDiff : diff = diffFrom base candidate.spec candidate.validated) {reject : Bool}
    {added : ResourceAmounts} (estimates : Admission.added estimate reject diff candidate.spec
      candidate.validated.edgeContracts = .ok added)
    (counted : Counted estimate base candidate diff (some amounts))
    (within : ∀ dimension, weight dimension (charges estimate base) ≤ weight dimension amounts)
    (dimension : Dimension) : weight dimension (charges estimate base) + weight dimension added =
        weight dimension (charges estimate candidate) +
          weight dimension (removed estimate diff base) ∧
      weight dimension amounts + weight dimension added < 2 ^ 64 := by
  have shaped := coherent.shaped
  have fits := counted.fits amounts rfl dimension
  have held := within dimension
  have exchange := charges_exchange coherent accepted isDiff fun old oldMember new newMember named
    sameOp => counted.steady old oldMember new newMember named sameOp dimension
  rw [weight_charges] at fits held
  have nodes id := @mem_changedNodes id _ _ _ shaped.nodeIdsDistinct accepted.nodeIdsDistinct isDiff
  have edges id := @mem_changedEdges id _ _ _ shaped.edgeIdsDistinct accepted.edgeIdsDistinct isDiff
  have adds : weight dimension added = rest estimate dimension candidate.spec
      candidate.validated.edgeContracts diff.reusedNodes diff.reusedEdges := by
    rw [added_weight estimates]
    refine weight_selection counted.adds ?_ ?_ (by omega)
    · exact fun node member => (nodes _).1 (mem_map.mpr ⟨node, member, rfl⟩)
    · exact fun edge member => (edges _).1 (mem_map.mpr ⟨edge, member, rfl⟩)
  have removes : weight dimension (removed estimate diff base) = rest estimate dimension
      base.spec base.validated.edgeContracts diff.reusedNodes diff.reusedEdges := by
    rw [removed_weight]
    refine weight_selection counted.removes ?_ ?_ (by omega)
    · exact fun node member => (nodes _).2 (mem_map.mpr ⟨node, member, rfl⟩)
    · exact fun edge member => (edges _).2 (mem_map.mpr ⟨edge, member, rfl⟩)
  have below : rest estimate dimension candidate.spec candidate.validated.edgeContracts
      diff.reusedNodes diff.reusedEdges ≤ weight dimension (charges estimate candidate) := by
    have splitNodes := sum_split (fun node : NodeSpec => decide (node.id ∉ diff.reusedNodes))
      (nodeCost estimate dimension) candidate.spec.nodes
    have splitEdges := sum_split (fun edge : EdgeSpec => decide (edge.id ∉ diff.reusedEdges))
      (edgeCost candidate.validated.edgeContracts dimension) candidate.spec.edges
    rw [weight_charges, rest]
    omega
  rw [weight_charges] at below
  exact ⟨by omega, by omega⟩

end Admissions

/-! Whole runs. -/

def retiringWeight (dimension : Dimension) (retiring : List Retirement) : Nat :=
  (retiring.map fun retirement => weight dimension retirement.removed).sum

/-- The lease pays for the running graph, for what is retiring and for a mutation
in flight, which will exchange what it adds for what it removes. -/
structure Balanced (estimate : NodeResourceEstimator) (session : Session)
    (pending : Option Prepared) : Prop where
  lease : ∀ amounts, session.lease = some amounts → ∀ dimension, weight dimension amounts =
    weight dimension (charges estimate session.topology) +
      retiringWeight dimension session.retiring +
      pending.elim 0 fun prepared => weight dimension prepared.added
  exchange : session.lease.isSome = true → ∀ prepared, pending = some prepared → ∀ dimension,
    weight dimension (charges estimate session.topology) + weight dimension prepared.added =
      weight dimension (charges estimate prepared.candidate) + weight dimension prepared.removed

variable {estimate : NodeResourceEstimator}
variable {pending : Option Prepared}

theorem balanced_frame {before : Session} (after : Session)
    (balanced : Balanced estimate before pending) (lease : after.lease = before.lease)
    (topology : after.topology = before.topology) (retiring : after.retiring = before.retiring) :
    Balanced estimate after pending := by
  constructor
  · rw [lease, topology, retiring]
    exact balanced.lease
  · rw [lease, topology]
    exact balanced.exchange

variable {prepared : Prepared}

theorem withdraw_balanced {before : Session} (session : Session) (canonical : LeaseCanonical before)
    (balanced : Balanced estimate before (some prepared)) (lease : session.lease = before.lease)
    (topology : session.topology = before.topology)
    (retiring : session.retiring = before.retiring) :
    Balanced estimate (withdraw prepared session) none := by
  refine ⟨?_, nofun⟩
  intro resized held dimension
  have sameTopology : (withdraw prepared session).topology = before.topology := by
    rw [withdraw_frame]
    exact topology
  have sameRetiring : (withdraw prepared session).retiring = before.retiring := by
    rw [withdraw_frame]
    exact retiring
  rw [sameTopology, sameRetiring]
  cases leased : before.lease with
  | none =>
    rw [withdraw_unleased prepared (lease.trans leased)] at held
    cases held
  | some amounts =>
    have before := balanced.lease amounts leased dimension
    obtain ⟨found, heldFound, -, weights⟩ :=
      withdraw_weight prepared (canonical amounts leased) (lease.trans leased)
    rw [held, some.injEq] at heldFound
    rw [heldFound, weights dimension]
    simp only [elim_some, elim_none] at before ⊢
    omega

variable {session : Session} {history : List GraphSpec} {patch : MutationPatch}

theorem prepare_balanced {State : Type} {engine : Engine State} {after : Session}
    (priced : engine.estimate = estimate) (ready : Ready history session)
    (balanced : Balanced estimate session none)
    (done : prepareCandidate engine patch session = (.ok prepared, after))
    (counted : Counted estimate session.topology prepared.candidate prepared.diff session.lease) :
    Balanced estimate after (some prepared) := by
  obtain ⟨validated, store, reserved, admitted⟩ := prepareCandidate_ok done
  obtain ⟨purpose, reserves⟩ := admitted.reserves
  obtain ⟨frame, leased⟩ := reserveResources_frame reserves
  obtain ⟨place, channelAt, sound⟩ := chain_sound ready.chain
  obtain ⟨-, specIs, validatedIs, -⟩ := next_version ready.chain admitted.accepted admitted.built
  have accepted := validate_accepted admitted.accepted
  have topology : reserved.topology = session.topology := by rw [frame]
  have retiring : reserved.retiring = session.retiring := by rw [frame]
  have isDiff := admitted.diff
  have estimates := admitted.added
  rw [← validatedIs, ← specIs] at accepted
  rw [← specIs, ← validatedIs] at isDiff estimates
  rw [priced] at estimates
  have removed := admitted.removed
  rw [priced] at removed
  -- Without a lease there is nothing to balance.
  cases held : session.lease with
  | none =>
    rw [held] at leased
    rw [admitted.result]
    constructor
    · intro amounts impossible
      rw [isSome_eq_false_iff.mp leased |> isNone_iff_eq_none.mp] at impossible
      cases impossible
    · intro impossible
      rw [leased] at impossible
      cases impossible
  | some amounts =>
    have paid := balanced.lease amounts held
    rw [held] at counted
    have exchange := admission_balances sound.coherent accepted isDiff estimates counted
      fun dimension => by rw [paid dimension]; omega
    obtain ⟨resized, heldResized, -, weights⟩ :=
      reserveResources_weight (ready.canonical amounts held) held reserves
    rw [admitted.result]
    constructor
    · intro found heldFound dimension
      rw [heldResized, some.injEq] at heldFound
      rw [← heldFound, weights dimension, topology, retiring,
        Nat.mod_eq_of_lt (exchange dimension).2, paid dimension]
      rfl
    · rintro - _ ⟨⟩ dimension
      rw [topology, removed]
      exact (exchange dimension).1

theorem commit_balanced {ended : BindingRef → String → Bool} {batch : Merged} {after : Session}
    {outcome : Outcome} (canonical : LeaseCanonical session)
    (balanced : Balanced estimate session (some prepared))
    (done : commit ended batch prepared session = (outcome, after)) :
    Balanced estimate after none := by
  rcases commit_cases done with
    ⟨status, -, rfl, rfl⟩ | ⟨updates, -, ⟨-, -, rfl⟩ | ⟨-, -, retirement, credited, rfl⟩⟩
  · exact withdraw_balanced session canonical balanced rfl rfl rfl
  · refine withdraw_balanced _ canonical balanced ?_ ?_ ?_ <;> rfl
  · refine ⟨?_, nofun⟩
    intro amounts held dimension
    have paid := balanced.lease amounts held dimension
    have exchange := balanced.exchange (isSome_iff_exists.mpr ⟨amounts, held⟩) prepared rfl
      dimension
    -- The charges read the graph and its contracts, not the pending rebinds.
    have same : charges estimate { prepared.candidate with rebinds := [] } =
        charges estimate prepared.candidate := rfl
    simp only [same, retiringWeight, map_append, sum_append, map_cons, map_nil,
      sum_cons, sum_nil, credited, elim_none, elim_some] at paid ⊢
    omega

theorem retire_balanced {retirement : Retirement} (canonical : LeaseCanonical session)
    (balanced : Balanced estimate session pending) (member : retirement ∈ session.retiring) :
    Balanced estimate (completeRetirement retirement session) pending := by
  have frame := returnResources_frame
    { session with retiring := session.retiring.erase retirement } retirement.removed
  rw [← completeRetirement] at frame
  have topology : (completeRetirement retirement session).topology = session.topology := by rw [frame]
  have retiring : (completeRetirement retirement session).retiring =
      session.retiring.erase retirement := by rw [frame]
  cases leased : session.lease with
  | none =>
    have unleased : (completeRetirement retirement session).lease = none := by
      rw [completeRetirement, @returnResources_none
        { session with retiring := session.retiring.erase retirement } leased]
      exact leased
    constructor
    · intro amounts held
      rw [unleased] at held
      cases held
    · intro held
      rw [unleased] at held
      cases held
  | some amounts =>
    obtain ⟨resized, heldResized, -, weights⟩ := @returnResources_weight
      { session with retiring := session.retiring.erase retirement } amounts
      (canonical amounts leased) leased retirement.removed
    rw [← completeRetirement] at heldResized
    constructor
    · intro found held dimension
      rw [heldResized, some.injEq] at held
      have paid := balanced.lease amounts leased dimension
      have erased := sum_map_erase (fun item : Retirement => weight dimension item.removed)
        member
      rw [← held, weights dimension, topology, retiring]
      unfold retiringWeight at paid ⊢
      omega
    · intro _
      rw [topology]
      exact balanced.exchange (leased ▸ rfl)

/-- The condition, on steps: it looks at admissions only. -/
def CountedSteps (estimate : NodeResourceEstimator) (before after : Machine) : Prop :=
  ∀ flight, before.flight = none → after.flight = some flight →
    Counted estimate before.session.topology flight.prepared.candidate flight.prepared.diff
      before.session.lease

theorem countedSteps_elsewhere (before after : Machine)
    (idle : before.flight = none → after.flight = none) : CountedSteps estimate before after := by
  intro flight landed flying
  rw [idle landed] at flying
  cases flying

theorem step_balanced {before after : Machine} (consistent : Consistent before)
    (balanced : Balanced estimate before.session (before.flight.map Flight.prepared))
    (step : Step estimate before after) (counted : CountedSteps estimate before after) :
    Balanced estimate after.session (after.flight.map Flight.prepared) := by
  have canonical := consistent.ready.canonical
  cases step with
  | reject priced refused =>
    rcases prepareCandidate_error refused with rfl | ⟨_, _, _, _, -, -, rfl⟩
    · exact balanced
    · refine balanced_frame _ balanced ?_ ?_ ?_ <;> rfl
  | prepare priced accepts current prepares =>
    exact prepare_balanced priced consistent.ready balanced prepares (counted _ rfl rfl)
  | refuse refused =>
    obtain ⟨store, -, rfl⟩ := warmUp_error refused
    refine withdraw_balanced _ canonical balanced ?_ ?_ ?_ <;> rfl
  | warm warmed =>
    obtain ⟨store, -, rfl⟩ := warmUp_ok warmed
    refine balanced_frame _ balanced ?_ ?_ ?_ <;> rfl
  | commit committed => exact commit_balanced canonical balanced committed
  | retire member => exact retire_balanced canonical balanced member
  | live ref change lives | bind bindings same | control state stopping | share ledger =>
    exact balanced_frame _ balanced rfl rfl rfl

/-- A started session whose graph fits into 64 bits. -/
def StartedWithin (estimate : NodeResourceEstimator) (machine : Machine) : Prop :=
  Started estimate machine ∧
    ∀ dimension, weight dimension (charges estimate machine.session.topology) < 2 ^ 64

theorem started_balanced {machine : Machine} (started : StartedWithin estimate machine) :
    Balanced estimate machine.session (machine.flight.map Flight.prepared) := by
  obtain ⟨⟨priced, created, launched⟩, fits⟩ := started
  obtain ⟨-, settled, validated, accepted, built, leased⟩ := create_ok created
  obtain ⟨store, -, rfl⟩ := start_ok launched
  obtain ⟨-, specIs, validatedIs, -⟩ := first_version rfl accepted built
  refine ⟨?_, nofun⟩
  intro amounts held dimension
  have initial := leased amounts held
  rw [priced, ← specIs, ← validatedIs, estimate_everything] at initial
  simp only [initial, settled, mergeAmounts, weight_merge, Nat.mod_eq_of_lt (fits dimension)]
  rfl

theorem reachable_balanced {machine : Machine}
    (reached : Reachable (StartedWithin estimate) (Under (CountedSteps estimate) (Step estimate))
      machine) :
    Consistent machine ∧ Balanced estimate machine.session (machine.flight.map Flight.prepared) := by
  refine reachable_invariant (fun machine => Consistent machine ∧
    Balanced estimate machine.session (machine.flight.map Flight.prepared)) ?_ ?_ reached
  · exact fun machine started => ⟨started_consistent started.1, started_balanced started⟩
  · rintro before after - ⟨consistent, balanced⟩ ⟨step, counted⟩
    exact ⟨step_consistent consistent step, step_balanced consistent balanced step counted⟩

variable {admitted : Session}

theorem counted_fits {State : Type} {engine : Engine State} (priced : engine.estimate = estimate)
    (ready : Ready history session) (balanced : Balanced estimate session none)
    (prepares : prepareCandidate engine patch session = (.ok prepared, admitted))
    (counted : Counted estimate session.topology prepared.candidate prepared.diff session.lease) :
    Fits session prepared.added := by
  intro amounts held dimension
  have after := prepare_balanced priced ready balanced prepares counted
  obtain ⟨validated, store, reserved, admission⟩ := prepareCandidate_ok prepares
  obtain ⟨purpose, reserves⟩ := admission.reserves
  obtain ⟨resized, heldResized, canonical, weights⟩ :=
    reserveResources_weight (ready.canonical amounts held) held reserves
  have below := weight_lt canonical.ordered dimension
  have paid := balanced.lease amounts held dimension
  have leased : admitted.lease = some resized := by rw [admission.result]; exact heldResized
  have paidAfter := after.lease resized leased dimension
  have frame : admitted = { session with
      store := admitted.store, ledger := admitted.ledger, lease := admitted.lease } := by
    rw [admission.result, (reserveResources_frame reserves).1]
  rw [frame] at paidAfter
  simp only [elim_some, elim_none] at paid paidAfter
  omega

/-- In every run whose admissions are counted, the lease of an idle session is the
merged estimate of the running graph and of what is still retiring, and a batch
that comes to nothing leaves it unchanged. -/
theorem counted_run_lease {machine : Machine}
    (reached : Reachable (StartedWithin estimate) (Under (CountedSteps estimate) (Step estimate))
      machine) (idle : machine.flight = none) : (∀ amounts, machine.session.lease = some amounts →
      amounts = mergeAmounts (charges estimate machine.session.topology ++
        machine.session.retiring.flatMap Retirement.removed) ∧
      (machine.session.retiring = [] → amounts = (estimateGraphResources estimate
        machine.session.topology.spec machine.session.topology.validated.edgeContracts
        [] []).amounts)) ∧ ∀ {State : Type} (engine : Engine State) ended raced batch outcome after,
      engine.estimate = estimate →
      execute engine ended raced batch machine.session = (outcome, after) → outcome.undone = true →
      (∀ prepared admitted, Admits engine batch machine.session prepared admitted →
        Counted estimate machine.session.topology prepared.candidate prepared.diff
          machine.session.lease) → after.lease = machine.session.lease := by
  obtain ⟨consistent, balanced⟩ := reachable_balanced reached
  rw [idle] at balanced
  constructor
  · intro amounts held
    have canonical := consistent.ready.canonical amounts held
    have weights : ∀ dimension, weight dimension (charges estimate machine.session.topology ++
        machine.session.retiring.flatMap Retirement.removed) = weight dimension amounts := by
      intro dimension
      rw [weight_append, weight_flatMap, balanced.lease amounts held dimension]
      rfl
    have merged : amounts = mergeAmounts (charges estimate machine.session.topology ++
        machine.session.retiring.flatMap Retirement.removed) := by
      refine canonical_ext canonical (merge_canonical fun dimension => ?_) fun dimension => ?_
      · rw [weights dimension]
        exact weight_lt canonical.ordered dimension
      · rw [mergeAmounts, weight_merge, weights dimension,
          Nat.mod_eq_of_lt (weight_lt canonical.ordered dimension)]
    refine ⟨merged, ?_⟩
    intro settled
    rw [estimate_everything, merged, settled, flatMap_nil, append_nil]
  · intro State engine ended raced batch outcome after priced done undone counted
    refine undone_lease consistent.ready.canonical (execute_undone done undone) ?_
    intro prepared admitted admits
    exact counted_fits priced consistent.ready balanced admits.prepares
      (counted prepared admitted admits)

/-! The pipeline on an unlimited ledger. -/

def threads (count : UInt64) : ResourceAmounts := [(⟨.cpuThreads, -1⟩, count)]

def addFilter : Merged where
  patch := { actions := [
    .addNode { id := "filter", op := ⟨"Filter", "1"⟩ },
    .addEdge { id := "enter", fromPort := ⟨"source", "out"⟩, toPort := ⟨"filter", "in"⟩ },
    .addEdge { id := "leave", fromPort := ⟨"filter", "out"⟩, toPort := ⟨"sink", "in"⟩ }] }

def meteredSession : Session := pipelineSession (some []) directPipeline

def extendedSession : Session :=
  retireOldest (mutate addFilter meteredSession).2

theorem addFilter_counted
    (prepares : prepareCandidate pipelineEngine addFilter.patch meteredSession =
      (.ok prepared, admitted)) :
    Counted pipelineEngine.estimate meteredSession.topology prepared.candidate prepared.diff
      meteredSession.lease := by
  have small : ((prepareCandidate pipelineEngine addFilter.patch meteredSession).1.toOption.all
      fun prepared => decide (Admission.addNodes prepared.diff ≠ [] ∧
        Admission.addEdges prepared.diff ≠ [] ∧ rmNodes prepared.diff = [] ∧
        rmEdges prepared.diff = [] ∧ ((charges pipelineEngine.estimate
          prepared.candidate).map fun entry => entry.2.toNat).sum < 8)) = true := by decide
  have leased : meteredSession.lease = some (threads 2) := by decide
  rw [prepares] at small
  simp only [Except.toOption, all_some, decide_eq_true_eq] at small
  obtain ⟨nodes, edges, noNodes, noEdges, total⟩ := small
  refine ⟨⟨?_, ?_⟩, ⟨?_, ?_⟩, fun _ _ _ _ _ _ _ => rfl, ?_⟩
  · exact fun empty => absurd empty nodes
  · exact fun empty => absurd empty edges
  · exact fun _ some => absurd noEdges some
  · exact fun _ some => absurd noNodes some
  · intro amounts held dimension
    rw [leased, some.injEq] at held
    have charged := weight_le_total dimension (charges pipelineEngine.estimate prepared.candidate)
    have paid := weight_le_total dimension (threads 2)
    have two : ((threads 2).map fun entry => entry.2.toNat).sum = 2 := by decide
    rw [← held]
    omega

/-- A filter and its edges are charged once. -/
theorem extended_lease : extendedSession.lease = some (threads 3) ∧
    threads 3 = (estimateGraphResources pipelineEngine.estimate extendedSession.topology.spec
      extendedSession.topology.validated.edgeContracts [] []).amounts := by
  have held : extendedSession.lease = some (threads 3) := by decide
  have settled : extendedSession.retiring = [] := by decide
  have launched : (launchPipeline (some []) directPipeline).toBool = true := by decide
  have within : ∀ dimension, weight dimension
      (charges pipelineEngine.estimate meteredSession.topology) < 2 ^ 64 := fun dimension =>
    (weight_le_total dimension _).trans_lt (by decide)
  have started : Reachable (StartedWithin pipelineEngine.estimate)
      (Under (CountedSteps pipelineEngine.estimate) (Step pipelineEngine.estimate))
      ⟨meteredSession, none, [directPipeline]⟩ :=
    .initial ⟨pipelineSession_started launched, within⟩
  obtain ⟨later, executed⟩ := execute_reachable_under (fun _ _ => false) false addFilter
    (fun _ _ idle _ => countedSteps_elsewhere _ _ idle) (by
      rintro prepared admitted prepares _ - ⟨⟩
      exact addFilter_counted prepares)
    (fun _ _ _ _ _ _ landed _ => countedSteps_elsewhere _ _ fun _ => landed) started
  have retired := retireOldest_reachable_under (fun _ _ idle _ => countedSteps_elsewhere _ _ idle)
    executed
  exact ⟨held, ((counted_run_lease retired rfl).1 _ held).2 settled⟩

/-- The filtered pipeline without its direct edge. -/
def detourPipeline : GraphSpec := { filteredPipeline with edges := filteredPipeline.edges.drop 1 }

/-- The direct edge comes back, and nothing else changes. -/
def addDirect : Merged where
  patch := { actions := [
    .addEdge { id := "direct", fromPort := ⟨"source", "out"⟩, toPort := ⟨"sink", "in"⟩ }] }

def rejoinedSession : Session :=
  retireOldest (mutate addDirect (pipelineSession (some []) detourPipeline)).2

/-- A mutation of one edge is charged for every node of the graph again, and the
charge stays when its retirement is complete. -/
theorem rejoined_overcharged :
    ∃ history, Reachable (Started pipelineEngine.estimate) (Step pipelineEngine.estimate)
        ⟨rejoinedSession, none, history⟩ ∧
      rejoinedSession.retiring = [] ∧ rejoinedSession.lease = some (threads 6) ∧
      (estimateGraphResources pipelineEngine.estimate rejoinedSession.topology.spec
        rejoinedSession.topology.validated.edgeContracts [] []).amounts = threads 3 := by
  have launched : (launchPipeline (some []) detourPipeline).toBool = true := by decide
  obtain ⟨history, published⟩ := execute_reachable (fun _ _ => false) false addDirect
    (Reachable.initial (pipelineSession_started launched))
  exact ⟨history, retireOldest_reachable published, by decide, by decide, by decide⟩

end GraphEngine.SessionCharges
