import GraphEngine.AppliedEdits
import GraphEngine.SchedulerStates
import GraphEngine.SessionRuns

/-!
Under which policy a published version retires what it removed. The applier notes one
policy for each removed node, its action's own or the default of the patch; `Execute`
asks the scheduler once, with the default of the patch, for all of them.
-/

namespace GraphEngine.RemovalPolicies

open Values GraphSpecs Capabilities Fallible OrderedMaps Applier AppliedEdits NodeRuntimes
  TopologyChains Sessions SessionRuns SchedulerStates World

def ownPolicy : MutationAction → Option RemovePolicy
  | .removeNode action => action.removePolicy
  | .removeChain action => action.removePolicy
  | .replaceNode action => action.removePolicy
  | .removeBranch action => action.removePolicy
  | _ => none

/-- What is noted was noted before or is noted under this policy. -/
def Noted (policy : RemovePolicy) (before after : CandidateSpec) : Prop :=
  ∀ entry ∈ after.nodeRemovePolicy, entry ∈ before.nodeRemovePolicy ∨ entry.2 = policy

variable {policy : RemovePolicy} {before middle after : CandidateSpec} {id : String}
  {resolver : CapabilityResolver}

theorem noted_trans (first : Noted policy before middle) (second : Noted policy middle after) :
    Noted policy before after := by
  intro entry member
  rcases second entry member with old | new
  · exact first entry old
  · exact .inr new

theorem noted_same (same : after.nodeRemovePolicy = before.nodeRemovePolicy) :
    Noted policy before after :=
  fun _ member => .inl (same ▸ member)

theorem noted_fold {Item : Type} {items : List Item}
    {step : CandidateSpec → Item → Result CandidateSpec}
    (each : ∀ item s t, step s item = .ok t → Noted policy s t)
    (done : items.foldlM step before = .ok after) : Noted policy before after := by
  refine foldlM_invariant (Noted policy before) ?_ done ?_
  · exact fun item _ s t ran noted => noted_trans noted (each item s t ran)
  · exact noted_same rfl

theorem addNode_noted {node : NodeSpec} (done : addNodeTracked node before = .ok after) :
    Noted policy before after := by
  obtain ⟨-, -, rfl⟩ := addNodeTracked_ok.mp done
  exact noted_same rfl

theorem addEdge_noted {edge : EdgeSpec} (done : addEdgeTracked edge before = .ok after) :
    Noted policy before after := by
  obtain ⟨-, rfl⟩ := (addEdgeTracked_ok rfl).mp done
  exact noted_same rfl

theorem removeEdge_noted (done : removeEdgeTracked id before = .ok after) :
    Noted policy before after := by
  obtain ⟨-, -, rfl⟩ := removeEdgeTracked_ok.mp done
  exact noted_same rfl

theorem removeNodeWithEdges_noted (done : removeNodeWithEdges id policy before = .ok after) :
    Noted policy before after := by
  simp only [removeNodeWithEdges, guard_ok, bind_ok, dropNode_ok] at done
  obtain ⟨-, middle, cleared, -, rfl⟩ := done
  refine noted_trans (noted_fold (fun _ _ _ => removeEdge_noted) cleared) ?_
  intro entry member
  split at member
  · exact .inl member
  · rcases mem_assign member with rfl | old
    · exact .inr rfl
    · exact .inl old

theorem removeNodes_noted {ids : List String} (done : removeNodes ids policy before = .ok after) :
    Noted policy before after :=
  noted_fold (fun _ _ _ => removeNodeWithEdges_noted) done

theorem removeChain_noted {action : RemoveChainAction}
    (done : removeChain action policy before = .ok after) : Noted policy before after := by
  unfold removeChain at done
  rw [guard_ok] at done
  obtain ⟨-, done⟩ := done
  split at done
  · exact removeNodes_noted done
  rw [bind_ok] at done
  obtain ⟨boundary, -, done⟩ := done
  split at done
  · obtain ⟨middle, removed, bypassed⟩ := bind_ok.mp done
    exact noted_trans (removeNodes_noted removed) (addEdge_noted bypassed)
  · cases done

theorem applyOne_noted {action : MutationAction}
    (done : applyOne resolver policy action before = .ok after) :
    Noted ((ownPolicy action).getD policy) before after := by
  cases action with
  | addNode node => exact addNode_noted done
  | removeNode a =>
    simp only [applyOne] at done
    split at done
    · exact removeChain_noted done
    · exact removeNodeWithEdges_noted done
  | insertChain a =>
    simp only [applyOne, insertChain, guard_ok] at done
    obtain ⟨-, done⟩ := done
    split at done
    · cases done
    simp only [bind_ok] at done
    obtain ⟨-, -, wired, -, split, removed, grown, added, linked⟩ := done
    exact noted_trans (removeEdge_noted removed) (noted_trans
      (noted_fold (fun _ _ _ => addNode_noted) added)
      (noted_fold (fun _ _ _ => addEdge_noted) linked))
  | removeChain a => exact removeChain_noted done
  | replaceNode a =>
    obtain ⟨old, incoming, outgoing, middle, grown, -, -, -, removed, added, linked⟩ :=
      replaceNode_ok.mp done
    exact noted_trans (removeNodeWithEdges_noted removed) (noted_trans (addNode_noted added)
      (noted_fold (fun _ _ _ => addEdge_noted) linked))
  | removeBranch a =>
    simp only [applyOne, removeBranch, guard_ok, bind_ok] at done
    obtain ⟨-, stack, -, -, -, -, -, -, removed⟩ := done
    exact removeNodes_noted removed
  | addEdge edge => exact addEdge_noted done
  | removeEdge id => exact removeEdge_noted done
  | setNodeOptions a =>
    obtain ⟨-, rfl⟩ := setNodeOptions_ok.mp done
    exact noted_same rfl

theorem apply_noted {base : GraphSpec} {patch : MutationPatch}
    (done : apply resolver base patch = .ok after) :
    ∀ entry ∈ after.nodeRemovePolicy, ∃ action ∈ patch.actions,
      entry.2 = (ownPolicy action).getD patch.removePolicy := by
  obtain ⟨-, folded⟩ := guard_ok.mp done
  refine foldlM_invariant (fun out => ∀ entry ∈ out.nodeRemovePolicy, ∃ action ∈ patch.actions,
    entry.2 = (ownPolicy action).getD patch.removePolicy) ?_ folded nofun
  intro indexed member s t step noted entry inside
  rcases applyOne_noted (applyIndexed_ok.mp step) entry inside with old | new
  · exact noted entry old
  · exact ⟨indexed.1, List.fst_mem_of_mem_zipIdx member, new⟩

section Published

variable {State : Type} {engine : Engine State} {ended : BindingRef → String → Bool}
  {raced : Bool} {batch : Merged} {session later : Session} {version : Nat}

theorem prepareCandidate_policy {prepared : Prepared}
    (done : prepareCandidate engine batch.patch session = (.ok prepared, later)) :
    prepared.policy = batch.patch.removePolicy := by
  unfold prepareCandidate at done
  dsimp only at done
  repeat' split at done
  all_goals cases done
  rfl

/-- The retirement that a published version starts. -/
structure Starts (retirement : Retirement) (before after : Session) (policy : RemovePolicy) :
    Prop where
  last : after.retiring.getLast? = some retirement
  policy : retirement.policy = policy
  nodes : retirement.removedNodes =
    before.topology.nodes.filter fun n => n ∉ after.topology.nodes
  edges : retirement.removedEdges =
    before.topology.edges.filter fun e => e ∉ after.topology.edges

theorem commit_retires {prepared : Prepared}
    (done : commit ended batch prepared session = (.published version, later)) :
    ∃ retirement, Starts retirement session later prepared.policy := by
  unfold commit publish at done
  dsimp only at done
  split at done
  · cases done
  split_ifs at done
  · cases done
  · cases done
    exact ⟨_, List.getLast?_concat, rfl, rfl, rfl⟩

theorem execute_retires (done : execute engine ended raced batch session =
    (.published version, later)) :
    ∃ changes retirement, applyPatch engine.factory.describe session.store session.topology
        batch.patch = .ok changes ∧ Starts retirement session later batch.patch.removePolicy := by
  unfold execute at done
  split_ifs at done
  · cases done
  split at done
  · cases done
  split at done
  · cases done
  rename_i prepared admitted prepares
  split at done
  · cases done
  rename_i warmed opened
  obtain ⟨retirement, starts⟩ := commit_retires done
  obtain ⟨_, _, _, admission⟩ := prepareCandidate_ok prepares
  obtain ⟨_, -, rfl⟩ := warmUp_ok opened
  obtain ⟨_, reserves⟩ := admission.reserves
  have same : admitted.topology = session.topology := by
    rw [admission.result, (SessionLeases.reserveResources_frame reserves).1]
  exact ⟨_, retirement, admission.applied, starts.last,
    starts.policy.trans (prepareCandidate_policy prepares), same ▸ starts.nodes,
    same ▸ starts.edges⟩

/-- A runtime of the node that a published version no longer has. -/
structure Removed (before after : Session) (id : String) (n : NodeRef) : Prop where
  listed : n ∈ before.topology.nodes
  named : (before.store.nodes[n]?).map NodeRuntime.externalId = some id
  gone : n ∉ after.topology.nodes

def removedEdgesOf (before after : Session) (n : NodeRef) : List ChannelRef :=
  before.topology.edges.filter fun e => e ∉ after.topology.edges ∧
    (before.store.channels[e]?).any fun channel => channel.producer = n ∨ channel.consumer = n

/-- What the scheduler does to a removed node and its edges under a policy. -/
structure Retires (policy : RemovePolicy) (nodes : List NodeRef)
    (edges : List ChannelRef) (before after : World) : Prop where
  cancelled : policy = .fast → ∀ n ∈ nodes, (after.cells n).cancelled = true
  cut : policy = .fast → ∀ e ∈ edges, after.edges e = (before.edges e).markRetired true
  retiring : policy = .drain → ∀ n ∈ nodes, (after.cells n).retiring = true ∧
    (after.cells n).cancelled = (before.cells n).cancelled
  drained : policy = .drain → ∀ e ∈ edges, after.edges e = before.edges e ∨
    after.edges e = (before.edges e).markDraining

def RetiredUnder (policy : RemovePolicy) (retirement : Retirement) (n : NodeRef)
    (edges : List ChannelRef) (plant : Plant) (world : World) : Prop :=
  Retires policy [n] edges world
    (world.retire plant retirement.policy retirement.removedNodes retirement.removedEdges)

theorem retire_retires (policy : RemovePolicy) (plant : Plant) (nodes : List NodeRef)
    (edges : List ChannelRef) (world : World) :
    Retires policy nodes edges world (world.retire plant policy nodes edges) := by
  cases policy with
  | fast =>
    refine ⟨fun _ n member => ?_, fun _ e member => ?_, nofun, nofun⟩
    · simp [retire, applyFast, touchAll, modifyAll, member]
    · simp [retire, applyFast, touchAll, modifyAll, member]
  | drain =>
    refine ⟨nofun, nofun, fun _ n member => ?_, fun _ e member => ?_⟩
    · simp [retire, touchAll, modifyAll, member]
    · simp only [retire, touchAll]
      split
      · exact .inr rfl
      · exact .inl rfl

theorem Retires.mono {policy : RemovePolicy} {nodes fewer : List NodeRef}
    {edges less : List ChannelRef} {before after : World}
    (retires : Retires policy nodes edges before after) (within : fewer ⊆ nodes)
    (inside : less ⊆ edges) : Retires policy fewer less before after where
  cancelled fast n member := retires.cancelled fast n (within member)
  cut fast e member := retires.cut fast e (inside member)
  retiring drain n member := retires.retiring drain n (within member)
  drained drain e member := retires.drained drain e (inside member)

/-- A node that was not cancelled shows under which policy it is retired. -/
theorem retires_only {policy asked : RemovePolicy} {plant : Plant} {nodes : List NodeRef}
    {edges less : List ChannelRef} {world : World} {n : NodeRef} (member : n ∈ nodes)
    (running : (world.cells n).cancelled = false)
    (retires : Retires policy [n] less world (world.retire plant asked nodes edges)) :
    policy = asked := by
  have does := retire_retires asked plant nodes edges world
  cases policy with
  | fast =>
    cases asked with
    | fast => rfl
    | drain =>
      have cancelled := retires.cancelled rfl n (List.mem_singleton_self n)
      rw [(does.retiring rfl n member).2, running] at cancelled
      cases cancelled
  | drain =>
    cases asked with
    | drain => rfl
    | fast =>
      have cancelled := does.cancelled rfl n member
      rw [(retires.retiring rfl n (List.mem_singleton_self n)).2, running] at cancelled
      cases cancelled

end Published

/-- The filter is removed under its own policy, the patch keeps its default. -/
def dropFilter (own : Option RemovePolicy) : Merged where
  patch := { actions := [.removeNode { node := "filter", removePolicy := own }] }

def dropped (own : Option RemovePolicy) : Outcome × Session :=
  mutate (dropFilter own) (pipelineSession none filteredPipeline)

def noted (own : Option RemovePolicy) : Result (List (String × RemovePolicy)) :=
  (applyPatch pipelineEngine.factory.describe (pipelineSession none filteredPipeline).store
    (pipelineSession none filteredPipeline).topology (dropFilter own).patch).map
      CandidateSpec.nodeRemovePolicy

end GraphEngine.RemovalPolicies
