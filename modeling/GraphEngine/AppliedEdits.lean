import Mathlib.Logic.Relation
import GraphEngine.Applier

/-!
Every accepted action is a sequence of five elementary edits of the candidate.
A node is only dropped once no edge touches it, so the graph's own cascade in
`RemoveNode` never removes an edge behind the tracking lists. What one edit
keeps, every action and every patch keeps.
-/

namespace GraphEngine.AppliedEdits

open Values GraphSpecs Capabilities Fallible ChangeSets KeyedLists Applier List GraphSpec

inductive Edit (before after : CandidateSpec) : Prop where
  | nodeAdded (node : NodeSpec) (done : addNodeTracked node before = .ok after)
  | edgeAdded (edge : EdgeSpec) (done : addEdgeTracked edge before = .ok after)
  | edgeRemoved (id : String) (done : removeEdgeTracked id before = .ok after)
  | nodeDropped (id : String) (policy : RemovePolicy)
      (bare : ∀ edge ∈ before.candidate.edges, touches id edge = false)
      (done : dropNode id policy before = .ok after)
  | optionsSet (action : SetNodeOptionsAction) (done : setNodeOptions action before = .ok after)

abbrev Edits := Relation.ReflTransGen Edit

variable {after before : CandidateSpec}

theorem edit_wellFormed (edit : Edit before after) (valid : before.candidate.WellFormed) :
    after.candidate.WellFormed := by
  cases edit with
  | nodeAdded node done =>
    obtain ⟨candidate, added, same⟩ := bind_ok.mp done
    cases same
    exact addNode_wellFormed valid added
  | edgeAdded edge done =>
    obtain ⟨candidate, added, same⟩ := bind_ok.mp done
    cases same
    exact addEdge_wellFormed valid added
  | edgeRemoved id done =>
    obtain ⟨edge, found, rfl⟩ := removeEdgeTracked_ok.mp done
    have known : id ∈ before.candidate.edgeIds := by
      obtain ⟨member, named⟩ := findEdge_some found
      exact mem_map.mpr ⟨edge, member, named⟩
    exact removeEdge_wellFormed valid (removeEdge_ok.mpr ⟨known, rfl⟩)
  | nodeDropped id policy bare done =>
    obtain ⟨candidate, removed, same⟩ := bind_ok.mp done
    cases same
    exact removeNode_wellFormed valid removed
  | optionsSet action done =>
    obtain ⟨-, rfl⟩ := setNodeOptions_ok.mp done
    exact valid

theorem edits_invariant (Holds : CandidateSpec → Prop)
    (keeps : ∀ s t, s.candidate.WellFormed → Edit s t → Holds s → Holds t)
    (edits : Edits before after) (valid : before.candidate.WellFormed) (initial : Holds before) :
    after.candidate.WellFormed ∧ Holds after := by
  induction edits with
  | refl => exact ⟨valid, initial⟩
  | tail _ edit ih =>
    obtain ⟨middleValid, middle⟩ := ih
    exact ⟨edit_wellFormed edit middleValid, keeps _ _ middleValid edit middle⟩

theorem edits_wellFormed (edits : Edits before after) (valid : before.candidate.WellFormed) :
    after.candidate.WellFormed :=
  (edits_invariant (fun _ => True) (fun _ _ _ _ _ => trivial) edits valid trivial).1

theorem fold_edits {Item : Type} {step : CandidateSpec → Item → Result CandidateSpec}
    {items : List Item}
    (edits : ∀ item ∈ items, ∀ s t, s.candidate.WellFormed → step s item = .ok t → Edits s t)
    (valid : before.candidate.WellFormed) (done : items.foldlM step before = .ok after) :
    Edits before after := by
  have both : after.candidate.WellFormed ∧ Edits before after := by
    apply foldlM_invariant (fun s => s.candidate.WellFormed ∧ Edits before s) _ done
    · exact ⟨valid, .refl⟩
    · rintro item member s t step ⟨sValid, reached⟩
      have next := edits item member s t sValid step
      exact ⟨edits_wellFormed next sValid, reached.trans next⟩
  exact both.2

variable {edges : List EdgeSpec} {id : String} {policy : RemovePolicy}
  {resolver : CapabilityResolver} {ids : List String}

theorem mem_foldl_touch : id ∈ edges.foldl (fun ids edge => touch edge.id ids) ids ↔
      id ∈ ids ∨ ∃ edge ∈ edges, edge.id = id := by
  induction edges generalizing ids with
  | nil => simp
  | cons edge rest ih =>
    rw [foldl_cons, ih, mem_touch, or_assoc]
    simp [eq_comm]

theorem mem_incidentEdges {spec : GraphSpec} {nodeId : String} : id ∈ incidentEdges spec nodeId ↔
      ∃ edge ∈ spec.edges, touches nodeId edge = true ∧ edge.id = id := by
  simp only [incidentEdges, mem_foldl_touch, edgesFrom, edgesTo,
    mem_map, mem_filter, touches, Bool.or_eq_true]
  constructor
  · rintro (⟨edge, ⟨member, source⟩, named⟩ | ⟨edge, ⟨member, target⟩, named⟩)
    · exact ⟨edge, member, .inl source, named⟩
    · exact ⟨edge, member, .inr target, named⟩
  · rintro ⟨edge, member, source | target, named⟩
    · exact .inl ⟨edge, ⟨member, source⟩, named⟩
    · exact .inr ⟨edge, ⟨member, target⟩, named⟩

theorem removeNodeWithEdges_touched (done : removeNodeWithEdges id policy before = .ok after) :
    id ∈ after.touchedNodes := by
  simp only [removeNodeWithEdges, guard_ok, bind_ok, dropNode_ok] at done
  obtain ⟨-, middle, -, -, rfl⟩ := done
  exact touch_self

/-- The removal touched the node's id, so adding the replacement without
touching it again is a tracked addition. -/
theorem replaceNode_ok {action : ReplaceNodeAction} :
    replaceNode resolver action policy before = .ok after ↔ ∃ old incoming outgoing middle grown,
        before.candidate.findNode action.node = some old ∧
        (before.candidate.edgesTo action.node).mapM (mapIncoming resolver action) = .ok incoming ∧
        ((before.candidate.edgesFrom action.node).filter fun edge =>
          edge.toPort.nodeId ≠ action.node).mapM (mapOutgoing resolver action) = .ok outgoing ∧
        removeNodeWithEdges action.node policy before = .ok middle ∧ addNodeTracked { old with
          op := action.replacementOp, options := action.replacementOptions } middle = .ok grown ∧
        addEdges (incoming ++ outgoing) grown = .ok after := by
  unfold replaceNode
  cases found : before.candidate.findNode action.node with
  | none => simp
  | some old =>
    have same : old.id = action.node := (lookup_some found).2
    simp only [bind_ok, addNodeTracked, Option.some.injEq, Except.ok.injEq]
    constructor
    · rintro ⟨incoming, mappedIn, outgoing, mappedOut, middle, removed, candidate, added, linked⟩
      have seen := removeNodeWithEdges_touched removed
      refine ⟨old, incoming, outgoing, middle, _, rfl, mappedIn, mappedOut, removed,
        ⟨candidate, added, rfl⟩, ?_⟩
      simpa [touch, same, seen] using linked
    · rintro ⟨_, incoming, outgoing, middle, _, rfl, mappedIn, mappedOut, removed,
        ⟨candidate, added, rfl⟩, linked⟩
      have seen := removeNodeWithEdges_touched removed
      refine ⟨incoming, mappedIn, outgoing, mappedOut, middle, removed, candidate, added, ?_⟩
      simpa [touch, same, seen] using linked

theorem applyIndexed_ok {entry : MutationAction × Nat} :
    applyIndexed resolver policy before entry = .ok after ↔
      applyOne resolver policy entry.1 before = .ok after := by
  unfold applyIndexed
  cases applyOne resolver policy entry.1 before <;> simp [Except.mapError]

theorem cascade_keeps {spec : GraphSpec} (bare : ∀ edge ∈ spec.edges, touches id edge = false) :
    spec.edges.filter (fun edge => !touches id edge) = spec.edges := by
  apply List.filter_eq_self.mpr
  intro edge member
  simp [bare edge member]

section Actions

variable (valid : before.candidate.WellFormed)
include valid

theorem addNodes_edits {nodes : List NodeSpec}
    (done : addNodes nodes before = .ok after) : Edits before after :=
  fold_edits (fun node _ _ _ _ step => .single (.nodeAdded node step)) valid done

theorem addEdges_edits (done : addEdges edges before = .ok after) : Edits before after :=
  fold_edits (fun edge _ _ _ _ step => .single (.edgeAdded edge step)) valid done

theorem removeEdges_edits (done : removeEdges ids before = .ok after) : Edits before after :=
  fold_edits (fun id _ _ _ _ step => .single (.edgeRemoved id step)) valid done

theorem removeEdges_leaves (done : removeEdges ids before = .ok after) :
    after.candidate.nodes = before.candidate.nodes ∧
      after.candidate.edges = before.candidate.edges.filter fun edge => edge.id ∉ ids := by
  induction ids generalizing before with
  | nil =>
    rw [← foldlM_nil_ok.mp done]
    simp
  | cons id rest ih =>
    obtain ⟨middle, first, later⟩ := foldlM_cons_ok.mp done
    have middleValid := edit_wellFormed (.edgeRemoved id first) valid
    obtain ⟨nodes, edges⟩ := ih middleValid later
    obtain ⟨edge, -, rfl⟩ := removeEdgeTracked_ok.mp first
    refine ⟨nodes, ?_⟩
    rw [edges]
    simp only [erase_eq_filter valid.edgeIdsDistinct, filter_filter]
    apply filter_congr
    intro other _
    simp only [mem_cons, not_or, Bool.decide_and, Bool.and_comm]

theorem cleared_bare
    (cleared : removeEdges (incidentEdges before.candidate id) before = .ok after) :
    ∀ edge ∈ after.candidate.edges, touches id edge = false := by
  intro edge member
  rw [(removeEdges_leaves valid cleared).2] at member
  obtain ⟨old, kept⟩ := mem_filter.mp member
  simp only [decide_eq_true_eq, mem_incidentEdges] at kept
  cases touched : touches id edge with
  | false => rfl
  | true => exact absurd ⟨edge, old, touched, rfl⟩ kept

theorem removeNodeWithEdges_edits
    (done : removeNodeWithEdges id policy before = .ok after) : Edits before after := by
  simp only [removeNodeWithEdges, guard_ok, bind_ok] at done
  obtain ⟨-, middle, cleared, dropped⟩ := done
  exact (removeEdges_edits valid cleared).tail
    (.nodeDropped id policy (cleared_bare valid cleared) dropped)

theorem removeNodes_edits (done : removeNodes ids policy before = .ok after) : Edits before after :=
  fold_edits (fun _ _ _ _ sValid step => removeNodeWithEdges_edits sValid step) valid done

theorem insertChain_edits {action : InsertChainAction}
    (done : insertChain resolver action before = .ok after) : Edits before after := by
  unfold insertChain at done
  rw [guard_ok] at done
  obtain ⟨-, done⟩ := done
  split at done
  · cases done
  rename_i old found
  simp only [bind_ok] at done
  obtain ⟨-, -, wired, -, split, removed, grown, added, linked⟩ := done
  have first : Edits before split := .single (.edgeRemoved old.id removed)
  have second := first.trans (addNodes_edits (edits_wellFormed first valid) added)
  exact second.trans (addEdges_edits (edits_wellFormed second valid) linked)

theorem removeChain_edits {action : RemoveChainAction}
    (done : removeChain action policy before = .ok after) : Edits before after := by
  unfold removeChain at done
  rw [guard_ok] at done
  obtain ⟨-, done⟩ := done
  split at done
  · exact removeNodes_edits valid done
  rw [bind_ok] at done
  obtain ⟨boundary, -, done⟩ := done
  split at done
  · obtain ⟨middle, removed, bypassed⟩ := bind_ok.mp done
    exact (removeNodes_edits valid removed).tail (.edgeAdded _ bypassed)
  · cases done

theorem replaceNode_edits {action : ReplaceNodeAction}
    (done : replaceNode resolver action policy before = .ok after) : Edits before after := by
  obtain ⟨old, incoming, outgoing, middle, grown, -, -, -, removed, added, linked⟩ :=
    replaceNode_ok.mp done
  have second := (removeNodeWithEdges_edits valid removed).tail (.nodeAdded _ added)
  exact second.trans (addEdges_edits (edits_wellFormed second valid) linked)

theorem removeBranch_edits {action : RemoveBranchAction}
    (done : removeBranch action policy before = .ok after) : Edits before after := by
  simp only [removeBranch, guard_ok, bind_ok] at done
  obtain ⟨-, stack, -, -, -, -, -, -, removed⟩ := done
  exact removeNodes_edits valid removed

theorem applyOne_edits {action : MutationAction}
    (done : applyOne resolver policy action before = .ok after) : Edits before after := by
  cases action with
  | addNode node => exact .single (.nodeAdded node done)
  | removeNode a =>
    simp only [applyOne] at done
    split at done
    · exact removeChain_edits valid done
    · exact removeNodeWithEdges_edits valid done
  | insertChain a => exact insertChain_edits valid done
  | removeChain a => exact removeChain_edits valid done
  | replaceNode a => exact replaceNode_edits valid done
  | removeBranch a => exact removeBranch_edits valid done
  | addEdge edge => exact .single (.edgeAdded edge done)
  | removeEdge id => exact .single (.edgeRemoved id done)
  | setNodeOptions a => exact .single (.optionsSet a done)

end Actions

theorem apply_edits {base : GraphSpec} {patch : MutationPatch} (valid : base.WellFormed)
    (done : apply resolver base patch = .ok after) : Edits { candidate := base } after := by
  obtain ⟨-, folded⟩ := guard_ok.mp done
  exact fold_edits
    (fun entry _ s t sValid step => applyOne_edits sValid (applyIndexed_ok.mp step)) valid folded

/-- The change lists account for the candidate, and exactly the removed nodes
have a removal policy. -/
structure Tracked (base : GraphSpec) (out : CandidateSpec) : Prop where
  nodes : Exact base.nodeIds out.candidate.nodeIds out.addedNodes out.removedNodes
  edges : Exact base.edgeIds out.candidate.edgeIds out.addedEdges out.removedEdges
  policies : ∀ id, id ∈ OrderedMaps.keys out.nodeRemovePolicy ↔ id ∈ out.removedNodes

theorem edit_tracked {base : GraphSpec} (valid : before.candidate.WellFormed)
    (edit : Edit before after) (tracked : Tracked base before) : Tracked base after := by
  cases edit with
  | nodeAdded node done =>
    obtain ⟨-, fresh, rfl⟩ := addNodeTracked_ok.mp done
    refine ⟨exact_add tracked.nodes fresh ?_, tracked.edges, tracked.policies⟩
    intro other
    simp [nodeIds]
  | edgeAdded edge done =>
    obtain ⟨⟨-, fresh, -⟩, rfl⟩ := (addEdgeTracked_ok rfl).mp done
    refine ⟨tracked.nodes, exact_add tracked.edges fresh ?_, tracked.policies⟩
    intro other
    simp [edgeIds]
  | edgeRemoved id done =>
    obtain ⟨edge, found, rfl⟩ := removeEdgeTracked_ok.mp done
    obtain ⟨member, named⟩ := findEdge_some found
    refine ⟨tracked.nodes, exact_remove tracked.edges ?_ ?_, tracked.policies⟩
    · exact mem_map.mpr ⟨edge, member, named⟩
    · intro other
      exact mem_keys_erase valid.edgeIdsDistinct
  | nodeDropped id policy bare done =>
    obtain ⟨known, rfl⟩ := dropNode_ok.mp done
    refine ⟨exact_remove tracked.nodes known ?_, ?_, ?_⟩
    · intro other
      exact mem_keys_erase valid.nodeIdsDistinct
    · -- No edge touches the node, so the cascade keeps them all.
      simpa only [edgeIds, cascade_keeps bare] using tracked.edges
    · intro other
      by_cases cancels : id ∈ before.addedNodes
      · simpa [noteRemoved, cancels] using tracked.policies other
      · simp only [noteRemoved, cancels, ↓reduceIte, OrderedMaps.mem_keys_assign,
          tracked.policies other, mem_append, mem_singleton]
        exact or_comm
  | optionsSet action done =>
    obtain ⟨-, rfl⟩ := setNodeOptions_ok.mp done
    exact ⟨tracked.nodes, tracked.edges, tracked.policies⟩

theorem start_tracked (base : GraphSpec) : Tracked base { candidate := base } where
  nodes := exact_refl base.nodeIds
  edges := exact_refl base.edgeIds
  policies := by simp [OrderedMaps.keys]

/-- An accepted patch keeps the graph well-formed, and what it reports as added
and removed is exactly the difference to the base graph. -/
theorem apply_wellFormed_and_exact (resolver : CapabilityResolver) (base : GraphSpec)
    (patch : MutationPatch) (out : CandidateSpec) (valid : base.WellFormed)
    (accepted : apply resolver base patch = .ok out) : out.candidate.WellFormed ∧
      (∀ id, id ∈ out.candidate.nodeIds ↔
        (id ∈ base.nodeIds ∧ id ∉ out.removedNodes) ∨ id ∈ out.addedNodes) ∧
      (∀ id ∈ out.removedNodes, id ∈ base.nodeIds) ∧
      (∀ id ∈ out.addedNodes, id ∈ out.candidate.nodeIds) ∧
      out.addedNodes.Nodup ∧ out.removedNodes.Nodup ∧ (∀ id, id ∈ out.candidate.edgeIds ↔
        (id ∈ base.edgeIds ∧ id ∉ out.removedEdges) ∨ id ∈ out.addedEdges) ∧
      (∀ id ∈ out.removedEdges, id ∈ base.edgeIds) ∧
      (∀ id ∈ out.addedEdges, id ∈ out.candidate.edgeIds) ∧
      out.addedEdges.Nodup ∧ out.removedEdges.Nodup ∧
      (∀ id, id ∈ OrderedMaps.keys out.nodeRemovePolicy ↔ id ∈ out.removedNodes) := by
  have edits := apply_edits valid accepted
  obtain ⟨wellFormed, tracked⟩ := edits_invariant (Tracked base)
    (fun _ _ sValid edit => edit_tracked sValid edit) edits valid (start_tracked base)
  exact ⟨wellFormed, tracked.nodes.accounted, tracked.nodes.removedBase,
    tracked.nodes.addedCurrent, tracked.nodes.addedDistinct, tracked.nodes.removedDistinct,
    tracked.edges.accounted, tracked.edges.removedBase, tracked.edges.addedCurrent,
    tracked.edges.addedDistinct, tracked.edges.removedDistinct, tracked.policies⟩

def relayGraph : GraphSpec where
  name := "relay"
  nodes := [{ id := "source", op := ⟨"Source", "1.0"⟩ }, { id := "sink", op := ⟨"Sink", "1.0"⟩ }]
  edges := [{ id := "link", fromPort := ⟨"source", "out"⟩, toPort := ⟨"sink", "in"⟩ }]

theorem relayGraph_wellFormed : relayGraph.WellFormed :=
  ⟨by decide, by decide, by decide, by decide, by decide, by decide, by decide⟩

/-- The sink is replaced, and a node is added and removed again. -/
def relayPatch : MutationPatch where
  actions := [
    .replaceNode { node := "sink", replacementOp := ⟨"Sink", "2.0"⟩ },
    .addNode { id := "probe", op := ⟨"Probe", "1.0"⟩ },
    .addEdge { fromPort := ⟨"source", "out"⟩, toPort := ⟨"probe", "in"⟩ },
    .removeNode { node := "probe" }]

def relayOut : CandidateSpec where
  candidate := { relayGraph with
    nodes := [{ id := "source", op := ⟨"Source", "1.0"⟩ },
      { id := "sink", op := ⟨"Sink", "2.0"⟩ }] }
  addedNodes := ["sink"]
  removedNodes := ["sink"]
  addedEdges := ["link"]
  removedEdges := ["link"]
  nodeRemovePolicy := [("sink", .drain)]
  touchedNodes := ["source", "sink", "probe"]
  touchedEdges := ["link", "source.out->probe.in"]

theorem relayPatch_exact :
    relayGraph.WellFormed ∧ apply (fun _ => none) relayGraph relayPatch = .ok relayOut ∧
      relayOut.candidate.WellFormed := by
  have accepted : apply (fun _ => none) relayGraph relayPatch = .ok relayOut := by decide
  exact ⟨relayGraph_wellFormed, accepted,
    (apply_wellFormed_and_exact _ _ _ _ relayGraph_wellFormed accepted).1⟩

end GraphEngine.AppliedEdits
