import GraphEngine.AppliedLocality
import GraphEngine.BranchRemovals

/-!
The merge test of the mutation coordinator. Two patches with disjoint
footprints are applied one after the other in either order; the second run
repeats, action by action, what its patch does alone. `Related other s r`
compares a state `s` of the patch run alone with the state `r` of the same
patch run on top of `other`.
-/

namespace GraphEngine.MergedPatches

open Values GraphSpecs Capabilities GraphChecks Fallible ChangeSets KeyedLists Applier AppliedEdits
  AppliedLocality BranchRemovals

structure Apart (other out : CandidateSpec) : Prop where
  nodes : ∀ id ∈ out.touchedNodes, id ∉ other.touchedNodes
  edges : ∀ id ∈ out.touchedEdges, id ∉ other.touchedEdges

structure Related (other s r : CandidateSpec) : Prop where
  agree : AgreeOutside (footprint other) s.candidate r.candidate
  kept : AgreeInside (footprint other) r.candidate other.candidate
  addedNodes : r.addedNodes = other.addedNodes ++ s.addedNodes
  removedNodes : r.removedNodes = other.removedNodes ++ s.removedNodes
  addedEdges : r.addedEdges = other.addedEdges ++ s.addedEdges
  removedEdges : r.removedEdges = other.removedEdges ++ s.removedEdges
  touchedNodes : ∀ id, id ∈ r.touchedNodes ↔ id ∈ other.touchedNodes ∨ id ∈ s.touchedNodes
  touchedEdges : ∀ id, id ∈ r.touchedEdges ↔ id ∈ other.touchedEdges ∨ id ∈ s.touchedEdges

/-- A successful `left` that stays apart from `other` is repeated by `right`. -/
def Replays (other : CandidateSpec) (left right : CandidateSpec → Result CandidateSpec) : Prop :=
  ∀ s t r, s.candidate.WellFormed → left s = .ok t → Apart other t → Related other s r →
    ∃ r', right r = .ok r' ∧ Related other t r'

def Editing (step : CandidateSpec → Result CandidateSpec) : Prop :=
  ∀ s t, s.candidate.WellFormed → step s = .ok t → Edits s t

variable {before after : CandidateSpec}

theorem edit_grows (edit : Edit before after) :
    (∀ id ∈ before.touchedNodes, id ∈ after.touchedNodes) ∧
      (∀ id ∈ before.touchedEdges, id ∈ after.touchedEdges) := by
  cases edit with
  | nodeAdded node done =>
    obtain ⟨-, -, rfl⟩ := addNodeTracked_ok.mp done
    exact ⟨fun id old => touch_keeps old, fun id old => old⟩
  | edgeAdded edge done =>
    obtain ⟨-, rfl⟩ := (addEdgeTracked_ok rfl).mp done
    exact ⟨fun id old => touch_keeps (touch_keeps old),
      fun id old => touch_keeps old⟩
  | edgeRemoved id done =>
    obtain ⟨edge, -, rfl⟩ := removeEdgeTracked_ok.mp done
    exact ⟨fun id old => touch_keeps (touch_keeps old),
      fun id old => touch_keeps old⟩
  | nodeDropped id policy bare done =>
    obtain ⟨-, rfl⟩ := dropNode_ok.mp done
    exact ⟨fun id old => touch_keeps old, fun id old => old⟩
  | optionsSet action done =>
    obtain ⟨-, rfl⟩ := setNodeOptions_ok.mp done
    exact ⟨fun id old => touch_keeps old, fun id old => old⟩

theorem edits_grow (edits : Edits before after) :
    (∀ id ∈ before.touchedNodes, id ∈ after.touchedNodes) ∧
      (∀ id ∈ before.touchedEdges, id ∈ after.touchedEdges) := by
  induction edits with
  | refl => exact ⟨fun _ old => old, fun _ old => old⟩
  | tail _ edit ih =>
    have grown := edit_grows edit
    exact ⟨fun id old => grown.1 id (ih.1 id old), fun id old => grown.2 id (ih.2 id old)⟩

variable {other : CandidateSpec}

theorem edits_apart {before after : CandidateSpec} (edits : Edits before after)
    (apart : Apart other after) : Apart other before where
  nodes := fun id old => apart.nodes id ((edits_grow edits).1 id old)
  edges := fun id old => apart.edges id ((edits_grow edits).2 id old)

theorem fold_touched {Item : Type} {step : CandidateSpec → Item → Result CandidateSpec}
    {node : Item → String} {items : List Item}
    (editing : ∀ item ∈ items, Editing fun s => step s item)
    (touches : ∀ item s t, step s item = .ok t → node item ∈ t.touchedNodes)
    (valid : before.candidate.WellFormed) (done : items.foldlM step before = .ok after) :
    ∀ item ∈ items, node item ∈ after.touchedNodes := by
  induction items generalizing before with
  | nil => exact nofun
  | cons item rest ih =>
    obtain ⟨middle, first, later⟩ := foldlM_cons_ok.mp done
    rw [List.forall_mem_cons] at editing ⊢
    have middleValid := edits_wellFormed (editing.1 before middle valid first) valid
    have tailEdits := fold_edits editing.2 middleValid later
    exact ⟨(edits_grow tailEdits).1 _ (touches item before middle first),
      ih editing.2 middleValid later⟩

theorem addNodes_touched {nodes : List NodeSpec} (valid : before.candidate.WellFormed)
    (done : addNodes nodes before = .ok after) : ∀ node ∈ nodes, node.id ∈ after.touchedNodes := by
  apply fold_touched (fun node _ _ _ _ step => .single (.nodeAdded node step)) _ valid done
  intro node s t step
  obtain ⟨-, -, rfl⟩ := addNodeTracked_ok.mp step
  exact touch_self

variable {policy : RemovePolicy}

theorem removeNodes_touched {ids : List String} (valid : before.candidate.WellFormed)
    (done : removeNodes ids policy before = .ok after) : ∀ id ∈ ids, id ∈ after.touchedNodes :=
  fold_touched (fun _ _ _ _ sValid step => removeNodeWithEdges_edits sValid step)
    (fun _ _ _ step => removeNodeWithEdges_touched step) valid done

section Composition

variable {other : CandidateSpec}

theorem replays_fold {Item : Type} {left right : CandidateSpec → Item → Result CandidateSpec}
    {items : List Item} (editing : ∀ item ∈ items, Editing fun s => left s item)
    (replays : ∀ item ∈ items, Replays other (fun s => left s item) (fun s => right s item)) :
    Replays other (fun s => items.foldlM left s) (fun s => items.foldlM right s) := by
  intro s t r valid done apart related
  refine foldlM_simulates (fun s => s.candidate.WellFormed) ?_ ?_ ?_ valid done apart related
  · intro item member a b aValid step
    exact edits_wellFormed (editing item member a b aValid step) aValid
  · intro item member a b aValid step
    exact edits_apart (editing item member a b aValid step)
  · intro item member a b c aValid step
    exact replays item member a b c aValid step

end Composition

section Actions

variable {base : GraphSpec} {other : CandidateSpec}

theorem touch_joined {id : String} {first second both : List String}
    (joined : ∀ wanted, wanted ∈ both ↔ wanted ∈ first ∨ wanted ∈ second) (wanted : String) :
    wanted ∈ touch id both ↔ wanted ∈ first ∨ wanted ∈ touch id second := by
  simp only [mem_touch, joined, or_assoc]

theorem addNodeTracked_replays (node : NodeSpec) :
    Replays other (addNodeTracked node) (addNodeTracked node) := by
  intro s t r _ done apart related
  obtain ⟨admissible, fresh, rfl⟩ := addNodeTracked_ok.mp done
  have free : node.id ∉ (footprint other).nodes := apart.nodes node.id touch_self
  refine ⟨_, addNodeTracked_ok.mpr ⟨admissible, ?_, rfl⟩, ?_⟩
  · rwa [← nodeIds_agree related.agree free]
  · exact { related with
      agree := addNode_agree related.agree node
      kept := addNode_keeps related.kept free
      addedNodes := by simp [related.addedNodes]
      touchedNodes := touch_joined related.touchedNodes }

theorem addEdgeTracked_replays (given : EdgeSpec) :
    Replays other (addEdgeTracked given) (addEdgeTracked given) := by
  intro s t r _ done apart related
  obtain ⟨⟨admissible, fresh, source, target, single⟩, rfl⟩ := (addEdgeTracked_ok rfl).mp done
  set edge := GraphSpec.withId given with named
  have free : edge.id ∉ (footprint other).edges := apart.edges edge.id touch_self
  have sourceFree : edge.fromPort.nodeId ∉ (footprint other).nodes :=
    apart.nodes _ (touch_keeps touch_self)
  have targetFree : edge.toPort.nodeId ∉ (footprint other).nodes := apart.nodes _ touch_self
  refine ⟨_, (addEdgeTracked_ok named.symm).mpr
    ⟨⟨admissible, ?_, ?_, ?_, ?_⟩, rfl⟩, ?_⟩
  · rwa [← edgeIds_agree related.agree free]
  · rwa [← nodeIds_agree related.agree sourceFree]
  · rwa [← nodeIds_agree related.agree targetFree]
  · rwa [← linked_agree related.agree sourceFree]
  · exact { related with
      agree := addEdge_agree related.agree free
      kept := addEdge_keeps related.kept free
      addedEdges := by simp [related.addedEdges]
      touchedNodes := touch_joined (touch_joined related.touchedNodes)
      touchedEdges := touch_joined related.touchedEdges }

theorem removeEdgeTracked_replays (framed : Framed base other) (id : String) :
    Replays other (removeEdgeTracked id) (removeEdgeTracked id) := by
  intro s t r _ done apart related
  obtain ⟨edge, found, rfl⟩ := removeEdgeTracked_ok.mp done
  have free : id ∉ (footprint other).edges := apart.edges id touch_self
  have unrecorded : id ∉ other.addedEdges := fun added => free (framed.addedEdges id added)
  have moved := noteRemoved_append unrecorded other.removedEdges s.addedEdges s.removedEdges
  refine ⟨_, removeEdgeTracked_ok.mpr ⟨edge, ?_, rfl⟩, ?_⟩
  · rw [← findEdge_agree related.agree free, found]
  · exact { related with
      agree := removeEdge_agree related.agree free
      kept := removeEdge_keeps related.kept free
      addedEdges := by simp only [related.addedEdges, related.removedEdges, moved]
      removedEdges := by simp only [related.addedEdges, related.removedEdges, moved]
      touchedNodes := touch_joined (touch_joined related.touchedNodes)
      touchedEdges := touch_joined related.touchedEdges }

/-- The removal policy only fills the policy map, which the relation ignores. -/
theorem dropNode_replays (framed : Framed base other) (id : String) (policy again : RemovePolicy) :
    Replays other (dropNode id policy) (dropNode id again) := by
  intro s t r _ done apart related
  obtain ⟨known, rfl⟩ := dropNode_ok.mp done
  have free : id ∉ (footprint other).nodes := apart.nodes id touch_self
  have unrecorded : id ∉ other.addedNodes := fun added => free (framed.addedNodes id added)
  have moved := noteRemoved_append unrecorded other.removedNodes s.addedNodes s.removedNodes
  refine ⟨_, dropNode_ok.mpr ⟨?_, rfl⟩, ?_⟩
  · rwa [← nodeIds_agree related.agree free]
  · exact { related with
      agree := removeNode_agree related.agree free
      kept := removeNode_keeps related.kept related.agree.rightBorder free
      addedNodes := by simp only [related.addedNodes, related.removedNodes, moved]
      removedNodes := by simp only [related.addedNodes, related.removedNodes, moved]
      touchedNodes := touch_joined related.touchedNodes }

theorem setNodeOptions_replays (action : SetNodeOptionsAction) :
    Replays other (setNodeOptions action) (setNodeOptions action) := by
  intro s t r _ done apart related
  obtain ⟨known, rfl⟩ := setNodeOptions_ok.mp done
  have free : action.node ∉ (footprint other).nodes := apart.nodes action.node touch_self
  refine ⟨_, setNodeOptions_ok.mpr ⟨?_, rfl⟩, ?_⟩
  · rwa [← nodeIds_agree related.agree free]
  · exact { related with touchedNodes := touch_joined related.touchedNodes }

theorem addNodes_replays (nodes : List NodeSpec) :
    Replays other (addNodes nodes) (addNodes nodes) :=
  replays_fold (fun node _ _ _ _ step => .single (.nodeAdded node step))
    (fun node _ => addNodeTracked_replays node)

theorem addEdges_replays (edges : List EdgeSpec) :
    Replays other (addEdges edges) (addEdges edges) :=
  replays_fold (fun edge _ _ _ _ step => .single (.edgeAdded edge step))
    (fun edge _ => addEdgeTracked_replays edge)

variable (framed : Framed base other)
include framed

theorem removeEdges_replays (ids : List String) :
    Replays other (removeEdges ids) (removeEdges ids) :=
  replays_fold (fun id _ _ _ _ step => .single (.edgeRemoved id step))
    (fun id _ => removeEdgeTracked_replays framed id)

theorem removeNodeWithEdges_replays (id : String) (policy again : RemovePolicy) :
    Replays other (removeNodeWithEdges id policy) (removeNodeWithEdges id again) := by
  intro s t r valid done apart related
  have free : id ∉ (footprint other).nodes := apart.nodes id (removeNodeWithEdges_touched done)
  simp only [removeNodeWithEdges, guard_ok, bind_ok] at done
  obtain ⟨present, middle, cleared, dropped⟩ := done
  have clearedEdits := removeEdges_edits valid cleared
  have middleApart : Apart other middle :=
    edits_apart (.single (.nodeDropped id policy (cleared_bare valid cleared) dropped)) apart
  obtain ⟨middleAgain, clearedAgain, middleRelated⟩ :=
    removeEdges_replays framed _ s middle r valid cleared middleApart related
  obtain ⟨final, droppedAgain, finalRelated⟩ :=
    dropNode_replays framed id policy again middle t middleAgain
      (edits_wellFormed clearedEdits valid) dropped apart middleRelated
  refine ⟨final, ?_, finalRelated⟩
  simp only [removeNodeWithEdges, guard_ok, bind_ok]
  rw [← findNode_agree related.agree free, ← incidentEdges_agree related.agree free]
  exact ⟨present, middleAgain, clearedAgain, droppedAgain⟩

theorem removeNodes_replays (ids : List String) (policy again : RemovePolicy) :
    Replays other (removeNodes ids policy) (removeNodes ids again) :=
  replays_fold (fun _ _ _ _ valid step => removeNodeWithEdges_edits valid step)
    (fun id _ => removeNodeWithEdges_replays framed id policy again)

theorem insertChain_replays (resolver : CapabilityResolver) (action : InsertChainAction) :
    Replays other (insertChain resolver action) (insertChain resolver action) := by
  intro s t r valid done apart related
  unfold insertChain at done
  rw [guard_ok] at done
  obtain ⟨nonempty, done⟩ := done
  split at done
  · cases done
  rename_i old found
  simp only [bind_ok] at done
  obtain ⟨_, fresh, wired, resolved, split, removed, grown, added, linked⟩ := done
  have splitEdits : Edits s split := .single (.edgeRemoved old.id removed)
  have splitValid := edits_wellFormed splitEdits valid
  have grownEdits := addNodes_edits splitValid added
  have grownValid := edits_wellFormed grownEdits splitValid
  have grownApart := edits_apart (addEdges_edits grownValid linked) apart
  have splitApart := edits_apart grownEdits grownApart
  -- The split edge and the new nodes are in the action's own footprint.
  have edgeFree : action.edge ∉ (footprint other).edges := by
    obtain ⟨-, named⟩ := GraphSpec.findEdge_some found
    obtain ⟨edge, -, rfl⟩ := removeEdgeTracked_ok.mp removed
    rw [← named]
    exact splitApart.edges old.id touch_self
  have nodesFree : ∀ node ∈ action.nodes, node.id ∉ (footprint other).nodes :=
    fun node member => grownApart.nodes _ (addNodes_touched splitValid added node member)
  obtain ⟨splitAgain, removedAgain, splitRelated⟩ :=
    removeEdgeTracked_replays framed old.id s split r valid removed splitApart related
  obtain ⟨grownAgain, addedAgain, grownRelated⟩ :=
    addNodes_replays action.nodes split grown splitAgain splitValid added grownApart splitRelated
  obtain ⟨final, linkedAgain, finalRelated⟩ :=
    addEdges_replays _ grown t grownAgain grownValid linked apart grownRelated
  refine ⟨final, ?_, finalRelated⟩
  unfold insertChain
  rw [guard_ok, ← findEdge_agree related.agree edgeFree, found]
  refine ⟨nonempty, ?_⟩
  simp only [bind_ok]
  rw [← checkFresh_agree related.agree nodesFree]
  exact ⟨(), fresh, wired, resolved, splitAgain, removedAgain, grownAgain, addedAgain,
    linkedAgain⟩

theorem removeChain_replays (action : RemoveChainAction) (policy again : RemovePolicy) :
    Replays other (removeChain action policy) (removeChain action again) := by
  intro s t r valid done apart related
  unfold removeChain at done ⊢
  rw [guard_ok] at done
  obtain ⟨nonempty, done⟩ := done
  rw [if_neg nonempty]
  cases mode : action.mode with
  | disconnect =>
    rw [mode] at done
    exact removeNodes_replays framed action.nodes policy again s t r valid done apart related
  | bypass =>
    simp only [mode, bind_ok] at done
    obtain ⟨boundary, checked, done⟩ := done
    split at done
    · next inbound outbound foundIn foundOut =>
        obtain ⟨middle, removed, bypassed⟩ := bind_ok.mp done
        have middleEdits := removeNodes_edits valid removed
        have middleValid := edits_wellFormed middleEdits valid
        have middleApart := edits_apart (.single (.edgeAdded _ bypassed)) apart
        have free : ∀ id ∈ action.nodes, id ∉ (footprint other).nodes :=
          fun id member => middleApart.nodes id (removeNodes_touched valid removed id member)
        -- An edge of the other footprint would have both ends there, but the
        -- boundary edges have a chain node at one end.
        obtain ⟨⟨entering, enters, inNamed, inMember⟩, leaving, leaves, outNamed, outMember⟩ :=
          checkLinearChain_known checked
        have inFree : boundary.inboundEdge ∉ (footprint other).edges := by
          intro touched
          rw [← inNamed] at touched
          exact free _ inMember (related.agree.leftBorder entering enters touched).2
        have outFree : boundary.outboundEdge ∉ (footprint other).edges := by
          intro touched
          rw [← outNamed] at touched
          exact free _ outMember (related.agree.leftBorder leaving leaves touched).1
        have checkedAgain : checkLinearChain r.candidate action.nodes = .ok boundary := by
          rw [← checkLinearChain_agree related.agree free, checked]
        obtain ⟨middleAgain, removedAgain, middleRelated⟩ :=
          removeNodes_replays framed action.nodes policy again s middle r valid removed
            middleApart related
        obtain ⟨final, bypassedAgain, finalRelated⟩ :=
          addEdgeTracked_replays _ middle t middleAgain middleValid bypassed apart middleRelated
        refine ⟨final, ?_, finalRelated⟩
        simp only [bind_ok]
        refine ⟨boundary, checkedAgain, ?_⟩
        rw [← findEdge_agree related.agree inFree, ← findEdge_agree related.agree outFree,
          foundIn, foundOut]
        exact then_ok middleAgain removedAgain bypassedAgain
    · cases done

theorem replaceNode_replays (resolver : CapabilityResolver) (action : ReplaceNodeAction)
    (policy again : RemovePolicy) :
    Replays other (replaceNode resolver action policy) (replaceNode resolver action again) := by
  intro s t r valid done apart related
  obtain ⟨old, incoming, outgoing, middle, grown, found, mappedIn, mappedOut, removed, added,
    linked⟩ := replaceNode_ok.mp done
  have middleEdits := removeNodeWithEdges_edits valid removed
  have middleValid := edits_wellFormed middleEdits valid
  have grownEdits : Edits middle grown := .single (.nodeAdded _ added)
  have grownValid := edits_wellFormed grownEdits middleValid
  have grownApart := edits_apart (addEdges_edits grownValid linked) apart
  have middleApart := edits_apart grownEdits grownApart
  have free : action.node ∉ (footprint other).nodes :=
    middleApart.nodes _ (removeNodeWithEdges_touched removed)
  obtain ⟨middleAgain, removedAgain, middleRelated⟩ :=
    removeNodeWithEdges_replays framed action.node policy again s middle r valid removed
      middleApart related
  obtain ⟨grownAgain, addedAgain, grownRelated⟩ :=
    addNodeTracked_replays _ middle grown middleAgain middleValid added grownApart middleRelated
  obtain ⟨final, linkedAgain, finalRelated⟩ :=
    addEdges_replays _ grown t grownAgain grownValid linked apart grownRelated
  refine ⟨final, replaceNode_ok.mpr ⟨old, incoming, outgoing, middleAgain, grownAgain, ?_, ?_, ?_,
    removedAgain, addedAgain, linkedAgain⟩, finalRelated⟩
  · rw [← findNode_agree related.agree free, found]
  · rw [← edgesTo_agree related.agree free, mappedIn]
  · rw [← edgesFrom_agree related.agree free, mappedOut]

omit framed

/-- An accepted removal reads only the selection, its entry edges and the edges at the
selection, which the two graphs have in common. -/
theorem removeBranch_replays (framed : Framed base other) (action : RemoveBranchAction)
    (policy again : RemovePolicy) :
    Replays other (removeBranch action policy) (removeBranch action again) := by
  intro s t r valid done apart related
  obtain ⟨chosen, entered, known, reached, closed, removed⟩ := removeBranch_ok.mp done
  have free : ∀ id ∈ action.nodes, id ∉ (footprint other).nodes :=
    fun id member => apart.nodes id (removeNodes_touched valid removed id member)
  have common : ∀ edge, edge.fromPort.nodeId ∈ action.nodes ∨ edge.toPort.nodeId ∈ action.nodes →
      (edge ∈ s.candidate.edges ↔ edge ∈ r.candidate.edges) :=
    fun edge bound => mem_edges_agree related.agree (bound.imp (free _) (free _))
  have entries : ∀ id ∈ action.allEntryEdges, s.candidate.findEdge id = r.candidate.findEdge id := by
    intro id member
    obtain ⟨edge, found, -, inward⟩ := entered id member
    obtain ⟨inside, named⟩ := GraphSpec.findEdge_some found
    apply findEdge_agree related.agree
    intro touched
    rw [← named] at touched
    exact free _ inward (related.agree.leftBorder edge inside touched).2
  obtain ⟨final, removedAgain, finalRelated⟩ :=
    removeNodes_replays framed action.nodes policy again s t r valid removed apart related
  refine ⟨final, removeBranch_ok.mpr ⟨chosen, ?_, ?_, ?_, ?_, removedAgain⟩, finalRelated⟩
  · intro id member
    obtain ⟨edge, found, ends⟩ := entered id member
    exact ⟨edge, entries id member ▸ found, ends⟩
  · exact fun id member => (nodeIds_agree related.agree (free id member)).mp (known id member)
  · intro id member
    obtain ⟨entry, listed, edge, found, path⟩ := reached id member
    refine ⟨entry, listed, edge, entries entry listed ▸ found, .mono ?_ _ _ path⟩
    rintro source target ⟨inside, link, linked, starts, ends⟩
    exact ⟨inside, link, (common link (.inr (ends ▸ inside))).mp linked, starts, ends⟩
  · intro edge member unlisted
    by_cases bound : edge.fromPort.nodeId ∈ action.nodes ∨ edge.toPort.nodeId ∈ action.nodes
    · exact closed edge ((common edge bound).mpr member) unlisted
    · exact iff_of_false (not_or.mp bound).1 (not_or.mp bound).2

theorem applyOne_replays (framed : Framed base other) (resolver : CapabilityResolver)
    (policy again : RemovePolicy) (action : MutationAction) :
    Replays other (applyOne resolver policy action) (applyOne resolver again action) := by
  cases action with
  | addNode node => exact addNodeTracked_replays node
  | removeNode a =>
    obtain ⟨node, mode, chosen⟩ := a
    cases mode with
    | bypass => exact removeChain_replays framed _ _ _
    | disconnect => exact removeNodeWithEdges_replays framed node _ _
  | insertChain a => exact insertChain_replays framed resolver a
  | removeChain a => exact removeChain_replays framed a _ _
  | replaceNode a => exact replaceNode_replays framed resolver a _ _
  | removeBranch a => exact removeBranch_replays framed a _ _
  | addEdge edge => exact addEdgeTracked_replays edge
  | removeEdge id => exact removeEdgeTracked_replays framed id
  | setNodeOptions a => exact setNodeOptions_replays a

end Actions

variable {resolver : CapabilityResolver}

theorem foldActions_ok {actions : List MutationAction} {start : Nat} :
    (actions.zipIdx start).foldlM (applyIndexed resolver policy) before = .ok after ↔
      actions.foldlM (fun out action => applyOne resolver policy action out) before =
        .ok after := by
  induction actions generalizing start before with
  | nil => rw [List.zipIdx_nil, foldlM_nil_ok, foldlM_nil_ok]
  | cons action rest ih =>
    rw [List.zipIdx_cons, foldlM_cons_ok, foldlM_cons_ok]
    simp only [applyIndexed_ok, ih]

variable {out : CandidateSpec}

variable {base : GraphSpec}

theorem apply_ok {patch : MutationPatch} :
    apply resolver base patch = .ok out ↔ patch.actions ≠ [] ∧
      patch.actions.foldlM (fun out action => applyOne resolver patch.removePolicy action out)
        { candidate := base } = .ok out := by
  rw [apply, guard_ok, foldActions_ok]

/-- `MutationCoordinator::Disjoint`. -/
def disjoint (a b : CandidateSpec) : Bool :=
  b.touchedNodes.all (fun id => id ∉ a.touchedNodes) &&
    b.touchedEdges.all (fun id => id ∉ a.touchedEdges)

theorem disjoint_apart {a b : CandidateSpec} : disjoint a b = true ↔ Apart a b := by
  simp only [disjoint, Bool.and_eq_true, List.all_eq_true, decide_eq_true_eq]
  exact ⟨fun ⟨nodes, edges⟩ => ⟨nodes, edges⟩, fun apart => ⟨apart.nodes, apart.edges⟩⟩

theorem apart_symm {a b : CandidateSpec} (apart : Apart a b) : Apart b a where
  nodes := fun id here there => apart.nodes id there here
  edges := fun id here there => apart.edges id there here

/-- The batch of two queued patches: the actions of both, under the first
patch's base version and default policy. -/
def concatenate (first second : MutationPatch) : MutationPatch :=
  { first with actions := first.actions ++ second.actions }

theorem start_related (framed : Framed base other) : Related other { candidate := base } other where
  agree := framed.agree
  kept := ⟨rfl, rfl⟩
  addedNodes := (List.append_nil _).symm
  removedNodes := (List.append_nil _).symm
  addedEdges := (List.append_nil _).symm
  removedEdges := (List.append_nil _).symm
  touchedNodes := by simp
  touchedEdges := by simp

theorem concatenate_applies {first second : MutationPatch}
    {outFirst outSecond : CandidateSpec} (valid : base.WellFormed)
    (firstApplies : apply resolver base first = .ok outFirst)
    (secondApplies : apply resolver base second = .ok outSecond) (apart : Apart outFirst outSecond) :
    ∃ both, apply resolver base (concatenate first second) = .ok both ∧
      Related outFirst outSecond both := by
  have framed := apply_framed valid firstApplies
  obtain ⟨nonempty, firstFold⟩ := apply_ok.mp firstApplies
  obtain ⟨-, secondFold⟩ := apply_ok.mp secondApplies
  have replays : Replays outFirst
      (fun s => second.actions.foldlM
        (fun out action => applyOne resolver second.removePolicy action out) s)
      (fun s => second.actions.foldlM
        (fun out action => applyOne resolver first.removePolicy action out) s) :=
    replays_fold (fun action _ _ _ sValid step => applyOne_edits sValid step)
      (fun action _ => applyOne_replays framed resolver _ _ action)
  obtain ⟨both, bothFold, related⟩ :=
    replays _ outSecond outFirst valid secondFold apart (start_related framed)
  refine ⟨both, apply_ok.mpr ⟨?_, ?_⟩, related⟩
  · simp [concatenate, nonempty]
  · exact foldlM_append_ok.mpr ⟨outFirst, firstFold, bothFold⟩

/-- The merged graph: outside the first footprint the second result, inside the
first one. -/
theorem related_nodes {s r : CandidateSpec} (related : Related other s r) (node : NodeSpec) :
    node ∈ r.candidate.nodes ↔ (node ∈ s.candidate.nodes ∧ node.id ∉ other.touchedNodes) ∨
        (node ∈ other.candidate.nodes ∧ node.id ∈ other.touchedNodes) := by
  by_cases here : node.id ∈ other.touchedNodes
  · have same := mem_of_restrict related.kept.nodes (decide_eq_true here)
    simpa [here] using same
  · have same := mem_of_restrict related.agree.nodes (decide_eq_true here)
    simpa [here] using same.symm

theorem related_edges {s r : CandidateSpec} (related : Related other s r) (edge : EdgeSpec) :
    edge ∈ r.candidate.edges ↔ (edge ∈ s.candidate.edges ∧ edge.id ∉ other.touchedEdges) ∨
        (edge ∈ other.candidate.edges ∧ edge.id ∈ other.touchedEdges) := by
  by_cases here : edge.id ∈ other.touchedEdges
  · have same := mem_of_restrict related.kept.edges (decide_eq_true here)
    simpa [here] using same
  · have same := mem_of_agree related.agree here
    simpa [here] using same.symm

theorem framed_nodes (framed : Framed base out) {node : NodeSpec}
    (apart : node.id ∉ out.touchedNodes) : node ∈ base.nodes ↔ node ∈ out.candidate.nodes :=
  mem_of_restrict framed.agree.nodes (decide_eq_true apart)

/-- Patches with disjoint footprints, each accepted alone, are accepted together
in either order. Both orders give the same graph and the same additions and
removals, namely those of the two patches together. -/
theorem disjoint_patches_merge (resolver : CapabilityResolver) (base : GraphSpec)
    (first second : MutationPatch) (outFirst outSecond : CandidateSpec)
    (valid : base.WellFormed) (firstApplies : apply resolver base first = .ok outFirst)
    (secondApplies : apply resolver base second = .ok outSecond)
    (compatible : disjoint outFirst outSecond = true) : ∃ both swapped,
      apply resolver base (concatenate first second) = .ok both ∧
      apply resolver base (concatenate second first) = .ok swapped ∧
      (∀ node, node ∈ both.candidate.nodes ↔ node ∈ swapped.candidate.nodes) ∧
      (∀ edge, edge ∈ both.candidate.edges ↔ edge ∈ swapped.candidate.edges) ∧
      (∀ node, node ∈ both.candidate.nodes ↔
        (node ∈ outSecond.candidate.nodes ∧ node.id ∉ outFirst.touchedNodes) ∨
          (node ∈ outFirst.candidate.nodes ∧ node.id ∈ outFirst.touchedNodes)) ∧
      (∀ edge, edge ∈ both.candidate.edges ↔
        (edge ∈ outSecond.candidate.edges ∧ edge.id ∉ outFirst.touchedEdges) ∨
          (edge ∈ outFirst.candidate.edges ∧ edge.id ∈ outFirst.touchedEdges)) ∧
      (∀ id, (id ∈ both.addedNodes ↔ id ∈ outFirst.addedNodes ∨ id ∈ outSecond.addedNodes) ∧
        (id ∈ both.removedNodes ↔ id ∈ outFirst.removedNodes ∨ id ∈ outSecond.removedNodes) ∧
        (id ∈ both.addedEdges ↔ id ∈ outFirst.addedEdges ∨ id ∈ outSecond.addedEdges) ∧
        (id ∈ both.removedEdges ↔ id ∈ outFirst.removedEdges ∨ id ∈ outSecond.removedEdges)) ∧
      (∀ id, (id ∈ swapped.addedNodes ↔ id ∈ both.addedNodes) ∧
        (id ∈ swapped.removedNodes ↔ id ∈ both.removedNodes) ∧
        (id ∈ swapped.addedEdges ↔ id ∈ both.addedEdges) ∧
        (id ∈ swapped.removedEdges ↔ id ∈ both.removedEdges)) := by
  have apart := disjoint_apart.mp compatible
  have firstFramed := apply_framed valid firstApplies
  have secondFramed := apply_framed valid secondApplies
  obtain ⟨both, bothApplies, bothRelated⟩ :=
    concatenate_applies valid firstApplies secondApplies apart
  obtain ⟨swapped, swappedApplies, swappedRelated⟩ :=
    concatenate_applies valid secondApplies firstApplies (apart_symm apart)
  refine ⟨both, swapped, bothApplies, swappedApplies, ?_, ?_, related_nodes bothRelated,
    related_edges bothRelated, ?_, ?_⟩
  · intro node
    rw [related_nodes bothRelated, related_nodes swappedRelated]
    by_cases inFirst : node.id ∈ outFirst.touchedNodes
    · have apartSecond := (apart_symm apart).nodes _ inFirst
      simp [inFirst, apartSecond]
    · by_cases inSecond : node.id ∈ outSecond.touchedNodes
      · simp [inFirst, inSecond]
      · -- Neither patch touches the node: both results have it as the base does.
        simp [inFirst, inSecond, ← framed_nodes firstFramed inFirst,
          ← framed_nodes secondFramed inSecond]
  · intro edge
    rw [related_edges bothRelated, related_edges swappedRelated]
    by_cases inFirst : edge.id ∈ outFirst.touchedEdges
    · have apartSecond := (apart_symm apart).edges _ inFirst
      simp [inFirst, apartSecond]
    · by_cases inSecond : edge.id ∈ outSecond.touchedEdges
      · simp [inFirst, inSecond]
      · simp [inFirst, inSecond, ← mem_of_agree firstFramed.agree inFirst,
          ← mem_of_agree secondFramed.agree inSecond]
  · intro id
    simp [bothRelated.addedNodes, bothRelated.removedNodes, bothRelated.addedEdges,
      bothRelated.removedEdges]
  · intro id
    simp [bothRelated.addedNodes, bothRelated.removedNodes, bothRelated.addedEdges,
      bothRelated.removedEdges, swappedRelated.addedNodes, swappedRelated.removedNodes,
      swappedRelated.addedEdges, swappedRelated.removedEdges, or_comm]

def twoLinks : GraphSpec where
  nodes := [{ id := "a", op := ⟨"Source", "1.0"⟩ }, { id := "b", op := ⟨"Sink", "1.0"⟩ },
    { id := "c", op := ⟨"Source", "1.0"⟩ }, { id := "d", op := ⟨"Sink", "1.0"⟩ }]
  edges := [{ id := "ab", fromPort := ⟨"a", "out"⟩, toPort := ⟨"b", "in"⟩ },
    { id := "cd", fromPort := ⟨"c", "out"⟩, toPort := ⟨"d", "in"⟩ }]

def insertFilter : MutationPatch where
  actions := [.insertChain {
    edge := "ab"
    nodes := [{ id := "f", op := ⟨"Filter", "1.0"⟩ }]
    ports := ⟨some "in", some "out"⟩ }]

def cutBranch : MutationPatch where
  actions := [.removeBranch { entryEdge := "cd", nodes := ["d"] }]

def insertFilterOut : CandidateSpec where
  candidate := { twoLinks with
    nodes := twoLinks.nodes ++ [{ id := "f", op := ⟨"Filter", "1.0"⟩ }]
    edges := [{ id := "cd", fromPort := ⟨"c", "out"⟩, toPort := ⟨"d", "in"⟩ },
      { id := "a.out->f.in", fromPort := ⟨"a", "out"⟩, toPort := ⟨"f", "in"⟩ },
      { id := "f.out->b.in", fromPort := ⟨"f", "out"⟩, toPort := ⟨"b", "in"⟩ }] }
  addedNodes := ["f"]
  addedEdges := ["a.out->f.in", "f.out->b.in"]
  removedEdges := ["ab"]
  touchedNodes := ["a", "b", "f"]
  touchedEdges := ["ab", "a.out->f.in", "f.out->b.in"]

def cutBranchOut : CandidateSpec where
  candidate := { twoLinks with
    nodes := [{ id := "a", op := ⟨"Source", "1.0"⟩ }, { id := "b", op := ⟨"Sink", "1.0"⟩ },
      { id := "c", op := ⟨"Source", "1.0"⟩ }]
    edges := [{ id := "ab", fromPort := ⟨"a", "out"⟩, toPort := ⟨"b", "in"⟩ }] }
  removedNodes := ["d"]
  removedEdges := ["cd"]
  nodeRemovePolicy := [("d", .drain)]
  touchedNodes := ["c", "d"]
  touchedEdges := ["cd"]

theorem insertFilter_cutBranch_merge : twoLinks.WellFormed ∧
      apply (fun _ => none) twoLinks insertFilter = .ok insertFilterOut ∧
      apply (fun _ => none) twoLinks cutBranch = .ok cutBranchOut ∧
      disjoint insertFilterOut cutBranchOut = true ∧
      ∃ both, apply (fun _ => none) twoLinks (concatenate insertFilter cutBranch) = .ok both := by
  have valid : twoLinks.WellFormed :=
    ⟨by decide, by decide, by decide, by decide, by decide, by decide, by decide⟩
  have first : apply (fun _ => none) twoLinks insertFilter = .ok insertFilterOut := by decide
  have second : apply (fun _ => none) twoLinks cutBranch = .ok cutBranchOut := by decide
  have compatible : disjoint insertFilterOut cutBranchOut = true := by decide
  obtain ⟨both, -, applies, -⟩ := disjoint_patches_merge _ _ _ _ _ _ valid first second compatible
  exact ⟨valid, first, second, compatible, both, applies⟩

/-- What a patch does not touch it leaves alone: the node keeps its declaration and its edges. -/
theorem untouched_kept {patch : MutationPatch} {id : String} (valid : base.WellFormed)
    (accepted : apply resolver base patch = .ok out) (apart : id ∉ out.touchedNodes) :
    out.candidate.findNode id = base.findNode id ∧ out.candidate.edgesFrom id = base.edgesFrom id ∧
      out.candidate.edgesTo id = base.edgesTo id := by
  have agree := (apply_framed valid accepted).agree
  exact ⟨(findNode_agree agree apart).symm, (edgesFrom_agree agree apart).symm,
    (edgesTo_agree agree apart).symm⟩

theorem insertFilter_keeps : insertFilterOut.candidate.edgesTo "d" = twoLinks.edgesTo "d" := by
  have valid : twoLinks.WellFormed :=
    ⟨by decide, by decide, by decide, by decide, by decide, by decide, by decide⟩
  have first : apply (fun _ => none) twoLinks insertFilter = .ok insertFilterOut := by decide
  exact (untouched_kept valid first (by decide)).2.2

end GraphEngine.MergedPatches
