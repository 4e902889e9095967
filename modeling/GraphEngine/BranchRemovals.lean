import GraphEngine.AppliedEdits

/-!
Removals of whole sets of nodes. Removing distinct nodes of a well-formed graph always
succeeds and leaves the other nodes and the edges between them. `RemoveBranch` is such a
removal behind a depth-first search: it succeeds exactly when the selection can be
detached at its entry edges.
-/

namespace GraphEngine.BranchRemovals

open Values GraphSpecs GraphChecks Fallible KeyedLists Applier AppliedEdits List

variable {before after : CandidateSpec} {ids : List String} {id : String} {policy : RemovePolicy}

def apart (ids : List String) (edge : EdgeSpec) : Bool :=
  edge.fromPort.nodeId ∉ ids ∧ edge.toPort.nodeId ∉ ids

theorem touch_nodup (distinct : ids.Nodup) : (touch id ids).Nodup := by
  unfold touch
  split
  · exact distinct
  · next fresh =>
    simpa [nodup_append, distinct] using fun other member (same : other = id) =>
      fresh (same ▸ member)

theorem incidentEdges_nodup {spec : GraphSpec} (valid : spec.WellFormed) (id : String) :
    (incidentEdges spec id).Nodup := by
  have start : ((spec.edgesFrom id).map EdgeSpec.id).Nodup :=
    valid.edgeIdsDistinct.sublist (filter_sublist.map _)
  exact foldlRecOn (spec.edgesTo id) _ start fun _ distinct _ _ => touch_nodup distinct

variable (valid : before.candidate.WellFormed)

include valid in
theorem removeEdges_succeeds (distinct : ids.Nodup)
    (known : ∀ id ∈ ids, id ∈ before.candidate.edgeIds) :
    ∃ after, removeEdges ids before = .ok after := by
  induction ids generalizing before with
  | nil => exact ⟨before, rfl⟩
  | cons id rest ih =>
    obtain ⟨fresh, restDistinct⟩ := nodup_cons.mp distinct
    obtain ⟨edge, found⟩ := Option.isSome_iff_exists.mp
      (lookup_isSome.mpr (known id mem_cons_self))
    have first := removeEdgeTracked_ok.mpr ⟨edge, found, rfl⟩
    have nextValid := edit_wellFormed (.edgeRemoved id first) valid
    obtain ⟨after, later⟩ := ih nextValid restDistinct fun other member =>
      (mem_keys_erase valid.edgeIdsDistinct).mpr
        ⟨known other (mem_cons_of_mem _ member), fun same => fresh (same ▸ member)⟩
    exact ⟨after, foldlM_cons_ok.mpr ⟨_, first, later⟩⟩

include valid in
theorem removeNodeWithEdges_leaves (done : removeNodeWithEdges id policy before = .ok after) :
    id ∈ before.candidate.nodeIds ∧
      after.candidate.nodes = before.candidate.nodes.filter (fun node => node.id ≠ id) ∧
      after.candidate.edges = before.candidate.edges.filter (apart [id]) := by
  simp only [removeNodeWithEdges, guard_ok, bind_ok, dropNode_ok] at done
  obtain ⟨-, middle, cleared, known, rfl⟩ := done
  obtain ⟨nodes, edges⟩ := removeEdges_leaves valid cleared
  have same : middle.candidate.nodeIds = before.candidate.nodeIds := congrArg (map NodeSpec.id) nodes
  refine ⟨same ▸ known, ?_, ?_⟩
  · rw [← erase_eq_filter valid.nodeIdsDistinct, ← nodes]
  · rw [edges, filter_filter]
    apply filter_congr
    intro edge member
    -- An edge of the graph that touches the node is among the incident ones.
    cases touched : GraphSpec.touches id edge with
    | true => simpa [apart, GraphSpec.touches, ← or_iff_not_imp_left] using touched
    | false =>
      have unlisted : edge.id ∉ incidentEdges before.candidate id := by
        rintro inside
        obtain ⟨other, otherIn, hit, named⟩ := mem_incidentEdges.mp inside
        rw [inj_on_of_nodup_map valid.edgeIdsDistinct otherIn member named, touched] at hit
        cases hit
      simpa [apart, GraphSpec.touches, unlisted] using touched

include valid in
theorem removeNodeWithEdges_succeeds
    (known : id ∈ before.candidate.nodeIds) (policy : RemovePolicy) :
    ∃ after, removeNodeWithEdges id policy before = .ok after := by
  obtain ⟨middle, cleared⟩ := removeEdges_succeeds valid (incidentEdges_nodup valid id)
    (fun edgeId member => by
      obtain ⟨edge, inside, -, named⟩ := mem_incidentEdges.mp member
      exact mem_map.mpr ⟨edge, inside, named⟩)
  have same : middle.candidate.nodeIds = before.candidate.nodeIds :=
    congrArg (map NodeSpec.id) (removeEdges_leaves valid cleared).1
  refine ⟨_, guard_ok.mpr ⟨?_, then_ok middle cleared (dropNode_ok.mpr ⟨same ▸ known, rfl⟩)⟩⟩
  simpa [GraphSpec.findNode_none] using known

include valid in
theorem removeNodes_leaves (done : removeNodes ids policy before = .ok after) :
    ids.Nodup ∧ (∀ id ∈ ids, id ∈ before.candidate.nodeIds) ∧
      after.candidate.nodes = before.candidate.nodes.filter (fun node => node.id ∉ ids) ∧
      after.candidate.edges = before.candidate.edges.filter (apart ids) := by
  induction ids generalizing before with
  | nil =>
    rw [← foldlM_nil_ok.mp done]
    simp [funext fun edge => show apart [] edge = true by simp [apart]]
  | cons id rest ih =>
    obtain ⟨middle, first, later⟩ := foldlM_cons_ok.mp done
    obtain ⟨known, nodes, edges⟩ := removeNodeWithEdges_leaves valid first
    have middleValid := edits_wellFormed (removeNodeWithEdges_edits valid first) valid
    obtain ⟨distinct, others, lastNodes, lastEdges⟩ := ih middleValid later
    have earlier : ∀ other ∈ rest, other ∈ before.candidate.nodeIds ∧ other ≠ id := by
      intro other member
      obtain ⟨node, inside, named⟩ := mem_map.mp (others other member)
      rw [nodes, mem_filter] at inside
      exact ⟨mem_map.mpr ⟨node, inside.1, named⟩, named ▸ of_decide_eq_true inside.2⟩
    refine ⟨nodup_cons.mpr ⟨fun member => (earlier id member).2 rfl, distinct⟩, ?_, ?_, ?_⟩
    · rintro other (_ | ⟨_, member⟩)
      · exact known
      · exact (earlier other member).1
    · rw [lastNodes, nodes, filter_filter]
      apply filter_congr
      intro node _
      simp [Bool.and_comm]
    · rw [lastEdges, edges, filter_filter]
      apply filter_congr
      intro edge _
      simp only [apart]
      grind

include valid in
theorem removeNodes_succeeds (distinct : ids.Nodup)
    (known : ∀ id ∈ ids, id ∈ before.candidate.nodeIds) (policy : RemovePolicy) :
    ∃ after, removeNodes ids policy before = .ok after := by
  induction ids generalizing before with
  | nil => exact ⟨before, rfl⟩
  | cons id rest ih =>
    obtain ⟨fresh, restDistinct⟩ := nodup_cons.mp distinct
    obtain ⟨middle, first⟩ := removeNodeWithEdges_succeeds valid (known id mem_cons_self) policy
    have middleValid := edits_wellFormed (removeNodeWithEdges_edits valid first) valid
    have nodes := (removeNodeWithEdges_leaves valid first).2.1
    obtain ⟨after, later⟩ := ih middleValid restDistinct fun other member => by
      obtain ⟨node, inside, named⟩ := mem_map.mp (known other (mem_cons_of_mem _ member))
      refine mem_map.mpr ⟨node, ?_, named⟩
      rw [nodes, mem_filter]
      exact ⟨inside, by simpa [named] using fun same : other = id => fresh (same ▸ member)⟩
    exact ⟨after, foldlM_cons_ok.mpr ⟨middle, first, later⟩⟩

section Search

variable {spec : GraphSpec} {selected : List String}

def Leads (spec : GraphSpec) (selected : List String) (source target : String) : Prop :=
  target ∈ selected ∧
    ∃ edge ∈ spec.edges, edge.fromPort.nodeId = source ∧ edge.toPort.nodeId = target

theorem mem_successors {source target : String} :
    target ∈ successors spec selected source ↔ Leads spec selected source target := by
  simp only [successors, GraphSpec.edgesFrom, mem_filter, mem_map, decide_eq_true_eq]
  constructor
  · rintro ⟨⟨edge, ⟨member, starts⟩, ends⟩, inside⟩
    exact ⟨inside, edge, member, starts, ends⟩
  · rintro ⟨inside, edge, member, starts, ends⟩
    exact ⟨⟨edge, ⟨member, starts⟩, ends⟩, inside⟩

theorem reachable_sound (fuel : Nat) {stack reached : List String}
    (found : id ∈ reachable spec selected fuel stack reached) :
    id ∈ reached ∨ ∃ source ∈ stack, Relation.ReflTransGen (Leads spec selected) source id := by
  induction fuel generalizing stack reached with
  | zero => exact .inl found
  | succ fuel ih =>
    cases stack with
    | nil => exact .inl found
    | cons top rest =>
      unfold reachable at found
      split at found
      · exact (ih found).imp_right fun ⟨source, member, path⟩ =>
          ⟨source, mem_cons_of_mem _ member, path⟩
      · rcases ih found with old | ⟨source, member, path⟩
        · rcases mem_cons.mp old with rfl | old
          · exact .inr ⟨id, mem_cons_self, .refl⟩
          · exact .inl old
        · rcases mem_append.mp member with new | old
          · exact .inr ⟨top, mem_cons_self, .head (mem_successors.mp (mem_reverse.mp new)) path⟩
          · exact .inr ⟨source, mem_cons_of_mem _ old, path⟩

/-- With enough fuel the search ends with everything it knew and was to visit, closed
under the edges of the selection. -/
theorem reachable_closed (fuel : Nat) {stack reached : List String}
    (enough : stack.length + unexpanded spec reached ≤ fuel)
    (expanded : ∀ id ∈ reached, ∀ next, Leads spec selected id next → next ∈ reached ∨ next ∈ stack) :
    (∀ id, id ∈ reached ∨ id ∈ stack → id ∈ reachable spec selected fuel stack reached) ∧
      ∀ id ∈ reachable spec selected fuel stack reached, ∀ next, Leads spec selected id next →
        next ∈ reachable spec selected fuel stack reached := by
  induction fuel generalizing stack reached with
  | zero =>
    have empty : stack = [] := length_eq_zero_iff.mp (by omega)
    subst empty
    simpa [reachable] using expanded
  | succ fuel ih =>
    cases stack with
    | nil => simpa [reachable] using expanded
    | cons top rest =>
      rw [length_cons] at enough
      unfold reachable
      split
      · next seen =>
        obtain ⟨kept, closed⟩ := @ih rest reached (by omega) (by grind)
        exact ⟨by grind, closed⟩
      · next fresh =>
        have pushed := successors_unexpanded spec selected reached top fresh
        obtain ⟨kept, closed⟩ := @ih ((successors spec selected top).reverse ++ rest) (top :: reached)
          (by simp only [length_append, length_reverse]; omega)
          (by grind [mem_successors])
        exact ⟨by grind, closed⟩

theorem mem_reachable {stack : List String} :
    id ∈ reachable spec selected (stack.length + spec.edges.length) stack [] ↔
      ∃ source ∈ stack, Relation.ReflTransGen (Leads spec selected) source id := by
  constructor
  · intro found
    exact (reachable_sound _ found).resolve_left not_mem_nil
  · rintro ⟨source, member, path⟩
    have bound : unexpanded spec [] ≤ spec.edges.length := length_filter_le _ _
    obtain ⟨kept, closed⟩ := @reachable_closed spec selected (stack.length + spec.edges.length) stack []
      (by omega) nofun
    induction path with
    | refl => exact kept source (.inr member)
    | tail _ leads ih => exact closed _ ih _ leads

def Enters (spec : GraphSpec) (selected : List String) (id : String) : Prop :=
  ∃ edge, spec.findEdge id = some edge ∧ edge.fromPort.nodeId ∉ selected ∧
    edge.toPort.nodeId ∈ selected

def Reached (spec : GraphSpec) (selected entries : List String) (id : String) : Prop :=
  ∃ entry ∈ entries, ∃ edge, spec.findEdge entry = some edge ∧
    Relation.ReflTransGen (Leads spec selected) edge.toPort.nodeId id

theorem branchEntries_outcome (spec : GraphSpec) (selected entries : List String) :
    (∃ error, branchEntries spec selected entries = .error error ∧
      ¬∀ id ∈ entries, Enters spec selected id) ∨
    ∃ stack, branchEntries spec selected entries = .ok stack ∧
      (∀ id ∈ entries, Enters spec selected id) ∧
      ∀ target, target ∈ stack ↔ ∃ entry ∈ entries, ∃ edge, spec.findEdge entry = some edge ∧
        edge.toPort.nodeId = target := by
  apply foldlM_outcome (fun done stack => (∀ id ∈ done, Enters spec selected id) ∧
    ∀ target, target ∈ stack ↔ ∃ entry ∈ done, ∃ edge, spec.findEdge entry = some edge ∧
      edge.toPort.nodeId = target)
  · rintro done id rest stack rfl ⟨entered, targets⟩
    have fails (refused : ¬Enters spec selected id) :
        ¬∀ other ∈ done ++ id :: rest, Enters spec selected other :=
      fun all => refused (all id (by simp))
    cases found : spec.findEdge id with
    | none => exact .inl ⟨_, rfl, fails fun ⟨_, known, _⟩ => by simp [found] at known⟩
    | some edge =>
      by_cases inward : edge.toPort.nodeId ∈ selected
      · have skip : ¬edge.toPort.nodeId ∉ selected := not_not.mpr inward
        by_cases outside : edge.fromPort.nodeId ∈ selected
        · exact .inl ⟨_, (if_neg skip).trans (if_pos outside), fails fun ⟨_, _, away, _⟩ => by grind⟩
        · refine .inr ⟨_, (if_neg skip).trans (if_neg outside), ?_, fun target => ?_⟩
          · have enters : Enters spec selected id := ⟨edge, found, outside, inward⟩
            grind
          · grind
      · exact .inl ⟨_, if_pos inward, fails fun ⟨_, _, _, within⟩ => by grind⟩
  · simp

end Search

theorem checkEach_ok {Item : Type} {items : List Item} {check : Item → Prop}
    [DecidablePred check] {error : Item → Status} {answer : Unit} :
    items.foldlM (fun _ item => if check item then (.error (error item) : Result Unit) else .ok ())
      () = .ok answer ↔ ∀ item ∈ items, ¬check item := by
  induction items with
  | nil => exact iff_of_true rfl nofun
  | cons item rest ih =>
    rw [foldlM_cons_ok, forall_mem_cons, ← ih]
    by_cases hit : check item
    · simp [hit]
    · rw [if_neg hit, and_iff_right hit]
      exact ⟨fun ⟨_, _, ran⟩ => ran, fun ran => ⟨(), rfl, ran⟩⟩

/-- Selections that can be detached: only entry edges lead into them, and they lead to
every node of them. -/
structure Detachable (spec : GraphSpec) (nodes entries : List String) : Prop where
  chosen : nodes ≠ []
  distinct : nodes.Nodup
  known : ∀ id ∈ nodes, id ∈ spec.nodeIds
  entered : ∀ id ∈ entries, Enters spec nodes id
  reached : ∀ id ∈ nodes, Reached spec nodes entries id
  closed : ∀ edge ∈ spec.edges, edge.id ∉ entries →
    (edge.fromPort.nodeId ∈ nodes ↔ edge.toPort.nodeId ∈ nodes)

theorem findSharedDependencies_nil {spec : GraphSpec} {nodes entries : List String} :
    findSharedDependencies spec nodes entries = [] ↔ ∀ edge ∈ spec.edges, edge.id ∉ entries →
      (edge.fromPort.nodeId ∈ nodes ↔ edge.toPort.nodeId ∈ nodes) := by
  simp only [findSharedDependencies, filterMap_eq_nil_iff]
  apply forall₂_congr
  intro edge _
  by_cases listed : edge.id ∈ entries
  · simp
  · simp

theorem removeBranch_ok {action : RemoveBranchAction} :
    removeBranch action policy before = .ok after ↔
      action.nodes ≠ [] ∧ (∀ id ∈ action.allEntryEdges, Enters before.candidate action.nodes id) ∧
      (∀ id ∈ action.nodes, id ∈ before.candidate.nodeIds) ∧
      (∀ id ∈ action.nodes, Reached before.candidate action.nodes action.allEntryEdges id) ∧
      (∀ edge ∈ before.candidate.edges, edge.id ∉ action.allEntryEdges →
        (edge.fromPort.nodeId ∈ action.nodes ↔ edge.toPort.nodeId ∈ action.nodes)) ∧
      removeNodes action.nodes policy before = .ok after := by
  rw [removeBranch, guard_ok, ← findSharedDependencies_nil, and_congr_right_iff]
  intro _
  rcases branchEntries_outcome before.candidate action.nodes action.allEntryEdges with
    ⟨error, failed, refused⟩ | ⟨stack, found, entered, targets⟩
  · refine iff_of_false (fun done => ?_) fun accepted => refused accepted.1
    simp [bind_ok, failed] at done
  have reached (id : String) : id ∈ reachable before.candidate action.nodes
      (stack.length + before.candidate.edges.length) stack [] ↔
      Reached before.candidate action.nodes action.allEntryEdges id := by
    rw [mem_reachable]
    simp only [Reached]
    grind
  have known : checkBranchNodes before.candidate action.nodes = .ok () ↔
      ∀ id ∈ action.nodes, id ∈ before.candidate.nodeIds := by
    rw [checkBranchNodes, checkEach_ok]
    simp [GraphSpec.findNode_none]
  have led : checkReached (reachable before.candidate action.nodes
      (stack.length + before.candidate.edges.length) stack []) action.nodes = .ok () ↔
      ∀ id ∈ action.nodes, Reached before.candidate action.nodes action.allEntryEdges id := by
    rw [checkReached, checkEach_ok]
    simp [reached]
  simp only [found, bind_ok, Except.ok.injEq, exists_eq_left', guard_ok, known, led, exists_const,
    not_not]
  exact ⟨fun rest => ⟨entered, rest⟩, And.right⟩

/-- `RemoveBranch` succeeds exactly on the selections that can be detached, and then
removes the selected nodes with all edges at them and nothing else. -/
theorem removeBranch_exact (action : RemoveBranchAction) (policy : RemovePolicy)
    (before : CandidateSpec) (valid : before.candidate.WellFormed) :
    ((∃ after, removeBranch action policy before = .ok after) ↔
      Detachable before.candidate action.nodes action.allEntryEdges) ∧
    ∀ after, removeBranch action policy before = .ok after →
      after.candidate.nodes = before.candidate.nodes.filter (fun node => node.id ∉ action.nodes) ∧
      after.candidate.edges = before.candidate.edges.filter (apart action.nodes) := by
  constructor
  · constructor
    · rintro ⟨after, done⟩
      obtain ⟨chosen, entered, known, reached, closed, removed⟩ := removeBranch_ok.mp done
      exact ⟨chosen, (removeNodes_leaves valid removed).1, known, entered, reached, closed⟩
    · rintro ⟨chosen, distinct, known, entered, reached, closed⟩
      obtain ⟨after, removed⟩ := removeNodes_succeeds valid distinct known policy
      exact ⟨after, removeBranch_ok.mpr ⟨chosen, entered, known, reached, closed, removed⟩⟩
  · intro after done
    obtain ⟨-, -, -, -, -, removed⟩ := removeBranch_ok.mp done
    exact (removeNodes_leaves valid removed).2.2

def tappedRelay : CandidateSpec where
  candidate := { relayGraph with
    nodes := relayGraph.nodes ++ [{ id := "tap", op := ⟨"Sink", "1.0"⟩ }]
    edges := relayGraph.edges ++ [
      { id := "tail", fromPort := ⟨"sink", "out"⟩, toPort := ⟨"tap", "in"⟩ }] }

def dropBranch : RemoveBranchAction where
  entryEdge := "link"
  nodes := ["sink", "tap"]

theorem sink_branch_removed : ∃ after, removeBranch dropBranch .drain tappedRelay = .ok after ∧
    Detachable tappedRelay.candidate ["sink", "tap"] ["link"] ∧
    after.candidate.nodes.length = 1 ∧ after.candidate.edges = [] := by
  have exact := removeBranch_exact dropBranch .drain tappedRelay
    ⟨by decide, by decide, by decide, by decide, by decide, by decide, by decide⟩
  obtain ⟨after, done⟩ : ∃ after, removeBranch dropBranch .drain tappedRelay = .ok after := ⟨_, rfl⟩
  obtain ⟨nodes, edges⟩ := exact.2 after done
  refine ⟨after, done, exact.1.mp ⟨after, done⟩, ?_, ?_⟩
  · rw [nodes]
    decide
  · rw [edges]
    decide

end GraphEngine.BranchRemovals
