import GraphEngine.AppliedEdits

/-!
Patches that touch disjoint nodes and edges can be merged. A patch's footprint
is a region of the graph: the node and edge ids it touched. Outside its
footprint a patch changes nothing, and no edge of the footprint leaves it. All
that an action reads lies in its own footprint, so an action that succeeds
alone succeeds, with the same effect, on a graph that differs only inside a
disjoint region.
-/

namespace GraphEngine.AppliedLocality

open GraphSpecs Capabilities GraphChecks Fallible ChangeSets KeyedLists Applier AppliedEdits
  GraphSpec List

structure Region where
  nodes : List String
  edges : List String

def inside (ids : List String) (id : String) : Bool := decide (id ∈ ids)

def outside (ids : List String) (id : String) : Bool := decide (id ∉ ids)

def Border (region : Region) (spec : GraphSpec) : Prop :=
  ∀ edge ∈ spec.edges, edge.id ∈ region.edges →
    edge.fromPort.nodeId ∈ region.nodes ∧ edge.toPort.nodeId ∈ region.nodes

structure AgreeOutside (region : Region) (left right : GraphSpec) : Prop where
  name : left.name = right.name
  nodes : restrict NodeSpec.id (outside region.nodes) left.nodes =
    restrict NodeSpec.id (outside region.nodes) right.nodes
  edges : restrict EdgeSpec.id (outside region.edges) left.edges =
    restrict EdgeSpec.id (outside region.edges) right.edges
  leftBorder : Border region left
  rightBorder : Border region right

structure AgreeInside (region : Region) (left right : GraphSpec) : Prop where
  nodes : restrict NodeSpec.id (inside region.nodes) left.nodes =
    restrict NodeSpec.id (inside region.nodes) right.nodes
  edges : restrict EdgeSpec.id (inside region.edges) left.edges =
    restrict EdgeSpec.id (inside region.edges) right.edges

variable {id : String} {nodes selected : List String} {edge : EdgeSpec}

section Reads

variable {region : Region} {left right : GraphSpec} {chain : List String}
  (agree : AgreeOutside region left right)
include agree

theorem findNode_agree (apart : id ∉ region.nodes) : left.findNode id = right.findNode id :=
  lookup_of_restrict agree.nodes (decide_eq_true apart)

theorem findEdge_agree (apart : id ∉ region.edges) : left.findEdge id = right.findEdge id :=
  lookup_of_restrict agree.edges (decide_eq_true apart)

theorem nodeIds_agree (apart : id ∉ region.nodes) : id ∈ left.nodeIds ↔ id ∈ right.nodeIds := by
  rw [← findNode_isSome, ← findNode_isSome, findNode_agree agree apart]

theorem edgeIds_agree (apart : id ∉ region.edges) : id ∈ left.edgeIds ↔ id ∈ right.edgeIds := by
  rw [← findEdge_isSome, ← findEdge_isSome, findEdge_agree agree apart]

theorem filterEdges_agree {keep : EdgeSpec → Bool} (leaves : ∀ edge, keep edge = true →
      edge.fromPort.nodeId ∉ region.nodes ∨ edge.toPort.nodeId ∉ region.nodes) :
    left.edges.filter keep = right.edges.filter keep := by
  have free : ∀ spec, Border region spec → ∀ edge ∈ spec.edges, keep edge = true →
      outside region.edges edge.id = true := by
    intro spec border edge member kept
    simp only [outside, decide_eq_true_eq]
    intro inRegion
    obtain ⟨source, target⟩ := border edge member inRegion
    rcases leaves edge kept with apart | apart
    · exact apart source
    · exact apart target
  exact filter_eq_of_restrict agree.edges (free left agree.leftBorder)
    (free right agree.rightBorder)

theorem edgesFrom_agree (apart : id ∉ region.nodes) : left.edgesFrom id = right.edgesFrom id := by
  apply filterEdges_agree agree
  intro edge starts
  exact .inl (by simpa using (of_decide_eq_true starts) ▸ apart)

theorem edgesTo_agree (apart : id ∉ region.nodes) : left.edgesTo id = right.edgesTo id := by
  apply filterEdges_agree agree
  intro edge ends
  exact .inr (by simpa using (of_decide_eq_true ends) ▸ apart)

theorem incidentEdges_agree (apart : id ∉ region.nodes) :
    incidentEdges left id = incidentEdges right id := by
  unfold incidentEdges
  rw [edgesFrom_agree agree apart, edgesTo_agree agree apart]

theorem mem_edges_agree
    (leaves : edge.fromPort.nodeId ∉ region.nodes ∨ edge.toPort.nodeId ∉ region.nodes) :
    edge ∈ left.edges ↔ edge ∈ right.edges := by
  let keep : EdgeSpec → Bool := fun other =>
    decide (other.fromPort.nodeId ∉ region.nodes ∨ other.toPort.nodeId ∉ region.nodes)
  have same : left.edges.filter keep = right.edges.filter keep :=
    filterEdges_agree agree fun _ => of_decide_eq_true
  have kept : keep edge = true := decide_eq_true leaves
  have here := congrArg (edge ∈ ·) same
  simpa [kept] using here

theorem linked_agree {fromPort toPort : PortRef} (apart : fromPort.nodeId ∉ region.nodes) :
    left.linked fromPort toPort ↔ right.linked fromPort toPort := by
  refine exists_congr fun edge => and_congr_left ?_
  rintro ⟨rfl, -⟩
  exact mem_edges_agree agree (.inl apart)

theorem checkFresh_agree {nodes : List NodeSpec} (apart : ∀ node ∈ nodes, node.id ∉ region.nodes) :
    checkFresh left nodes = checkFresh right nodes := by
  apply foldlM_congr
  intro node member _
  rw [findNode_agree agree (apart node member)]

variable (apart : ∀ id ∈ chain, id ∉ region.nodes)

include apart in
theorem chainMembers_agree : chainMembers left chain = chainMembers right chain := by
  apply foldlM_congr
  intro id member _
  rw [findNode_agree agree (apart id member)]

theorem countLinks_agree {source target : String} (apart : source ∉ region.nodes) :
    countLinks left source target = countLinks right source target := by
  unfold countLinks
  rw [filterEdges_agree agree]
  intro edge links
  exact .inl ((of_decide_eq_true links).1 ▸ apart)

include apart in
theorem checkLinks_agree : checkLinks left chain = checkLinks right chain := by
  apply foldlM_congr
  intro pair member _
  rw [countLinks_agree agree (apart pair.1 (of_mem_zip member).1)]

theorem scanEdges_agree {members : List String} (apart : ∀ id ∈ members, id ∉ region.nodes)
    (scan : ChainScan) : left.edges.foldlM (scanEdge chain members) scan =
      right.edges.foldlM (scanEdge chain members) scan := by
  let keep : EdgeSpec → Bool := fun edge =>
    decide (edge.fromPort.nodeId ∈ members ∨ edge.toPort.nodeId ∈ members)
  have skips : ∀ edge scan, keep edge = false → scanEdge chain members scan edge = .ok scan := by
    intro edge scan missed
    simp only [keep, decide_eq_false_iff_not, not_or] at missed
    simp [scanEdge, missed.1, missed.2]
  have same : left.edges.filter keep = right.edges.filter keep := by
    apply filterEdges_agree agree
    intro edge kept
    rcases of_decide_eq_true kept with source | target
    · exact .inl (apart _ source)
    · exact .inr (apart _ target)
  rw [← foldlM_filter skips left.edges, same, foldlM_filter skips]

include apart in
theorem checkLinearChain_agree : checkLinearChain left chain = checkLinearChain right chain := by
  unfold checkLinearChain
  rw [chainMembers_agree agree apart, checkLinks_agree agree apart]
  cases found : chainMembers right chain with
  | error status => rfl
  | ok members =>
    have same := chainMembers_same found
    subst members
    simp only [bind, Except.bind, scanEdges_agree agree apart]

omit agree

end Reads

variable {spec : GraphSpec}

section Updates

variable {region : Region} {left right : GraphSpec}

variable (agree : AgreeOutside region left right)

include agree in
theorem addNode_agree (node : NodeSpec) :
    AgreeOutside region { left with nodes := left.nodes ++ [node] }
      { right with nodes := right.nodes ++ [node] } :=
  { agree with nodes := by rw [restrict_append, restrict_append, agree.nodes] }

variable (kept : AgreeInside region left right)
include kept

theorem addNode_keeps {node : NodeSpec}
    (apart : node.id ∉ region.nodes) :
    AgreeInside region { left with nodes := left.nodes ++ [node] } right where
  nodes := by
    rw [restrict_append, restrict_singleton_outside (by simpa [inside] using apart),
      append_nil, kept.nodes]
  edges := kept.edges

omit kept

theorem addEdge_border (border : Border region spec) (apart : edge.id ∉ region.edges) :
    Border region { spec with edges := spec.edges ++ [edge] } :=
  forall_mem_append.mpr ⟨border, forall_mem_singleton.mpr fun touched =>
    absurd touched apart⟩

include agree in
theorem addEdge_agree (apart : edge.id ∉ region.edges) :
    AgreeOutside region { left with edges := left.edges ++ [edge] }
      { right with edges := right.edges ++ [edge] } :=
  { agree with
    edges := by rw [restrict_append, restrict_append, agree.edges]
    leftBorder := addEdge_border agree.leftBorder apart
    rightBorder := addEdge_border agree.rightBorder apart }

include kept

theorem addEdge_keeps (apart : edge.id ∉ region.edges) :
    AgreeInside region { left with edges := left.edges ++ [edge] } right where
  nodes := kept.nodes
  edges := by
    rw [restrict_append, restrict_singleton_outside (by simpa [inside] using apart),
      append_nil, kept.edges]

omit kept in
include agree in
theorem removeEdge_agree (apart : id ∉ region.edges) :
    AgreeOutside region { left with edges := erase EdgeSpec.id id left.edges }
      { right with edges := erase EdgeSpec.id id right.edges } :=
  { agree with
    edges := by
      have here : outside region.edges id = true := decide_eq_true apart
      rw [restrict_erase_inside here, restrict_erase_inside here, agree.edges]
    leftBorder := fun edge member => agree.leftBorder edge ((erase_sublist id _).subset member)
    rightBorder := fun edge member => agree.rightBorder edge ((erase_sublist id _).subset member) }

theorem removeEdge_keeps (apart : id ∉ region.edges) :
    AgreeInside region { left with edges := erase EdgeSpec.id id left.edges } right where
  nodes := kept.nodes
  edges := by rw [restrict_erase_outside (by simpa [inside] using apart), kept.edges]

omit kept in
include agree in
theorem removeNode_agree (apart : id ∉ region.nodes) :
    AgreeOutside region
      { left with
        nodes := erase NodeSpec.id id left.nodes
        edges := left.edges.filter fun edge => !touches id edge }
      { right with
        nodes := erase NodeSpec.id id right.nodes
        edges := right.edges.filter fun edge => !touches id edge } where
  name := agree.name
  nodes := by
    have here : outside region.nodes id = true := decide_eq_true apart
    rw [restrict_erase_inside here, restrict_erase_inside here, agree.nodes]
  edges := by rw [restrict_filter, restrict_filter, agree.edges]
  leftBorder := fun edge member => agree.leftBorder edge (mem_filter.mp member).1
  rightBorder := fun edge member => agree.rightBorder edge (mem_filter.mp member).1

/-- The cascade only reaches edges at the removed node, none of which is in the
region. -/
theorem removeNode_keeps (border : Border region left)
    (apart : id ∉ region.nodes) :
    AgreeInside region
      { left with
        nodes := erase NodeSpec.id id left.nodes
        edges := left.edges.filter fun edge => !touches id edge } right where
  nodes := by rw [restrict_erase_outside (by simpa [inside] using apart), kept.nodes]
  edges := by
    rw [restrict_filter, ← kept.edges]
    apply filter_eq_self.mpr
    intro edge member
    obtain ⟨old, here⟩ := mem_restrict.mp member
    obtain ⟨source, target⟩ := border edge old (of_decide_eq_true here)
    have elsewhere : edge.fromPort.nodeId ≠ id ∧ edge.toPort.nodeId ≠ id := by
      constructor
      · rintro rfl
        exact apart source
      · rintro rfl
        exact apart target
    simp [touches, elsewhere.1, elsewhere.2]

/-! A change of one graph inside the region keeps the agreement. -/

variable (agree : AgreeOutside region left right)
include agree

omit kept

theorem growNode_inside {node : NodeSpec} (here : node.id ∈ region.nodes) :
    AgreeOutside region left { right with nodes := right.nodes ++ [node] } :=
  { agree with
    nodes := by
      rw [restrict_append, restrict_singleton_outside (by simpa [outside] using here),
        append_nil, agree.nodes] }

theorem growEdge_inside (here : edge.id ∈ region.edges)
    (source : edge.fromPort.nodeId ∈ region.nodes) (target : edge.toPort.nodeId ∈ region.nodes) :
    AgreeOutside region left { right with edges := right.edges ++ [edge] } :=
  { agree with
    edges := by
      rw [restrict_append, restrict_singleton_outside (by simpa [outside] using here),
        append_nil, agree.edges]
    rightBorder := forall_mem_append.mpr ⟨agree.rightBorder,
      forall_mem_singleton.mpr fun _ => ⟨source, target⟩⟩ }

theorem shrinkEdge_inside (here : id ∈ region.edges) :
    AgreeOutside region left { right with edges := erase EdgeSpec.id id right.edges } :=
  { agree with
    edges := by rw [restrict_erase_outside (by simpa [outside] using here), agree.edges]
    rightBorder := fun edge member => agree.rightBorder edge ((erase_sublist id _).subset member) }

theorem shrinkNode_inside (here : id ∈ region.nodes) :
    AgreeOutside region left { right with nodes := erase NodeSpec.id id right.nodes } :=
  { agree with
    nodes := by rw [restrict_erase_outside (by simpa [outside] using here), agree.nodes] }

omit agree

end Updates

def footprint (out : CandidateSpec) : Region := ⟨out.touchedNodes, out.touchedEdges⟩

/-- What a patch leaves behind: its graph agrees with the base outside the
footprint, and its additions lie inside. -/
structure Framed (base : GraphSpec) (out : CandidateSpec) : Prop where
  agree : AgreeOutside (footprint out) base out.candidate
  addedNodes : ∀ id ∈ out.addedNodes, id ∈ out.touchedNodes
  addedEdges : ∀ id ∈ out.addedEdges, id ∈ out.touchedEdges

theorem start_framed (base : GraphSpec) : Framed base { candidate := base } where
  agree := ⟨rfl, rfl, rfl, fun _ _ => nofun, fun _ _ => nofun⟩
  addedNodes := nofun
  addedEdges := nofun

theorem outside_touch {other : String} {ids : List String}
    (apart : outside (touch id ids) other = true) : outside ids other = true := by
  simp only [outside, decide_eq_true_eq, mem_touch, not_or] at apart ⊢
  exact apart.1

theorem mem_noteRemoved {other : String} {added removed : List String}
    (member : other ∈ (noteRemoved id added removed).1) : other ∈ added := by
  unfold noteRemoved at member
  split at member
  · exact mem_of_mem_erase member
  · exact member

variable {edges : List String}

theorem border_nodes {more : List String} (wider : ∀ id ∈ nodes, id ∈ more)
    (border : Border ⟨nodes, edges⟩ spec) : Border ⟨more, edges⟩ spec := by
  intro edge member touched
  obtain ⟨source, target⟩ := border edge member touched
  exact ⟨wider _ source, wider _ target⟩

theorem border_touch (border : Border ⟨nodes, edges⟩ spec)
    (only : ∀ other ∈ spec.edges, other.id = edge.id → other.id ∉ edges → other = edge) :
    Border ⟨touch edge.toPort.nodeId (touch edge.fromPort.nodeId nodes), touch edge.id edges⟩
      spec := by
  intro other member touched
  simp only [mem_touch] at touched ⊢
  by_cases known : other.id ∈ edges
  · obtain ⟨source, target⟩ := border other member known
    exact ⟨.inl (.inl source), .inl (.inl target)⟩
  · have same := only other member (touched.resolve_left known) known
    subst same
    exact ⟨.inl (.inr rfl), .inr rfl⟩

theorem mem_of_agree {region : Region} {left right : GraphSpec}
    (agree : AgreeOutside region left right) (apart : edge.id ∉ region.edges) :
    edge ∈ left.edges ↔ edge ∈ right.edges :=
  mem_of_restrict agree.edges (decide_eq_true apart)

variable {base : GraphSpec}

theorem touchNode_agree (agree : AgreeOutside ⟨nodes, edges⟩ base spec) (id : String) :
    AgreeOutside ⟨touch id nodes, edges⟩ base spec :=
  { agree with
    nodes := restrict_narrow (fun _ => outside_touch) agree.nodes
    leftBorder := border_nodes (fun _ member => touch_keeps member) agree.leftBorder
    rightBorder := border_nodes (fun _ member => touch_keeps member) agree.rightBorder }

/-- Touching an edge together with its ends. In both graphs the id is either
unused or names this very edge. -/
theorem touchEdge_agree (agree : AgreeOutside ⟨nodes, edges⟩ base spec)
    (only : ∀ other ∈ spec.edges, other.id = edge.id → other = edge) :
    AgreeOutside ⟨touch edge.toPort.nodeId (touch edge.fromPort.nodeId nodes),
      touch edge.id edges⟩ base spec where
  name := agree.name
  nodes := restrict_narrow (fun _ apart => outside_touch (outside_touch apart)) agree.nodes
  edges := restrict_narrow (fun _ => outside_touch) agree.edges
  leftBorder := by
    apply border_touch agree.leftBorder
    intro other member named apart
    exact only other ((mem_of_agree agree apart).mp member) named
  rightBorder := by
    apply border_touch agree.rightBorder
    intro other member named _
    exact only other member named

theorem edit_framed {before after : CandidateSpec} (valid : before.candidate.WellFormed)
    (edit : Edit before after) (framed : Framed base before) : Framed base after := by
  cases edit with
  | nodeAdded node done =>
    obtain ⟨-, fresh, rfl⟩ := addNodeTracked_ok.mp done
    have touched := touchNode_agree framed.agree node.id
    constructor
    · exact growNode_inside touched touch_self
    · exact forall_mem_append.mpr
        ⟨fun id old => touch_keeps (framed.addedNodes id old), forall_mem_singleton.mpr touch_self⟩
    · exact framed.addedEdges
  | edgeAdded given done =>
    obtain ⟨⟨-, fresh, -⟩, rfl⟩ := (addEdgeTracked_ok rfl).mp done
    set edge := withId given
    have unused : ∀ other ∈ before.candidate.edges, other.id = edge.id → other = edge :=
      fun other member named => absurd (mem_map.mpr ⟨other, member, named⟩) fresh
    have touched := touchEdge_agree framed.agree unused
    constructor
    · exact growEdge_inside touched touch_self (touch_keeps touch_self) touch_self
    · intro id member
      exact touch_keeps (touch_keeps (framed.addedNodes id member))
    · exact forall_mem_append.mpr
        ⟨fun id old => touch_keeps (framed.addedEdges id old), forall_mem_singleton.mpr touch_self⟩
  | edgeRemoved id done =>
    obtain ⟨edge, found, rfl⟩ := removeEdgeTracked_ok.mp done
    obtain ⟨present, rfl⟩ := findEdge_some found
    have only : ∀ other ∈ before.candidate.edges, other.id = edge.id → other = edge :=
      fun other member named => inj_on_of_nodup_map valid.edgeIdsDistinct member present named
    have touched := touchEdge_agree framed.agree only
    constructor
    · exact shrinkEdge_inside touched touch_self
    · intro id member
      exact touch_keeps (touch_keeps (framed.addedNodes id member))
    · intro id member
      exact touch_keeps (framed.addedEdges id (mem_noteRemoved member))
  | nodeDropped id policy bare done =>
    obtain ⟨known, rfl⟩ := dropNode_ok.mp done
    have touched := touchNode_agree framed.agree id
    constructor
    · simp only [cascade_keeps bare]
      exact shrinkNode_inside touched touch_self
    · intro other member
      exact touch_keeps (framed.addedNodes other (mem_noteRemoved member))
    · exact framed.addedEdges
  | optionsSet action done =>
    obtain ⟨-, rfl⟩ := setNodeOptions_ok.mp done
    refine ⟨touchNode_agree framed.agree action.node, ?_, framed.addedEdges⟩
    intro id member
    exact touch_keeps (framed.addedNodes id member)

theorem apply_framed {resolver : CapabilityResolver} {patch : MutationPatch} {out : CandidateSpec}
    (valid : base.WellFormed) (accepted : apply resolver base patch = .ok out) : Framed base out :=
  (edits_invariant (Framed base) (fun _ _ sValid edit => edit_framed sValid edit)
    (apply_edits valid accepted) valid (start_framed base)).2

end GraphEngine.AppliedLocality
