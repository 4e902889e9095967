import GraphEngine.Validation

/-!
`GraphDiff`: the structural difference between the running graph and a
candidate. Every id of either graph gets one class; what is carried over at the
next topology version follows from the classes alone.
-/

namespace GraphEngine.StructuralDiff

open GraphSpecs Capabilities Validation KeyedLists OrderedMaps Option GraphSpec
open List hiding keys

inductive NodeChange where
  | kept | added | removed | replaced | updated
  deriving DecidableEq

inductive EdgeChange where
  | kept | added | removed | recreated
  deriving DecidableEq

structure NodeEntry where
  change : NodeChange
  reason : String := ""
  deriving DecidableEq

structure EdgeEntry where
  change : EdgeChange
  reason : String := ""
  deriving DecidableEq

structure GraphDiff where
  nodes : List (String × NodeEntry)
  edges : List (String × EdgeEntry)
  deriving DecidableEq

abbrev Contracts := List (String × ConnectionContract)

def join (parts : List String) : String := ", ".intercalate parts

def reasonIf (check : Prop) [Decidable check] (reason : String) : List String :=
  if check then [reason] else []

/-- The input edges of a node, port to edge id; feedback edges included. -/
def inputsOf (spec : GraphSpec) (node : String) : List (String × String) :=
  assignAll ((spec.edgesTo node).map fun edge => (edge.toPort.port, edge.id)) []

/-- The node runs another operator in the candidate. -/
def replacedNode (base candidate : GraphSpec) (id : String) : Bool :=
  match base.findNode id, candidate.findNode id with
  | some old, some new => old.op ≠ new.op
  | _, _ => false

def contractChanged (baseContracts candidateContracts : Contracts) (id : String) : Bool :=
  match find id baseContracts, find id candidateContracts with
  | some old, some new => !old.sameDataPlane new
  | _, _ => false

section Classes

variable (base : GraphSpec) (baseContracts : Contracts) (candidate : GraphSpec)
  (candidateContracts : Contracts)

def edgeReasons (old new : EdgeSpec) : List String :=
  reasonIf (old.fromPort ≠ new.fromPort ∨ old.toPort ≠ new.toPort) "endpoints" ++
    reasonIf (replacedNode base candidate new.fromPort.nodeId = true) "producer replaced" ++
    reasonIf (replacedNode base candidate new.toPort.nodeId = true) "consumer replaced" ++
    reasonIf (old.queue ≠ new.queue) "queue" ++
    reasonIf (old.feedback ≠ new.feedback) "feedback" ++
    reasonIf (contractChanged baseContracts candidateContracts old.id = true) "contract"

def classifyEdge (old : EdgeSpec) : EdgeEntry :=
  match candidate.findEdge old.id with
  | none => { change := .removed }
  | some new =>
    match edgeReasons base baseContracts candidate candidateContracts old new with
    | [] => { change := .kept }
    | reasons => { change := .recreated, reason := join reasons }

def edgeClasses : List (String × EdgeEntry) :=
  assignAll ((candidate.edges.filter fun edge => (base.findEdge edge.id).isNone).map
      fun edge => (edge.id, { change := .added }))
    (assignAll (base.edges.map fun edge =>
      (edge.id, classifyEdge base baseContracts candidate candidateContracts edge)) [])

def inputReasons (edges : List (String × EdgeEntry)) (id : String) : List String :=
  let before := inputsOf base id
  let after := inputsOf candidate id
  (after.flatMap fun entry =>
    match find entry.1 before with
    | none => [s!"input '{entry.1}' added"]
    | some old =>
      if old ≠ entry.2 then [s!"input '{entry.1}' rewired"]
      else reasonIf ((find entry.2 edges).map EdgeEntry.change = some .recreated)
        s!"input '{entry.1}' recreated") ++
    before.flatMap fun entry =>
      reasonIf (find entry.1 after = none) s!"input '{entry.1}' removed"

def nodeReasons (edges : List (String × EdgeEntry)) (old new : NodeSpec) : List String :=
  reasonIf (old.executor ≠ new.executor) "executor" ++
    reasonIf (old.parallelism ≠ new.parallelism) "parallelism" ++
    inputReasons base candidate edges old.id

def classifyNode (edges : List (String × EdgeEntry)) (old : NodeSpec) : NodeEntry :=
  match candidate.findNode old.id with
  | none => { change := .removed }
  | some new =>
    if old.op ≠ new.op then
      { change := .replaced, reason := old.op.render ++ " -> " ++ new.op.render }
    else
      match nodeReasons base candidate edges old new with
      | [] => { change := .kept }
      | reasons => { change := .updated, reason := join reasons }

def nodeClasses (edges : List (String × EdgeEntry)) : List (String × NodeEntry) :=
  assignAll ((candidate.nodes.filter fun node => (base.findNode node.id).isNone).map
      fun node => (node.id, { change := .added }))
    (assignAll (base.nodes.map fun node => (node.id, classifyNode base candidate edges node)) [])

def compute : GraphDiff :=
  let edges := edgeClasses base baseContracts candidate candidateContracts
  { nodes := nodeClasses base candidate edges, edges := edges }

end Classes

namespace GraphDiff

/-- `Nodes(c)`. -/
def nodesOf (diff : GraphDiff) (change : NodeChange) : List String :=
  keys (diff.nodes.filter fun entry => entry.2.change = change)

/-- `Edges(c)`. -/
def edgesOf (diff : GraphDiff) (change : EdgeChange) : List String :=
  keys (diff.edges.filter fun entry => entry.2.change = change)

def reusedNodes (diff : GraphDiff) : List String :=
  keys (diff.nodes.filter fun entry => entry.2.change = .kept ∨ entry.2.change = .updated)

def reusedEdges (diff : GraphDiff) : List String :=
  keys (diff.edges.filter fun entry => entry.2.change = .kept)

end GraphDiff

/-! The class of each id. Old items are classified one by one, new items whose
key is not among the old ones are added; both maps are built that way. -/

theorem find_classes {Item Entry : Type} {key : Item → String} {olds news : List Item}
    (classify : Item → Entry) (added : Entry) (oldDistinct : (olds.map key).Nodup)
    (newDistinct : (news.map key).Nodup) (id : String) :
    find id (assignAll ((news.filter fun item => (lookup key (key item) olds).isNone).map
        fun item => (key item, added))
      (assignAll (olds.map fun item => (key item, classify item)) [])) =
      (lookup key id olds).elim ((lookup key id news).map fun _ => added)
        (fun old => some (classify old)) := by
  have newKeys : keys ((news.filter fun item => (lookup key (key item) olds).isNone).map
      fun item => (key item, added)) =
      (news.filter fun item => (lookup key (key item) olds).isNone).map key := by
    simp [keys]
  have oldKeys : keys (olds.map fun item => (key item, classify item)) = olds.map key := by
    simp [keys]
  cases found : lookup key id olds with
  | some old =>
    obtain ⟨member, named⟩ := lookup_some found
    have entry : (id, classify old) ∈ olds.map fun item => (key item, classify item) :=
      mem_map.mpr ⟨old, member, by rw [named]⟩
    rw [find_assignAll_absent, find_assignAll (oldKeys ▸ oldDistinct) entry]
    · rfl
    · rw [newKeys]
      intro inNew
      obtain ⟨item, inside, same⟩ := mem_map.mp inNew
      have fresh := (mem_filter.mp inside).2
      simp [same, found] at fresh
  | none =>
    cases foundNew : lookup key id news with
    | some item =>
      obtain ⟨member, named⟩ := lookup_some foundNew
      apply find_assignAll
      · rw [newKeys]
        exact newDistinct.sublist (filter_sublist.map key)
      · refine mem_map.mpr ⟨item, mem_filter.mpr ⟨member, ?_⟩, by rw [named]⟩
        rw [named, found]
        rfl
    | none =>
      have absentNew := lookup_none.mp foundNew
      have absentOld := lookup_none.mp found
      rw [find_assignAll_absent, find_assignAll_absent (oldKeys ▸ absentOld)]
      · rfl
      · rw [newKeys]
        exact fun inNew => absentNew ((filter_sublist.map key).subset inNew)

/-- The entry of an id of either graph. -/
theorem class_found {Item Entry Change : Type} {old new : Option Item} {found : Option Entry}
    {classify : Item → Entry} {added : Entry}
    (classes : found = old.elim (new.map fun _ => added) (fun item => some (classify item)))
    (known : old.isSome ∨ new.isSome) (stays fresh : Change → Prop) (change : Entry → Change)
    (anew : stays (change added))
    (both : ∀ item, old = some item → new.isSome → stays (change (classify item)))
    (before : ∀ item, fresh (change (classify item))) :
    ∃ entry, found = some entry ∧ (new.isSome → stays (change entry)) ∧
      (old.isSome → fresh (change entry)) := by
  cases old with
  | none =>
    obtain ⟨item, rfl⟩ := isSome_iff_exists.mp (known.resolve_left nofun)
    exact ⟨added, classes, fun _ => anew, nofun⟩
  | some item => exact ⟨classify item, classes, both item rfl, fun _ => before item⟩

theorem reasonIf_nil {check : Prop} [Decidable check] {reason : String} :
    reasonIf check reason = [] ↔ ¬check := by
  unfold reasonIf
  split <;> simp_all

variable {id : String}

section Results

variable {base : GraphSpec} {baseContracts : Contracts} {candidate : GraphSpec}
  {candidateContracts : Contracts}

theorem edgeClasses_ordered :
    Ordered (edgeClasses base baseContracts candidate candidateContracts) :=
  assignAll_ordered (assignAll_ordered List.Pairwise.nil)

theorem nodeClasses_ordered (edges : List (String × EdgeEntry)) :
    Ordered (nodeClasses base candidate edges) :=
  assignAll_ordered (assignAll_ordered List.Pairwise.nil)

theorem find_edgeClasses (baseDistinct : base.edgeIds.Nodup)
    (candidateDistinct : candidate.edgeIds.Nodup) (id : String) :
    find id (edgeClasses base baseContracts candidate candidateContracts) =
      (base.findEdge id).elim ((candidate.findEdge id).map fun _ => { change := .added })
        (fun old => some (classifyEdge base baseContracts candidate candidateContracts old)) :=
  find_classes _ _ baseDistinct candidateDistinct id

theorem find_nodeClasses (baseDistinct : base.nodeIds.Nodup)
    (candidateDistinct : candidate.nodeIds.Nodup) (edges : List (String × EdgeEntry))
    (id : String) : find id (nodeClasses base candidate edges) =
      (base.findNode id).elim ((candidate.findNode id).map fun _ => { change := .added })
        (fun old => some (classifyNode base candidate edges old)) :=
  find_classes _ _ baseDistinct candidateDistinct id

theorem mem_keys_filter {Entry : Type} {entries : List (String × Entry)} (ordered : Ordered entries)
    (keep : Entry → Bool) : id ∈ keys (entries.filter fun entry => keep entry.2) ↔
      ∃ entry, find id entries = some entry ∧ keep entry = true := by
  simp only [keys, List.mem_map, mem_filter]
  constructor
  · rintro ⟨⟨key, entry⟩, ⟨member, kept⟩, rfl⟩
    exact ⟨entry, (find_eq_some ordered).mpr member, kept⟩
  · rintro ⟨entry, found, kept⟩
    exact ⟨(id, entry), ⟨(find_eq_some ordered).mp found, kept⟩, rfl⟩

theorem mem_nodesOf {entry : NodeEntry} {change : NodeChange}
    (found : find id (compute base baseContracts candidate candidateContracts).nodes = some entry) :
    id ∈ (compute base baseContracts candidate candidateContracts).nodesOf change ↔
      entry.change = change := by
  refine (mem_keys_filter (nodeClasses_ordered _)
    (fun entry => decide (entry.change = change))).trans ?_
  simp [show find id (nodeClasses base candidate _) = some entry from found]

theorem mem_edgesOf {entry : EdgeEntry} {change : EdgeChange}
    (found : find id (compute base baseContracts candidate candidateContracts).edges = some entry) :
    id ∈ (compute base baseContracts candidate candidateContracts).edgesOf change ↔
      entry.change = change := by
  refine (mem_keys_filter edgeClasses_ordered
    (fun entry => decide (entry.change = change))).trans ?_
  simp [show find id (edgeClasses ..) = some entry from found]

theorem mem_reusedEdges (baseDistinct : base.edgeIds.Nodup)
    (candidateDistinct : candidate.edgeIds.Nodup) :
    id ∈ (compute base baseContracts candidate candidateContracts).reusedEdges ↔
      ∃ old new, base.findEdge id = some old ∧ candidate.findEdge id = some new ∧
        edgeReasons base baseContracts candidate candidateContracts old new = [] := by
  simp only [GraphDiff.reusedEdges, compute]
  rw [mem_keys_filter edgeClasses_ordered (fun entry => decide (entry.change = .kept)),
    find_edgeClasses baseDistinct candidateDistinct]
  cases found : base.findEdge id with
  | none =>
    constructor
    · rintro ⟨entry, added, kept⟩
      obtain ⟨edge, -, rfl⟩ := map_eq_some_iff.mp added
      cases kept
    · rintro ⟨old, new, impossible, -⟩
      cases impossible
  | some old =>
    have named : old.id = id := (findEdge_some found).2
    simp only [elim_some, classifyEdge, named]
    cases candidate.findEdge id with
    | none => simp
    | some new =>
      cases reasons : edgeReasons base baseContracts candidate candidateContracts old new with
      | nil | cons reason more => simp [reasons]

theorem mem_reusedNodes (baseDistinct : base.nodeIds.Nodup)
    (candidateDistinct : candidate.nodeIds.Nodup) :
    id ∈ (compute base baseContracts candidate candidateContracts).reusedNodes ↔
      ∃ old new, base.findNode id = some old ∧ candidate.findNode id = some new ∧
        old.op = new.op := by
  simp only [GraphDiff.reusedNodes, compute]
  rw [mem_keys_filter (nodeClasses_ordered _)
      (fun entry => decide (entry.change = .kept ∨ entry.change = .updated)),
    find_nodeClasses baseDistinct candidateDistinct]
  cases found : base.findNode id with
  | none =>
    constructor
    · rintro ⟨entry, added, kept⟩
      obtain ⟨node, -, rfl⟩ := map_eq_some_iff.mp added
      simp at kept
    · rintro ⟨old, new, impossible, -⟩
      cases impossible
  | some old =>
    have named : old.id = id := (lookup_some found).2
    simp only [elim_some, classifyNode, named]
    cases candidate.findNode id with
    | none => simp
    | some new =>
      by_cases same : old.op = new.op
      · cases reasons : nodeReasons base candidate
          (edgeClasses base baseContracts candidate candidateContracts) old new with
        | nil | cons reason more => simp [same, reasons]
      · simp [same]

theorem edgeReasons_nil {old new : EdgeSpec} :
    edgeReasons base baseContracts candidate candidateContracts old new = [] ↔
      old.fromPort = new.fromPort ∧ old.toPort = new.toPort ∧
        replacedNode base candidate new.fromPort.nodeId = false ∧
        replacedNode base candidate new.toPort.nodeId = false ∧
        old.queue = new.queue ∧ old.feedback = new.feedback ∧
        contractChanged baseContracts candidateContracts old.id = false := by
  simp only [edgeReasons, append_eq_nil_iff, reasonIf_nil, not_or, not_not,
    Bool.not_eq_true, and_assoc]

section Nodes

variable (baseDistinct : base.nodeIds.Nodup) (candidateDistinct : candidate.nodeIds.Nodup)
include baseDistinct candidateDistinct

theorem reused_of_not_replaced (inBase : id ∈ base.nodeIds)
    (inCandidate : id ∈ candidate.nodeIds) (same : replacedNode base candidate id = false) :
    id ∈ (compute base baseContracts candidate candidateContracts).reusedNodes := by
  obtain ⟨old, foundOld⟩ := isSome_iff_exists.mp (findNode_isSome.mpr inBase)
  obtain ⟨new, foundNew⟩ := isSome_iff_exists.mp (findNode_isSome.mpr inCandidate)
  refine (mem_reusedNodes baseDistinct candidateDistinct).mpr ⟨old, new, foundOld, foundNew, ?_⟩
  simpa [replacedNode, foundOld, foundNew] using same

/-- Each id of either graph has exactly one class, and no other id has one. -/
theorem compute_total (baseEdges : base.edgeIds.Nodup) (candidateEdges : candidate.edgeIds.Nodup) :
    let diff := compute base baseContracts candidate candidateContracts
    (keys diff.nodes).Nodup ∧ (keys diff.edges).Nodup ∧
      (∀ id, id ∈ keys diff.nodes ↔ id ∈ base.nodeIds ∨ id ∈ candidate.nodeIds) ∧
      (∀ id, id ∈ keys diff.edges ↔ id ∈ base.edgeIds ∨ id ∈ candidate.edgeIds) := by
  have distinct : ∀ {Entry : Type} {entries : List (String × Entry)}, Ordered entries →
      (keys entries).Nodup := fun ordered => ordered.imp fun below => ne_of_lt below
  refine ⟨distinct (nodeClasses_ordered _), distinct edgeClasses_ordered, ?_, ?_⟩
  · intro id
    rw [← find_isSome, ← findNode_isSome, ← findNode_isSome]
    simp only [compute]
    rw [find_nodeClasses baseDistinct candidateDistinct]
    cases base.findNode id <;> simp
  · intro id
    rw [← find_isSome, ← findEdge_isSome, ← findEdge_isSome]
    simp only [compute]
    rw [find_edgeClasses baseEdges candidateEdges]
    cases base.findEdge id <;> simp

theorem node_class (known : id ∈ base.nodeIds ∨ id ∈ candidate.nodeIds) :
    let diff := compute base baseContracts candidate candidateContracts
    ∃ change, (∀ other, id ∈ diff.nodesOf other ↔ change = other) ∧
      (id ∈ diff.reusedNodes ↔ change = .kept ∨ change = .updated) ∧
      (id ∈ candidate.nodeIds → change ≠ .removed) ∧ (id ∈ base.nodeIds → change ≠ .added) := by
  rw [← findNode_isSome, ← findNode_isSome] at known ⊢
  obtain ⟨entry, foundEntry, notRemoved, notAdded⟩ := class_found
    (find_nodeClasses baseDistinct candidateDistinct
      (edgeClasses base baseContracts candidate candidateContracts) id) known
    (· ≠ NodeChange.removed) (· ≠ .added) NodeEntry.change nofun (fun old foundBase inCandidate => by
      obtain ⟨new, foundNew⟩ := isSome_iff_exists.mp inCandidate
      rw [classifyNode, (lookup_some foundBase).2, foundNew]
      dsimp only
      split
      · nofun
      · split <;> nofun) fun old => by
      unfold classifyNode
      split
      · nofun
      split
      · nofun
      · split <;> nofun
  refine ⟨entry.change, ?_, ?_, notRemoved, notAdded⟩
  · exact fun other => mem_nodesOf foundEntry
  · simp only [GraphDiff.reusedNodes, compute]
    rw [mem_keys_filter (nodeClasses_ordered _)
      (fun entry => decide (entry.change = .kept ∨ entry.change = .updated)), foundEntry]
    simp

end Nodes

theorem edge_class (baseDistinct : base.edgeIds.Nodup) (candidateDistinct : candidate.edgeIds.Nodup)
    (known : id ∈ base.edgeIds ∨ id ∈ candidate.edgeIds) :
    let diff := compute base baseContracts candidate candidateContracts
    ∃ change, (∀ other, id ∈ diff.edgesOf other ↔ change = other) ∧
      (id ∈ diff.reusedEdges ↔ change = .kept) ∧
      (id ∈ candidate.edgeIds → change ≠ .removed) ∧ (id ∈ base.edgeIds → change ≠ .added) := by
  rw [← findEdge_isSome, ← findEdge_isSome] at known ⊢
  obtain ⟨entry, foundEntry, notRemoved, notAdded⟩ := class_found
    (@find_edgeClasses base baseContracts candidate candidateContracts baseDistinct
      candidateDistinct id) known
    (· ≠ EdgeChange.removed) (· ≠ .added) EdgeEntry.change nofun (fun old foundBase inCandidate => by
      obtain ⟨new, foundNew⟩ := isSome_iff_exists.mp inCandidate
      rw [classifyEdge, (lookup_some foundBase).2, foundNew]
      dsimp only
      split <;> nofun) fun old => by
      unfold classifyEdge
      split
      · nofun
      · split <;> nofun
  refine ⟨entry.change, ?_, ?_, notRemoved, notAdded⟩
  · exact fun other => mem_edgesOf foundEntry
  · exact mem_edgesOf foundEntry

/-- The edge listed last for an input port, the one that `Inputs` keeps. -/
def lastInput (spec : GraphSpec) (id port : String) : Option String :=
  ((spec.edgesTo id).filter fun edge => edge.toPort.port = port).getLast?.map EdgeSpec.id

theorem find_inputsOf (spec : GraphSpec) (port : String) :
    find port (inputsOf spec id) = lastInput spec id port := by
  unfold inputsOf lastInput assignAll
  induction spec.edgesTo id using List.reverseRecOn with
  | nil => rfl
  | append_singleton front edge ih =>
    rw [map_append, foldl_append, map_singleton, foldl_cons, foldl_nil, find_assign, ih,
      filter_append]
    by_cases here : edge.toPort.port = port
    · simp [here]
    · simp [here, Ne.symm here]

theorem lastInput_fed {spec : GraphSpec} {port edge : String}
    (last : lastInput spec id port = some edge) : ∃ input ∈ spec.edgesTo id, input.id = edge := by
  obtain ⟨input, found, same⟩ := map_eq_some_iff.mp last
  exact ⟨input, (mem_filter.mp (mem_of_getLast? found)).1, same⟩

/-- Each port has the same edge listed last in both graphs, and it is kept. -/
def LastKept (base candidate : GraphSpec) (diff : GraphDiff) (id : String) : Prop :=
  ∀ port, lastInput candidate id port = lastInput base id port ∧
    ∀ edge, lastInput base id port = some edge → edge ∈ diff.edgesOf .kept

/-- The input edges are the same in both graphs, and all are kept. -/
def InputsKept (base candidate : GraphSpec) (diff : GraphDiff) (id : String) : Prop :=
  (∀ edge ∈ candidate.edgesTo id, edge.id ∈ (base.edgesTo id).map EdgeSpec.id ∧
    edge.id ∈ diff.edgesOf .kept) ∧
  ∀ edge ∈ base.edgesTo id, edge.id ∈ (candidate.edgesTo id).map EdgeSpec.id

section Inputs

variable {diff : GraphDiff} (baseEdges : base.edgeIds.Nodup) (candidateEdges : candidate.edgeIds.Nodup)
  (computed : diff = compute base baseContracts candidate candidateContracts)
include baseEdges candidateEdges computed

theorem kept_or_recreated {old new : EdgeSpec} (inBase : old ∈ base.edgesTo id)
    (inCandidate : new ∈ candidate.edgesTo id) (same : old.id = new.id) :
    (new.id ∈ diff.edgesOf .kept → old.toPort = new.toPort) ∧
      ((find new.id diff.edges).map EdgeEntry.change = some .recreated ↔
        new.id ∉ diff.edgesOf .kept) := by
  have foundOld : base.findEdge new.id = some old :=
    (lookup_eq_some baseEdges).mpr ⟨(mem_filter.mp inBase).1, same⟩
  have foundNew : candidate.findEdge new.id = some new :=
    (lookup_eq_some candidateEdges).mpr ⟨(mem_filter.mp inCandidate).1, rfl⟩
  subst computed
  have kept : new.id ∈ (compute base baseContracts candidate candidateContracts).edgesOf .kept ↔
      edgeReasons base baseContracts candidate candidateContracts old new = [] := by
    refine (mem_reusedEdges baseEdges candidateEdges).trans ?_
    simp [foundOld, foundNew]
  refine ⟨fun member => (edgeReasons_nil.mp (kept.mp member)).2.1, ?_⟩
  rw [kept, compute, find_edgeClasses baseEdges candidateEdges, foundOld, elim_some,
    classifyEdge, same, foundNew]
  cases reasons : edgeReasons base baseContracts candidate candidateContracts old new with
  | nil | cons reason more => simp [reasons]

theorem inputReasons_nil :
    inputReasons base candidate diff.edges id = [] ↔ LastKept base candidate diff id := by
  have entries : ∀ {spec : GraphSpec} {port edge : String},
      (port, edge) ∈ inputsOf spec id ↔ lastInput spec id port = some edge := by
    intro spec port edge
    rw [← find_inputsOf]
    exact (find_eq_some (assignAll_ordered ordered_nil)).symm
  have steady : inputReasons base candidate diff.edges id = [] ↔
      (∀ port edge, lastInput candidate id port = some edge → lastInput base id port = some edge ∧
        (find edge diff.edges).map EdgeEntry.change ≠ some .recreated) ∧
      ∀ port edge, lastInput base id port = some edge → lastInput candidate id port ≠ none := by
    simp only [inputReasons, append_eq_nil_iff, flatMap_eq_nil_iff, Prod.forall, entries,
      find_inputsOf, reasonIf_nil]
    refine and_congr (forall₃_congr fun port edge _ => ?_) Iff.rfl
    cases lastInput base id port with
    | none => simp
    | some old =>
      by_cases same : old = edge
      · simp [same, reasonIf_nil]
      · simp [same]
  have recreated : ∀ {port edge : String}, lastInput candidate id port = some edge →
      lastInput base id port = some edge →
      ((find edge diff.edges).map EdgeEntry.change = some .recreated ↔
        edge ∉ diff.edgesOf .kept) := by
    intro port edge later earlier
    obtain ⟨new, inCandidate, rfl⟩ := lastInput_fed later
    obtain ⟨old, inBase, same⟩ := lastInput_fed earlier
    exact (kept_or_recreated baseEdges candidateEdges computed inBase inCandidate same).2
  rw [steady]
  constructor
  · rintro ⟨fed, still⟩ port
    have same : lastInput candidate id port = lastInput base id port := by
      cases later : lastInput candidate id port with
      | some edge => exact (fed port edge later).1.symm
      | none =>
        cases earlier : lastInput base id port with
        | none => rfl
        | some edge => exact absurd later (still port edge earlier)
    refine ⟨same, fun edge earlier => ?_⟩
    have later := same.trans earlier
    exact not_not.mp (mt (recreated later earlier).mpr (fed port edge later).2)
  · intro same
    refine ⟨fun port edge later => ?_, fun port edge earlier => ?_⟩
    · have earlier := (same port).1.symm.trans later
      exact ⟨earlier, fun new => (recreated later earlier).mp new ((same port).2 edge earlier)⟩
    · rw [(same port).1, earlier]
      nofun

end Inputs

end Results

end GraphEngine.StructuralDiff
