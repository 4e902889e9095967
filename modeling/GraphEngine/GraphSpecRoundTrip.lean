import GraphEngine.GraphSpecCodec

/-!
Which graphs survive `SerializeGraph` and `ParseGraph`. A graph is built by adding nodes and
edges; its document lists them in the order they were added, so that reading it repeats the
additions. An endpoint is written as one text and split at its first dot.
-/

namespace GraphEngine.GraphSpecRoundTrip

open Values GraphSpecs OrderedMaps JsonText JsonShapes CapabilityParsing ObjectReader GraphSpec
open List hiding keys
open Fallible GraphSpecJson GraphSpecCodec

variable {spec after : GraphSpec} {additions : List Addition} {nodes : List NodeSpec}
  {edges : List EdgeSpec} {options : GraphOptions} {key : String} {value : JsonValue}

inductive Addition where
  | node (node : NodeSpec)
  | edge (edge : EdgeSpec)

def Addition.perform (spec : GraphSpec) : Addition → Result GraphSpec
  | .node added => spec.addNode added
  | .edge added => spec.addEdge added

/-- Made from an empty graph by successful additions. -/
def Built (spec : GraphSpec) : Prop :=
  ∃ additions : List Addition, additions.foldlM Addition.perform { name := spec.name } = .ok spec

structure Assembled (spec : GraphSpec) : Prop where
  wellFormed : spec.WellFormed
  nodes : ∀ node ∈ spec.nodes, nodeAdmissible node
  edges : ∀ edge ∈ spec.edges, edgeAdmissible edge ∧ withId edge = edge

theorem addition_assembled (addition : Addition) (assembled : Assembled spec)
    (added : addition.perform spec = .ok after) : Assembled after := by
  cases addition with
  | node node =>
    have wellFormed := addNode_wellFormed assembled.wellFormed added
    obtain ⟨admissible, _, rfl⟩ := addNode_ok.mp added
    refine ⟨wellFormed, ?_, assembled.edges⟩
    refine forall_mem_append.mpr ⟨assembled.nodes, forall_mem_singleton.mpr ?_⟩
    exact admissible
  | edge edge =>
    have wellFormed := addEdge_wellFormed assembled.wellFormed added
    obtain ⟨admissible, _, _, _, _, rfl⟩ := addEdge_ok.mp added
    refine ⟨wellFormed, assembled.nodes, ?_⟩
    refine forall_mem_append.mpr ⟨assembled.edges, forall_mem_singleton.mpr ?_⟩
    exact ⟨admissible, withId_withId edge⟩

theorem perform_name {addition : Addition} (added : addition.perform spec = .ok after) :
    after.name = spec.name := by
  cases addition with
  | node node =>
    obtain ⟨_, _, rfl⟩ := addNode_ok.mp added
    rfl
  | edge edge =>
    obtain ⟨_, _, _, _, _, rfl⟩ := addEdge_ok.mp added
    rfl

theorem built_of_additions {name : String}
    (done : additions.foldlM Addition.perform { name := name } = .ok spec) : Built spec := by
  have named : spec.name = name := foldlM_invariant (fun spec => spec.name = name)
    (fun _ _ _ _ added same => (perform_name added).trans same) done rfl
  exact ⟨additions, named ▸ done⟩

theorem mem_additions {before : GraphSpec}
    (done : additions.foldlM Addition.perform before = .ok after) :
    (∀ node, node ∈ after.nodes ↔ node ∈ before.nodes ∨ .node node ∈ additions) ∧
      ∀ edge, edge ∈ after.edges ↔
        edge ∈ before.edges ∨ ∃ given, .edge given ∈ additions ∧ edge = withId given := by
  induction additions generalizing before with
  | nil =>
    rw [← foldlM_nil_ok.mp done]
    simp
  | cons addition rest ih =>
    obtain ⟨middle, first, later⟩ := foldlM_cons_ok.mp done
    obtain ⟨nodes, edges⟩ := ih later
    cases addition with
    | node node =>
      obtain ⟨_, _, rfl⟩ := addNode_ok.mp first
      constructor
      · intro other
        simp [nodes other, or_assoc]
      · intro edge
        simp [edges edge]
    | edge given =>
      obtain ⟨_, _, _, _, _, rfl⟩ := addEdge_ok.mp first
      constructor
      · intro node
        simp [nodes node]
      · intro edge
        simp [edges edge, or_assoc]

theorem built_assembled (built : Built spec) : Assembled spec := by
  obtain ⟨additions, done⟩ := built
  refine foldlM_invariant Assembled ?_ done ⟨empty_wellFormed _, nofun, nofun⟩
  intro addition _ before after added assembled
  exact addition_assembled addition assembled added

theorem foldlM_addNode (admissible : ∀ node ∈ nodes, nodeAdmissible node)
    (distinct : (spec.nodeIds ++ nodes.map NodeSpec.id).Nodup) :
    nodes.foldlM addNode spec = .ok { spec with nodes := spec.nodes ++ nodes } := by
  induction nodes generalizing spec with
  | nil => simp [pure, Except.pure]
  | cons node rest ih =>
    have fresh : node.id ∉ spec.nodeIds := fun member =>
      (nodup_append.mp distinct).2.2 _ member _ (by simp) rfl
    refine foldlM_cons_ok.mpr ⟨{ spec with nodes := spec.nodes ++ [node] },
      addNode_ok.mpr ⟨admissible node (by simp), fresh, rfl⟩, ?_⟩
    refine (ih (fun other member => admissible other (by simp [member])) ?_).trans (by simp)
    simpa [nodeIds] using distinct

theorem foldlM_addEdge (admissible : ∀ edge ∈ edges, edgeAdmissible edge ∧ withId edge = edge)
    (known : ∀ edge ∈ edges,
      edge.fromPort.nodeId ∈ spec.nodeIds ∧ edge.toPort.nodeId ∈ spec.nodeIds)
    (distinct : (spec.edgeIds ++ edges.map EdgeSpec.id).Nodup)
    (links : ((spec.edges ++ edges).map fun edge => (edge.fromPort, edge.toPort)).Nodup) :
    edges.foldlM addEdge spec = .ok { spec with edges := spec.edges ++ edges } := by
  induction edges generalizing spec with
  | nil => simp [pure, Except.pure]
  | cons edge rest ih =>
    obtain ⟨allowed, named⟩ := admissible edge (by simp)
    obtain ⟨source, target⟩ := known edge (by simp)
    have fresh : edge.id ∉ spec.edgeIds := fun member =>
      (nodup_append.mp distinct).2.2 _ member _ (by simp) rfl
    have single : ¬spec.linked edge.fromPort edge.toPort := by
      rintro ⟨other, member, sameFrom, sameTo⟩
      rw [map_append] at links
      exact (nodup_append.mp links).2.2 _ (mem_map.mpr ⟨other, member, rfl⟩)
        (edge.fromPort, edge.toPort) (by simp) (by rw [sameFrom, sameTo])
    have added : spec.addEdge edge = .ok { spec with edges := spec.edges ++ [edge] } := by
      rw [addEdge_ok, named]
      exact ⟨allowed, fresh, source, target, single, rfl⟩
    refine foldlM_cons_ok.mpr ⟨_, added, ?_⟩
    have later := @ih { spec with edges := spec.edges ++ [edge] }
      (fun other member => admissible other (by simp [member]))
      (fun other member => known other (by simp [member]))
      (by simpa [edgeIds] using distinct) (by simpa using links)
    rw [later]
    simp

variable {field : String × JsonValue} {reader : ObjectReader}

section Options

def reserved (key : String) : Bool :=
  key = "default_device_id" || key = "allow_default_operator_version"

def optionsOf (start : GraphOptions) (fields : JsonObject) : GraphOptions where
  defaultDeviceId := (find "default_device_id" fields).elim start.defaultDeviceId fun value =>
    (integer? value).map toInt32
  allowDefaultOperatorVersion := (find "allow_default_operator_version" fields).elim
    start.allowDefaultOperatorVersion fun value => (bool? value).getD false
  extra := start.extra ++ fields.filter fun field => !reserved field.1

theorem optionsOf_cons {rest : JsonObject} (absent : find key rest = none) (start : GraphOptions) :
    optionsOf (optionsOf start [(key, value)]) rest = optionsOf start ((key, value) :: rest) := by
  unfold optionsOf
  congr 1
  · by_cases hit : "default_device_id" = key
    · simp [find, hit, absent]
    · simp [find, hit]
  · by_cases hit : "allow_default_operator_version" = key
    · simp [find, hit, absent]
    · simp [find, hit]
  · cases hit : reserved key <;> simp [hit]

variable {start : GraphOptions}

theorem parseOption_ok (behind : ∀ other ∈ keys start.extra, other < key)
    (device : key = "default_device_id" → (integer? value).isSome)
    (version : key = "allow_default_operator_version" → (bool? value).isSome) :
    parseOption start (key, value) = .ok (optionsOf start [(key, value)]) := by
  unfold parseOption
  split_ifs with isDevice isVersion
  · obtain ⟨id, read⟩ := Option.isSome_iff_exists.mp (device isDevice)
    subst isDevice
    simp [optionsOf, read, demand, find, reserved, bind, Except.bind]
  · obtain ⟨flag, read⟩ := Option.isSome_iff_exists.mp (version isVersion)
    subst isVersion
    simp [optionsOf, read, demand, find, reserved, bind, Except.bind]
  have other : reserved key = false := by simp_all [reserved]
  have deviceNot : ¬"default_device_id" = key := fun same => isDevice same.symm
  have versionNot : ¬"allow_default_operator_version" = key := fun same => isVersion same.symm
  simp [optionsOf, find, deviceNot, versionNot, other, (emplace_last behind).2]

theorem parseOptions_fold {fields : JsonObject} (ordered : Ordered fields)
    (behind : ∀ field ∈ fields, ∀ other ∈ keys start.extra, other < field.1)
    (device : ∀ value ∈ find "default_device_id" fields, (integer? value).isSome)
    (version : ∀ value ∈ find "allow_default_operator_version" fields, (bool? value).isSome) :
    fields.foldlM parseOption start = .ok (optionsOf start fields) := by
  induction fields generalizing start with
  | nil => simp [optionsOf, find, pure, Except.pure]
  | cons field rest ih =>
    obtain ⟨key, value⟩ := field
    obtain ⟨first, tail⟩ := pairwise_cons.mp ordered
    have absent : find key rest = none := find_none.mpr fun later => (first key later).ne rfl
    have kept : ∀ {wanted : String} {other : JsonValue}, find wanted rest = some other →
        find wanted ((key, value) :: rest) = some other := by
      intro wanted other found
      have apart : wanted ≠ key := by
        rintro rfl
        simp [absent] at found
      simp [find, apart, found]
    have here : find key ((key, value) :: rest) = some value := by simp [find]
    rw [foldlM_cons, parseOption_ok (behind (key, value) (by simp))
      (fun same => device value (same ▸ here)) (fun same => version value (same ▸ here))]
    refine (ih tail ?_ (fun other found => device other (kept found))
      (fun other found => version other (kept found))).trans ?_
    · intro later member other listed
      have above : key < later.1 := first later.1 (mem_map.mpr ⟨later, member, rfl⟩)
      simp only [optionsOf, keys, map_append, mem_append] at listed
      rcases listed with old | new
      · exact behind later (by simp [member]) other old
      · obtain ⟨entry, inside, rfl⟩ := mem_map.mp new
        rw [mem_singleton.mp (mem_filter.mp inside).1]
        exact above
    · rw [optionsOf_cons absent]

section Unreserved

variable (free : ∀ key ∈ keys options.extra, reserved key = false)
include free

theorem extra_absent (taken : reserved key = true) : find key options.extra = none := by
  refine find_none.mpr fun listed => ?_
  rw [free key listed] at taken
  cases taken

theorem find_device : find "default_device_id" (optionsObject options) =
    options.defaultDeviceId.map .integer := by
  simp [optionsObject, find_onto, @extra_absent _ "default_device_id" free (by decide)]

theorem find_version : find "allow_default_operator_version" (optionsObject options) =
    if options.allowDefaultOperatorVersion then some (.bool true) else none := by
  simp [optionsObject, find_onto, @extra_absent _ "allow_default_operator_version" free (by decide)]

theorem optionsOf_optionsObject (ordered : Ordered options.extra)
    (range : ∀ id ∈ options.defaultDeviceId, -2 ^ 31 ≤ id ∧ id < 2 ^ 31) :
    optionsOf {} (optionsObject options) = options := by
  have extra : (optionsObject options).filter (fun field => !reserved field.1) = options.extra := by
    refine ordered_ext (filter_ordered (emplaceAll_ordered ordered)) ordered ?_
    intro key
    rw [find_filter (fun key => !reserved key)]
    cases taken : reserved key with
    | true => simp [extra_absent free taken]
    | false =>
      have deviceNot : key ≠ "default_device_id" := by
        rintro rfl
        simp [reserved] at taken
      have versionNot : key ≠ "allow_default_operator_version" := by
        rintro rfl
        simp [reserved] at taken
      simp [optionsObject, find_onto, deviceNot, versionNot]
  have device := find_device free
  have version := find_version free
  obtain ⟨id, flag, members⟩ := options
  simp only [optionsOf, device, version, extra, GraphOptions.mk.injEq]
  constructor
  · cases id with
    | none => rfl
    | some id => simp [integer?, toInt32_of_range (range id rfl).1 (range id rfl).2]
  · cases flag <;> simp [bool?]

end Unreserved

theorem parseOption_free (parsed : parseOption start field = .ok options)
    (free : ∀ key ∈ keys start.extra, reserved key = false) :
    ∀ key ∈ keys options.extra, reserved key = false := by
  unfold parseOption at parsed
  split_ifs at parsed with isDevice isVersion
  · obtain ⟨id, _, same⟩ := bind_ok.mp parsed
    cases same
    exact free
  · obtain ⟨flag, _, same⟩ := bind_ok.mp parsed
    cases same
    exact free
  cases parsed
  intro key member
  obtain ⟨⟨_, value⟩, listed, rfl⟩ := mem_map.mp member
  rcases mem_emplace listed with same | old
  · cases same
    simp [reserved, isDevice, isVersion]
  · exact free _ (mem_map.mpr ⟨_, old, rfl⟩)

theorem parseOptions_free (parsed : parseOptions reader = .ok options) :
    ∀ key ∈ keys options.extra, reserved key = false := by
  unfold parseOptions fieldOr at parsed
  split at parsed
  · cases parsed
    simp [keys]
  obtain ⟨fields, _, parsed⟩ := bind_ok.mp parsed
  refine foldlM_invariant (fun options => ∀ key ∈ keys options.extra, reserved key = false)
    (fun _ _ _ _ => parseOption_free) parsed ?_
  simp [keys]

end Options

variable {values : List JsonValue} {index : Nat}

section Lists

variable {allowUnknown : Bool}

theorem addNodes_written {nodes : List NodeSpec} (writable : ∀ node ∈ nodes, NodeWritable node)
    (index : Nat) (spec : GraphSpec) :
    addNodes allowUnknown index (nodes.map nodeJson) spec = nodes.foldlM addNode spec := by
  induction nodes generalizing index spec with
  | nil => rfl
  | cons node rest ih =>
    rw [map_cons, addNodes, parseNode_nodeJson (writable node (by simp))]
    exact bind_congr fun added => ih (fun other member => writable other (by simp [member])) _ added

theorem addEdges_written {edges : List EdgeSpec} (writable : ∀ edge ∈ edges, EdgeWritable edge)
    (index : Nat) (spec : GraphSpec) :
    addEdges allowUnknown index (edges.map edgeJson) spec = edges.foldlM addEdge spec := by
  induction edges generalizing index spec with
  | nil => rfl
  | cons edge rest ih =>
    rw [map_cons, addEdges, parseEdge_edgeJson (writable edge (by simp))]
    exact bind_congr fun added => ih (fun other member => writable other (by simp [member])) _ added

theorem addNodes_nonempty (parsed : addNodes allowUnknown index values spec = .ok after)
    (some : values ≠ [] ∨ spec.nodes ≠ []) : after.edges = spec.edges ∧ after.nodes ≠ [] := by
  induction values generalizing index spec with
  | nil =>
    cases parsed
    simpa using some
  | cons value rest ih =>
    simp only [addNodes, bind_ok] at parsed
    obtain ⟨node, _, added, done, parsed⟩ := parsed
    obtain ⟨_, _, rfl⟩ := addNode_ok.mp done
    exact (ih parsed (.inr (by simp)) :)

def DotFree (edge : EdgeSpec) : Prop :=
  '.' ∉ edge.fromPort.nodeId.toList ∧ '.' ∉ edge.toPort.nodeId.toList

theorem parseEndpoint_dotFree {ref : PortRef} (parsed : parseEndpoint reader key = .ok ref) :
    '.' ∉ ref.nodeId.toList := by
  obtain ⟨text, _, parsed⟩ := bind_ok.mp parsed
  exact (parsePortRef_eq_some.mp (demand_ok.mp parsed)).2.1

theorem parseEdge_dotFree {path : String} {edge : EdgeSpec}
    (parsed : parseEdge value path allowUnknown = .ok edge) : DotFree edge := by
  simp only [parseEdge, bind_ok] at parsed
  obtain ⟨reader, _, id, _, fromPort, source, toPort, target, queue, _, sync, _, feedback, _, _, _,
    parsed⟩ := parsed
  cases parsed
  exact ⟨parseEndpoint_dotFree source, parseEndpoint_dotFree target⟩

theorem addEdges_dotFree (parsed : addEdges allowUnknown index values spec = .ok after)
    (before : ∀ edge ∈ spec.edges, DotFree edge) :
    (∀ edge ∈ after.edges, DotFree edge) ∧ after.nodes = spec.nodes := by
  induction values generalizing index spec with
  | nil =>
    cases parsed
    exact ⟨before, rfl⟩
  | cons value rest ih =>
    simp only [addEdges, bind_ok] at parsed
    obtain ⟨given, read, added, done, parsed⟩ := parsed
    obtain ⟨_, _, _, _, _, rfl⟩ := addEdge_ok.mp done
    refine (ih parsed ?_ :)
    refine forall_mem_append.mpr ⟨before, forall_mem_singleton.mpr ?_⟩
    have ends := parseEdge_dotFree read
    unfold withId
    split_ifs
    · exact ends
    · exact ends

end Lists

section Graphs

/-- Graphs whose members can be written at all: operator keys that parse, objects as options,
integers in the range of their fields and no doubles. -/
structure Writable (file : GraphFile) : Prop where
  op : ∀ node ∈ file.nodes, parseKey node.op.render = some node.op
  object : ∀ node ∈ file.nodes, node.options.isObject = true
  plain : ∀ node ∈ file.nodes, Plain node.options
  labels : ∀ node ∈ file.nodes, Ordered node.labels
  device : ∀ node ∈ file.nodes, ∀ id ∈ node.executor.deviceId, -2 ^ 31 ≤ id ∧ id < 2 ^ 31
  bytes : ∀ edge ∈ file.edges, ∀ bytes ∈ edge.queue.maxPacketBytes, bytes.toNat < 2 ^ 63
  extra : Plain (.object file.options.extra)
  defaultDevice : ∀ id ∈ file.options.defaultDeviceId, -2 ^ 31 ≤ id ∧ id < 2 ^ 31

/-- There is a node, no edge ends at a node with a dot in its id, the extra options leave the
reserved names alone, and no options nest beyond the parser's limit. -/
structure Readable (file : GraphFile) : Prop where
  nonempty : file.nodes ≠ []
  dotFree : ∀ edge ∈ file.edges, DotFree edge
  unreserved : ∀ key ∈ keys file.options.extra, reserved key = false
  shallow : ∀ node ∈ file.nodes, depth node.options + 3 ≤ maxDepth
  shallowExtra : depth (.object file.options.extra) + 1 ≤ maxDepth

variable {file : GraphFile}

theorem node_writable (assembled : Assembled file.toGraphSpec) (writable : Writable file)
    {node : NodeSpec} (member : node ∈ file.nodes) : NodeWritable node := by
  obtain ⟨_, _, slots, gpu⟩ := assembled.nodes node member
  refine ⟨writable.op node member, writable.object node member, writable.plain node member,
    writable.labels node member, slots, ?_⟩
  intro id found
  have bounds := writable.device node member id found
  refine ⟨?_, bounds.1, bounds.2⟩
  by_contra other
  exact gpu ⟨other, Option.isSome_iff_exists.mpr ⟨id, found⟩⟩

theorem edge_writable (assembled : Assembled file.toGraphSpec) (writable : Writable file)
    {edge : EdgeSpec} (member : edge ∈ file.edges) (dotFree : DotFree edge) : EdgeWritable edge := by
  obtain ⟨⟨_, ports, slots, bytes⟩, _⟩ := assembled.edges edge member
  obtain ⟨fromFilled, toFilled⟩ := not_or.mp ports
  have valid : ∀ id ∈ file.nodeIds, isValidStableId id = true ∧ id ≠ "" := by
    intro id listed
    obtain ⟨node, inside, rfl⟩ := mem_map.mp listed
    have stable := assembled.wellFormed.nodeIdsValid node inside
    refine ⟨stable, ?_⟩
    intro empty
    rw [empty] at stable
    exact absurd stable (by decide)
  obtain ⟨fromValid, fromNamed⟩ := valid _ (assembled.wellFormed.fromKnown edge member)
  obtain ⟨toValid, toNamed⟩ := valid _ (assembled.wellFormed.toKnown edge member)
  refine ⟨parsePortRef_eq_some.mpr ⟨rfl, dotFree.1, fromNamed, fromFilled, fromValid⟩,
    parsePortRef_eq_some.mpr ⟨rfl, dotFree.2, toNamed, toFilled, toValid⟩, slots, ?_⟩
  intro size found
  refine ⟨?_, writable.bytes edge member size found⟩
  rintro rfl
  exact bytes found

attribute [local simp] graphFields headerKeys

theorem checkDocumentHeader_graphJson :
    checkDocumentHeader (graphJson file) "GraphSpec" 1 "ge.dev/schema/graph/v1" =
      .ok file.allowUnknownFields :=
  checkDocumentHeader_build (by simp) (by simp) (by simp) (by simp)

theorem parseOptions_written (writable : Writable file)
    (free : ∀ key ∈ keys file.options.extra, reserved key = false) (path : String)
    (allowUnknown : Bool) :
    parseOptions (reading (graphFields file) path allowUnknown) = .ok file.options := by
  have back := optionsOf_optionsObject free writable.extra.1 writable.defaultDevice
  by_cases empty : optionsObject file.options = []
  · have plain : file.options = {} := by
      rw [← back, empty]
      rfl
    rw [plain]
    exact fieldOr_absent (by simp [empty])
  · refine (fieldOr_written (by simp [empty]; rfl)).trans ?_
    have ordered : Ordered (optionsObject file.options) := emplaceAll_ordered writable.extra.1
    refine (parseOptions_fold ordered (by simp [keys]) ?_ ?_).trans (congrArg _ back)
    · intro value found
      rw [find_device free] at found
      obtain ⟨id, _, rfl⟩ := Option.map_eq_some_iff.mp found
      rfl
    · intro value found
      rw [find_version free] at found
      obtain ⟨_, same⟩ := Option.ite_none_right_eq_some.mp found
      cases same
      rfl

theorem parseGraphDocument_graphJson (built : Built file.toGraphSpec) (writable : Writable file)
    (readable : Readable file) : parseGraphDocument (graphJson file) = .ok file := by
  have assembled := built_assembled built
  have nodes : file.nodes.foldlM addNode { name := file.name } =
      .ok { name := file.name, nodes := file.nodes } := by
    refine (foldlM_addNode assembled.nodes ?_).trans rfl
    simpa [nodeIds] using assembled.wellFormed.nodeIdsDistinct
  have edges : file.edges.foldlM addEdge { name := file.name, nodes := file.nodes } =
      .ok file.toGraphSpec := by
    refine (foldlM_addEdge assembled.edges ?_ ?_ ?_).trans rfl
    · intro edge member
      exact ⟨assembled.wellFormed.fromKnown edge member, assembled.wellFormed.toKnown edge member⟩
    · simpa [edgeIds] using assembled.wellFormed.edgeIdsDistinct
    · simpa using assembled.wellFormed.linksDistinct
  let description := if file.description ≠ "" then some file.description else none
  have described : description.getD "" = file.description := by
    by_cases empty : file.description = "" <;> simp [description, empty]
  refine then_ok _ checkDocumentHeader_graphJson ?_
  refine then_ok _ openObject_build ?_
  refine then_ok file.name (requireString_written (by simp)) ?_
  refine then_ok description (optionalString_written (by
    simp [description]; split_ifs <;> rfl)) ?_
  refine then_ok _ (parseOptions_written writable readable.unreserved _ _) ?_
  refine then_ok _ (require_array_written (by simp; rfl)) ?_
  refine then_ok () (ensure_of (by simpa using readable.nonempty) _) ?_
  refine then_ok _ ((addNodes_written (fun node member =>
    node_writable assembled writable member) 0 _).trans nodes) ?_
  refine then_ok _ (require_array_written (by simp; rfl)) ?_
  refine then_ok _ ((addEdges_written (fun edge member =>
    edge_writable assembled writable member (readable.dotFree edge member)) 0 _).trans edges) ?_
  refine then_ok () (finish_reading (by simp)) ?_
  rw [described]

theorem parseGraphDocument_inv {doc : JsonValue} (parsed : parseGraphDocument doc = .ok file) :
    file.nodes ≠ [] ∧ (∀ edge ∈ file.edges, DotFree edge) ∧
      ∀ key ∈ keys file.options.extra, reserved key = false := by
  simp only [parseGraphDocument, bind_ok] at parsed
  obtain ⟨allowUnknown, _, reader, _, name, _, description, _, options, optionsRead, nodes, _, _,
    filled, withNodes, nodesRead, edges, _, spec, edgesRead, _, _, ⟨⟩⟩ := parsed
  obtain ⟨bare, nonempty⟩ := addNodes_nonempty nodesRead (.inl (ensure_ok filled))
  obtain ⟨dotFree, kept⟩ := addEdges_dotFree edgesRead (by simp [bare])
  exact ⟨kept ▸ nonempty, dotFree, parseOptions_free optionsRead⟩

/-- Whatever text is read, the graph has a node and no dotted endpoint. -/
theorem parseGraph_inv {floats : FloatFormat} {text : String}
    (parsed : parseGraph floats text = .ok file) :
    file.nodes ≠ [] ∧ (∀ edge ∈ file.edges, DotFree edge) ∧
      ∀ key ∈ keys file.options.extra, reserved key = false := by
  unfold parseGraph at parsed
  split at parsed
  · cases parsed
  · exact parseGraphDocument_inv parsed

theorem each_graphField {holds : JsonValue → Prop} (text : ∀ text, holds (.string text))
    (version : holds (.integer 1)) (flag : holds (.bool true))
    (options : holds (.object (optionsObject file.options)))
    (nodes : holds (.array (file.nodes.map nodeJson)))
    (edges : holds (.array (file.edges.map edgeJson))) : Each holds (graphFields file) := by
  refine each_some (text _) (each_some version (each_some (text _) ?_))
  refine each_given (fun _ => flag) (each_some (text _) (each_given (fun _ => text _) ?_))
  exact each_given (fun _ => options) (each_some nodes (each_some edges each_nil))

theorem mem_optionsObject (member : field ∈ optionsObject options) :
    field ∈ options.extra ∨ (∃ id ∈ options.defaultDeviceId, field.2 = .integer id) ∨
      field.2 = .bool true := by
  obtain ⟨key, value⟩ := field
  rcases mem_emplaceAll member with written | old
  · simp only [mem_cons, Prod.mk.injEq, not_mem_nil, or_false] at written
    rcases written with ⟨_, same⟩ | ⟨_, same⟩
    · obtain ⟨id, found, rfl⟩ := Option.map_eq_some_iff.mp same.symm
      exact .inr (.inl ⟨id, found, rfl⟩)
    · obtain ⟨_, rfl⟩ := by simpa using same
      exact .inr (.inr rfl)
  · exact .inl old

theorem plain_optionsObject (writable : Writable file) :
    Plain (.object (optionsObject file.options)) := by
  refine ⟨emplaceAll_ordered writable.extra.1, plainFields_iff.mpr ?_⟩
  intro field member
  rcases mem_optionsObject member with old | ⟨id, found, same⟩ | same
  · exact plainFields_iff.mp writable.extra.2 field old
  · rw [same]
    have bounds := writable.defaultDevice id found
    exact ⟨by omega, by omega⟩
  · rw [same]
    trivial

theorem plain_graphJson (assembled : Assembled file.toGraphSpec) (writable : Writable file) :
    Plain (graphJson file) := by
  refine plain_build (each_graphField (fun _ => trivial) ⟨by decide, by decide⟩ trivial
    (plain_optionsObject writable) (plainItems_iff.mpr ?_) (plainItems_iff.mpr ?_))
  · refine forall_mem_map.mpr fun node inside => ?_
    exact plain_nodeJson (node_writable assembled writable inside)
  · exact forall_mem_map.mpr fun edge inside => plain_edgeJson (writable.bytes edge inside)

theorem depth_optionsObject_le {bound : Nat} (ordered : Ordered options.extra) :
    depth (.object (optionsObject options)) ≤ bound + 2 ↔
      depth (.object options.extra) ≤ bound + 2 := by
  rw [depth_object_le, depth_object_le]
  constructor
  · rintro shallow ⟨key, value⟩ member
    have found := (find_eq_some ordered).mpr member
    have kept : find key (optionsObject options) = some value := by
      simp [optionsObject, find_onto, found]
    exact shallow (key, value) (mem_of_find kept)
  · intro shallow field member
    rcases mem_optionsObject member with old | ⟨id, _, same⟩ | same
    · exact shallow field old
    · rw [same]
      exact Nat.le_add_left 1 bound
    · rw [same]
      exact Nat.le_add_left 1 bound

theorem depth_graphJson_le (writable : Writable file) : depth (graphJson file) ≤ maxDepth ↔
      (∀ node ∈ file.nodes, depth node.options + 3 ≤ maxDepth) ∧
        depth (.object file.options.extra) + 1 ≤ maxDepth := by
  have nodesDepth : depth (.array (file.nodes.map nodeJson)) ≤ 254 + 1 ↔
      ∀ node ∈ file.nodes, depth node.options ≤ 251 + 2 := by
    rw [depth_array_le, forall_mem_map]
    exact forall₂_congr fun node member =>
      @depth_nodeJson_le node 251 (writable.object node member)
  have extraDepth := @depth_optionsObject_le _ 253 writable.extra.1
  constructor
  · intro shallow
    have nodes := depth_entry_le shallow
      (show entry (graphFields file) "nodes" = some (.array (file.nodes.map nodeJson)) by
        simp)
    refine ⟨fun node member => Nat.add_le_add_right (nodesDepth.mp nodes node member) 3,
      Nat.add_le_add_right (extraDepth.mp ?_) 1⟩
    by_cases empty : optionsObject file.options = []
    · simp [empty, depth, depthFields]
    · exact depth_entry_le shallow
        (show entry (graphFields file) "options" = some (.object (optionsObject file.options)) by
          simp [empty])
  · rintro ⟨nodes, extra⟩
    have flat : 1 ≤ 255 := Nat.le_add_left 1 254
    refine @depth_build_le _ 255 (each_graphField (fun _ => flat) flat flat ?_ ?_ ?_)
    · exact extraDepth.mpr (Nat.le_of_add_le_add_right extra)
    · exact nodesDepth.mpr fun node member => Nat.le_of_add_le_add_right (nodes node member)
    · refine depth_array_le.mpr (forall_mem_map.mpr fun edge _ => ?_)
      exact depth_edgeJson_le.trans (by decide)

/-- A graph survives being written and read exactly when it is readable. -/
theorem parse_serialized_graph (floats : FloatFormat) (file : GraphFile)
    (built : Built file.toGraphSpec) (writable : Writable file) :
    parseGraph floats (serializeGraph floats file) = .ok file ↔ Readable file := by
  have plain := plain_graphJson (built_assembled built) writable
  constructor
  · intro parsed
    obtain ⟨nonempty, dotFree, unreserved⟩ := parseGraph_inv parsed
    unfold parseGraph at parsed
    split at parsed
    · cases parsed
    rename_i doc read
    obtain ⟨nodes, extra⟩ :=
      (depth_graphJson_le writable).mp ((parse_serialize_iff floats plain).mp read).1
    exact ⟨nonempty, dotFree, unreserved, nodes, extra⟩
  · intro readable
    have shallow := (depth_graphJson_le writable).mpr ⟨readable.shallow, readable.shallowExtra⟩
    unfold parseGraph serializeGraph
    rw [(parse_serialize_iff floats plain).mpr ⟨shallow, rfl⟩]
    exact parseGraphDocument_graphJson built writable readable

def twoNodes : GraphFile :=
  { name := "pair"
    nodes := [{ id := "src", op := ⟨"Source", "1"⟩, labels := [("zone", "a")] },
      { id := "sink", op := ⟨"Sink", "1"⟩, parallelism := 2,
        options := .object [("limits", .object [("high", .integer (-5))])] }]
    edges := [⟨"src.out->sink.in.0", ⟨"src", "out"⟩, ⟨"sink", "in.0"⟩, ⟨8, .block, none⟩, none, false⟩]
    description := "two nodes" }

theorem parse_serialized_twoNodes :
    parseGraph ⟨fun _ => [], fun _ => none⟩ (serializeGraph ⟨fun _ => [], fun _ => none⟩ twoNodes) =
      .ok twoNodes := by
  have built : Built twoNodes.toGraphSpec :=
    ⟨twoNodes.nodes.map Addition.node ++
      [.edge ⟨"", ⟨"src", "out"⟩, ⟨"sink", "in.0"⟩, ⟨8, .block, none⟩, none, false⟩], by decide +kernel⟩
  have writable : Writable twoNodes := by
    constructor
    · decide
    · decide
    · simp [twoNodes, Plain, PlainFields, Ordered, keys]
    · simp [twoNodes, Ordered, keys]
    · decide
    · simp [twoNodes]
    · exact ⟨ordered_nil, trivial⟩
    · decide
  refine (parse_serialized_graph _ twoNodes built writable).mpr ⟨?_, ?_, ?_, ?_, ?_⟩
  · decide
  · simp [twoNodes, DotFree]
  · decide
  · decide
  · decide

end Graphs

end GraphEngine.GraphSpecRoundTrip
