import GraphEngine.GraphSpecRoundTrip

/-!
The transcoding graphs of `RenditionTemplate` in rendition.cpp: a shared upstream part and, for
every rendition, a scaler, an encoder and a muxer with ids of the form `r.<id>.<part>`. Edges
between them end at ids with dots, which the document format cannot express.
-/

namespace GraphEngine.RenditionTemplates

open Values GraphSpecs OrderedMaps JsonText Fallible
open GraphSpecJson GraphSpecCodec GraphSpecRoundTrip

structure WatermarkSpec where
  x : Int32 := 0
  y : Int32 := 0
  w : Int32 := 0
  h : Int32 := 0
  color : String := "white"

structure RenditionSpec where
  id : String
  width : Int32 := 1280
  height : Int32 := 720
  bitrateKbps : Int64 := 2000
  codec : String := "h264"
  gop : Int32 := 60
  fps : Int32 := 0
  watermark : Option WatermarkSpec := none
  outputPath : String
  container : String := "flv"
  preset : String := "veryfast"
  audio : Bool := true
  queueCapacity : UInt32 := 64

structure BaseOptions where
  inputPath : String
  realtime : Bool := false
  loop : Bool := false
  audio : Bool := true
  audioBitrateKbps : Int64 := 128
  videoSourcePort : String := "vdec.out"
  audioSourcePort : String := "aenc.out"
  queueCapacity : UInt32 := 64

structure RenditionNodeIds where
  scale : String
  venc : String
  mux : String
  videoEntryEdge : String
  audioEntryEdge : String
  scaleVencEdge : String
  vencMuxEdge : String

def ids (renditionId : String) : RenditionNodeIds :=
  let base := "r." ++ renditionId
  { scale := base ++ ".scale"
    venc := base ++ ".venc"
    mux := base ++ ".mux"
    videoEntryEdge := base ++ ".e.video"
    audioEntryEdge := base ++ ".e.audio"
    scaleVencEdge := base ++ ".e.scale-venc"
    vencMuxEdge := base ++ ".e.venc-mux" }

def port (text : String) : PortRef := (parsePortRef text).getD ⟨"", ""⟩

def edge (id : String) (fromPort toPort : PortRef) (capacity : UInt32) : EdgeSpec :=
  { id := id, fromPort := fromPort, toPort := toPort,
    queue := { capacity := capacity, policy := .block } }

/-- The operators are all of version 1.0.0. -/
def key (typeName : String) : OperatorKey := ⟨typeName, "1.0.0"⟩

def WatermarkSpec.toJson (watermark : WatermarkSpec) : JsonValue :=
  build [("enabled", some (.bool true)),
    ("x", some (.integer watermark.x.toInt)),
    ("y", some (.integer watermark.y.toInt)),
    ("w", some (.integer watermark.w.toInt)),
    ("h", some (.integer watermark.h.toInt)),
    ("color", some (.string watermark.color))]

def scaleNode (spec : RenditionSpec) : NodeSpec :=
  { id := (ids spec.id).scale
    op := key "VideoScale"
    options := build [("width", some (.integer spec.width.toInt)),
      ("height", some (.integer spec.height.toInt)),
      ("watermark", spec.watermark.map WatermarkSpec.toJson)] }

def encodeNode (spec : RenditionSpec) : NodeSpec :=
  { id := (ids spec.id).venc
    op := key "VideoEncode"
    options := build [("codec", some (.string spec.codec)),
      ("bitrate_kbps", some (.integer spec.bitrateKbps.toInt)),
      ("gop", some (.integer spec.gop.toInt)),
      ("preset", some (.string spec.preset)),
      ("fps", if 0 < spec.fps then some (.integer spec.fps.toInt) else none)] }

def muxNode (spec : RenditionSpec) : NodeSpec :=
  { id := (ids spec.id).mux
    op := key "MediaMux"
    options := build [("output_path", some (.string spec.outputPath)),
      ("container", some (.string spec.container)),
      ("movflags", if spec.container = "mp4" then some (.string "+faststart") else none)] }

def demuxNode (options : BaseOptions) : NodeSpec :=
  { id := "demux"
    op := key "MediaDemux"
    options := build [("input_path", some (.string options.inputPath)),
      ("realtime", some (.bool options.realtime)),
      ("loop", some (.bool options.loop))] }

def audioEncodeNode (options : BaseOptions) : NodeSpec :=
  { id := "aenc"
    op := key "AudioEncode"
    options := build [("bitrate_kbps", some (.integer options.audioBitrateKbps.toInt))] }

def baseAdditions (options : BaseOptions) : List Addition :=
  [.node (demuxNode options),
    .node { id := "vdec", op := key "VideoDecode" },
    .edge (edge "e.demux-vdec" (port "demux.video") (port "vdec.in") options.queueCapacity)] ++
  if options.audio then
    [.node { id := "adec", op := key "AudioDecode" },
      .node (audioEncodeNode options),
      .edge (edge "e.demux-adec" (port "demux.audio") (port "adec.in") options.queueCapacity),
      .edge (edge "e.adec-aenc" (port "adec.out") (port "aenc.in") options.queueCapacity)]
  else []

def baseGraph (options : BaseOptions) (graphId : String) : Result GraphSpec :=
  if options.inputPath = "" then .error (.invalidArgument "input_path is required")
  else (baseAdditions options).foldlM Addition.perform { name := graphId }

def validateSpec (spec : RenditionSpec) : Result Unit :=
  if !isValidStableId spec.id || spec.id.toList.length > 64 then
    .error (.invalidArgument ("rendition id '" ++ spec.id ++ "' is not a valid stable id"))
  else if spec.width ≤ 0 ∨ spec.height ≤ 0 ∨ spec.width % 2 ≠ 0 ∨ spec.height % 2 ≠ 0 then
    .error (.invalidArgument
      ("rendition '" ++ spec.id ++ "': width/height must be positive and even"))
  else if spec.bitrateKbps ≤ 0 then
    .error (.invalidArgument ("rendition '" ++ spec.id ++ "': bitrate_kbps must be > 0"))
  else if spec.gop ≤ 0 then
    .error (.invalidArgument ("rendition '" ++ spec.id ++ "': gop must be > 0"))
  else if spec.outputPath = "" then
    .error (.invalidArgument ("rendition '" ++ spec.id ++ "': output_path is required"))
  else if spec.container ≠ "flv" ∧ spec.container ≠ "mp4" ∧ spec.container ≠ "matroska" then
    .error (.invalidArgument ("rendition '" ++ spec.id ++ "': container must be flv|mp4|matroska"))
  else .ok ()

def renditionAdditions (options : BaseOptions) (spec : RenditionSpec) : List Addition :=
  let names := ids spec.id
  [.node (scaleNode spec),
    .node (encodeNode spec),
    .node (muxNode spec),
    .edge (edge names.videoEntryEdge (port options.videoSourcePort) ⟨names.scale, "in"⟩
      spec.queueCapacity),
    .edge (edge names.scaleVencEdge ⟨names.scale, "out"⟩ ⟨names.venc, "in"⟩ spec.queueCapacity),
    .edge (edge names.vencMuxEdge ⟨names.venc, "out"⟩ ⟨names.mux, "video"⟩ spec.queueCapacity)] ++
  if spec.audio && options.audio then
    [.edge (edge names.audioEntryEdge (port options.audioSourcePort) ⟨names.mux, "audio"⟩
      spec.queueCapacity)]
  else []

def addRendition (options : BaseOptions) (graph : GraphSpec) (spec : RenditionSpec) :
    Result GraphSpec := do
  validateSpec spec
  (renditionAdditions options spec).foldlM Addition.perform graph

/-- `RenditionTemplate::Graph`. -/
def renditionGraph (options : BaseOptions) (renditions : List RenditionSpec) (graphId : String) :
    Result GraphSpec := do
  let graph ← baseGraph options graphId
  renditions.foldlM (addRendition options) graph

variable {rendition : RenditionSpec}

section Properties

variable {options : BaseOptions} {renditions : List RenditionSpec} {graphId : String}
  {spec : GraphSpec}

theorem addRenditions_additions {before : GraphSpec}
    (done : renditions.foldlM (addRendition options) before = .ok spec) :
    (renditions.flatMap (renditionAdditions options)).foldlM Addition.perform before = .ok spec := by
  induction renditions generalizing before with
  | nil => exact done
  | cons rendition rest ih =>
    obtain ⟨middle, first, later⟩ := foldlM_cons_ok.mp done
    obtain ⟨_, _, added⟩ := bind_ok.mp first
    exact foldlM_append_ok.mpr ⟨middle, added, ih later⟩

theorem renditionGraph_additions (made : renditionGraph options renditions graphId = .ok spec) :
    (baseAdditions options ++ renditions.flatMap (renditionAdditions options)).foldlM
      Addition.perform { name := graphId } = .ok spec := by
  obtain ⟨graph, base, later⟩ := bind_ok.mp made
  obtain ⟨_, added⟩ := guard_ok.mp base
  exact foldlM_append_ok.mpr ⟨graph, added, addRenditions_additions later⟩

theorem plain_int32 (value : Int32) : Plain (.integer value.toInt) := by
  have low := value.le_toInt
  have high := value.toInt_lt
  exact ⟨by omega, by omega⟩

theorem plain_int64 (value : Int64) : Plain (.integer value.toInt) :=
  ⟨value.le_toInt, value.toInt_lt⟩

/-- What the writer asks of a node, for the nodes of the template. -/
structure Mild (node : NodeSpec) : Prop where
  op : parseKey node.op.render = some node.op
  object : node.options.isObject = true
  plain : Plain node.options
  labels : node.labels = []
  device : node.executor.deviceId = none

theorem mild_built {id typeName : String} {fields : List (String × Option JsonValue)}
    (plain : Each Plain fields) (named : parseKey (key typeName).render = some (key typeName)) :
    Mild { id, op := key typeName, options := build fields } :=
  ⟨named, rfl, plain_build plain, rfl, rfl⟩

theorem plain_watermark (watermark : WatermarkSpec) : Plain watermark.toJson := by
  refine plain_build (each_some trivial (each_some (plain_int32 _) (each_some (plain_int32 _) ?_)))
  exact each_some (plain_int32 _) (each_some (plain_int32 _) (each_some trivial each_nil))

theorem scaleNode_mild (rendition : RenditionSpec) : Mild (scaleNode rendition) := by
  refine mild_built ?_ (by decide)
  refine each_some (plain_int32 _) (each_some (plain_int32 _) ?_)
  exact each_map (fun watermark _ => plain_watermark watermark) each_nil

theorem encodeNode_mild (rendition : RenditionSpec) : Mild (encodeNode rendition) := by
  refine mild_built ?_ (by decide)
  refine each_some trivial (each_some (plain_int64 _) (each_some (plain_int32 _) ?_))
  exact each_some trivial (each_given (fun _ => plain_int32 _) each_nil)

theorem muxNode_mild (rendition : RenditionSpec) : Mild (muxNode rendition) := by
  refine mild_built ?_ (by decide)
  exact each_some trivial (each_some trivial (each_given (fun _ => trivial) each_nil))

theorem demuxNode_mild (options : BaseOptions) : Mild (demuxNode options) := by
  refine mild_built ?_ (by decide)
  exact each_some trivial (each_some trivial (each_some trivial each_nil))

theorem audioEncodeNode_mild (options : BaseOptions) : Mild (audioEncodeNode options) :=
  mild_built (each_some (plain_int64 _) each_nil) (by decide)

theorem base_mild {node : NodeSpec} (member : .node node ∈ baseAdditions options) : Mild node := by
  have inside : node = demuxNode options ∨ node = { id := "vdec", op := key "VideoDecode" } ∨
      node = { id := "adec", op := key "AudioDecode" } ∨ node = audioEncodeNode options := by
    unfold baseAdditions at member
    split_ifs at member
    · simpa using member
    rcases (by simpa using member : _ ∨ _) with same | same
    · exact .inl same
    · exact .inr (.inl same)
  rcases inside with rfl | rfl | rfl | rfl
  · exact demuxNode_mild options
  · exact mild_built each_nil (by decide)
  · exact mild_built each_nil (by decide)
  · exact audioEncodeNode_mild options

theorem rendition_mild {node : NodeSpec}
    (member : .node node ∈ renditionAdditions options rendition) : Mild node := by
  have inside : node = scaleNode rendition ∨ node = encodeNode rendition ∨
      node = muxNode rendition := by
    unfold renditionAdditions at member
    split_ifs at member <;> simpa using member
  rcases inside with rfl | rfl | rfl
  · exact scaleNode_mild rendition
  · exact encodeNode_mild rendition
  · exact muxNode_mild rendition

theorem addition_unbounded {given : EdgeSpec}
    (member : .edge given ∈ baseAdditions options ++ renditions.flatMap (renditionAdditions options)) :
    given.queue.maxPacketBytes = none := by
  rcases List.mem_append.mp member with base | later
  · unfold baseAdditions at base
    split_ifs at base
    · rcases (by simpa using base : _ ∨ _ ∨ _) with rfl | rfl | rfl <;> rfl
    · obtain rfl := by simpa using base
      rfl
  · obtain ⟨rendition, _, inside⟩ := List.mem_flatMap.mp later
    unfold renditionAdditions at inside
    split_ifs at inside
    · rcases (by simpa using inside : _ ∨ _ ∨ _ ∨ _) with rfl | rfl | rfl | rfl <;> rfl
    · rcases (by simpa using inside : _ ∨ _ ∨ _) with rfl | rfl | rfl <;> rfl

theorem renditionGraph_writable (made : renditionGraph options renditions graphId = .ok spec) :
    Built spec ∧ Writable { toGraphSpec := spec } := by
  have done := renditionGraph_additions made
  obtain ⟨nodes, edges⟩ := mem_additions done
  have mild : ∀ node ∈ spec.nodes, Mild node := by
    intro node member
    rcases (nodes node).mp member with none | added
    · cases none
    · rcases List.mem_append.mp added with base | later
      · exact base_mild base
      · obtain ⟨rendition, _, inside⟩ := List.mem_flatMap.mp later
        exact rendition_mild inside
  have unbounded : ∀ edge ∈ spec.edges, edge.queue.maxPacketBytes = none := by
    intro edge member
    rcases (edges edge).mp member with none | ⟨given, added, rfl⟩
    · cases none
    · have free := addition_unbounded added
      unfold GraphSpec.withId
      split_ifs <;> exact free
  refine ⟨built_of_additions done, ?_⟩
  constructor
  · exact fun node member => (mild node member).op
  · exact fun node member => (mild node member).object
  · exact fun node member => (mild node member).plain
  · intro node member
    rw [(mild node member).labels]
    exact ordered_nil
  · intro node member id found
    rw [(mild node member).device] at found
    cases found
  · intro edge member bytes found
    rw [unbounded edge member] at found
    cases found
  · exact ⟨ordered_nil, trivial⟩
  · exact nofun

theorem renditionGraph_unreadable (listed : rendition ∈ renditions)
    (made : renditionGraph options renditions graphId = .ok spec) (floats : FloatFormat)
    (text : String) {file : GraphFile} (same : file.toGraphSpec = spec) :
    parseGraph floats text ≠ .ok file := by
  intro parsed
  have done := renditionGraph_additions made
  let names := ids rendition.id
  let given := edge names.scaleVencEdge ⟨names.scale, "out"⟩ ⟨names.venc, "in"⟩
    rendition.queueCapacity
  have added : Addition.edge given ∈
      baseAdditions options ++ renditions.flatMap (renditionAdditions options) := by
    refine List.mem_append_right _ (List.mem_flatMap.mpr ⟨rendition, listed, ?_⟩)
    simp [renditionAdditions, given, names]
  have present : GraphSpec.withId given ∈ file.edges := by
    rw [same]
    exact ((mem_additions done).2 _).mpr (.inr ⟨given, added, rfl⟩)
  have free := ((parseGraph_inv parsed).2.1 _ present).1
  refine free ?_
  have ends : (GraphSpec.withId given).fromPort.nodeId = names.scale := by
    unfold GraphSpec.withId
    split_ifs <;> rfl
  rw [ends]
  simp [names, ids]

end Properties

/-- One rendition "hd" of the file "in.mp4": the endpoint `r.hd.scale.out` is read as the port
`hd.scale.out` of a node `r`. -/
theorem rendition_graph_lost :
    ∃ spec, renditionGraph { inputPath := "in.mp4" } [{ id := "hd", outputPath := "hd.flv" }]
        "transcode" = .ok spec ∧ Built spec ∧ Writable { toGraphSpec := spec } ∧
      ∀ floats, parseGraph floats (serializeGraph floats { toGraphSpec := spec }) ≠
        .ok { toGraphSpec := spec } := by
  refine (exists_of_isOk).imp fun spec made => ⟨made, ?_⟩
  obtain ⟨built, writable⟩ := renditionGraph_writable made
  exact ⟨built, writable, fun floats =>
    renditionGraph_unreadable (List.mem_singleton_self _) made floats _ rfl⟩

end GraphEngine.RenditionTemplates
