import GraphEngine.CapabilityParsing
import GraphEngine.JsonShapes

/-!
Graph documents, after `GraphSpecParser` in graph_spec_json.cpp. A document is read through the
`ObjectReader` of json_reader.h and its nodes and edges are added to an empty graph in the order
they are listed; a graph is written with its default values left out.
-/

namespace GraphEngine.GraphSpecJson

open Values GraphSpecs OrderedMaps JsonText CapabilityParsing ObjectReader

section Readers

variable {Value : Type}

def demand (found : Option Value) (message : String) : Result Value :=
  match found with
  | some value => .ok value
  | none => .error (.graphInvalid message)

def ensure (holds : Prop) [Decidable holds] (message : String) : Result Unit :=
  if holds then .ok () else .error (.graphInvalid message)

/-- A reader of graph documents; its `ok` check. -/
def openObject (value : JsonValue) (path : String) (allowUnknown : Bool) : Result ObjectReader := do
  let fields ← demand (object? value) (path ++ " must be an object")
  .ok ⟨fields, path, allowUnknown, .graphInvalid⟩

def optionalObject (reader : ObjectReader) (key : String) : Result (Option JsonValue) :=
  reader.optional key "object" fun value => if value.isObject then some value else none

/-- `StringArray`, where an absent array that is not required leaves its target empty. -/
def stringArray (reader : ObjectReader) (key : String) (required : Bool) :
    Result (List String) := do
  match ← reader.optionalStringArray key with
  | some items => .ok items
  | none => if required then .error (reader.missing key) else .ok []

/-- An optional text field; the empty text counts as absent. -/
def optionalEnum (reader : ObjectReader) (key : String) (parse : String → Option Value)
    (message : String → String) : Result (Option Value) := do
  let text := (← reader.optionalString key).getD ""
  if text = "" then .ok none
  else do
    let value ← demand (parse text) (message text)
    .ok (some value)

/-- `Get` on a field with a default. -/
def fieldOr (reader : ObjectReader) (key : String) (default : Value)
    (parse : JsonValue → Result Value) : Result Value :=
  match reader.get key with
  | none => .ok default
  | some value => parse value

def objectFields (reader : ObjectReader) (key : String) (value : JsonValue) : Result JsonObject :=
  match object? value with
  | none => .error (reader.wrongType key "object")
  | some fields => .ok fields

def assignText (path : String) (entries : List (String × String)) (field : String × JsonValue) :
    Result (List (String × String)) := do
  let text ← demand (string? field.2) (path ++ "." ++ field.1 ++ " must be a string")
  .ok (assign field.1 text entries)

def parseStringMap (path : String) (fields : JsonObject) : Result (List (String × String)) :=
  fields.foldlM (assignText path) []

def checkSchemaId (fields : JsonObject) (schemaId : String) : Result Unit :=
  match find "$id" fields with
  | none => .ok ()
  | some id => do
      let text ← demand (string? id) "'$id' must be a string"
      ensure (text = schemaId) ("'$id' '" ++ text ++ "' does not match schema_version")

def checkDocumentHeader (doc : JsonValue) (kind : String) (schemaVersion : Int)
    (schemaId : String) : Result Bool := do
  let fields ← demand (object? doc) "document must be a JSON object"
  let got ← demand ((find "kind" fields).bind string?) "missing document 'kind'"
  ensure (got = kind) ("expected kind '" ++ kind ++ "', got '" ++ got ++ "'")
  let received ← demand ((find "schema_version" fields).bind integer?)
    "missing or non-integer 'schema_version'"
  if received ≠ schemaVersion then
    .error (.graphInvalid ("unsupported schema_version " ++ toString received ++ " (expected " ++
      toString schemaVersion ++ ")") (some (.object
        [("expected", .integer schemaVersion), ("received", .integer received)])))
  else do
    checkSchemaId fields schemaId
    match find "allow_unknown_fields" fields with
    | none => .ok false
    | some flag => demand (bool? flag) "'allow_unknown_fields' must be boolean"

/-- The keys of `MarkHeaderSeen`. -/
def headerKeys : List String := ["kind", "schema_version", "$id", "allow_unknown_fields"]

end Readers

/-- The text in front of the first mark and the text behind it, when neither is empty. -/
def splitFirst (mark : Char) (text : String) : Option (String × String) :=
  let front := text.toList.takeWhile (· ≠ mark)
  match text.toList.dropWhile (· ≠ mark) with
  | [] => none
  | _ :: behind =>
    if front = [] ∨ behind = [] then none
    else some (String.ofList front, String.ofList behind)

/-- `OperatorKey::Parse`. -/
def parseKey (text : String) : Option OperatorKey :=
  (splitFirst '@' text).map fun parts => ⟨parts.1, parts.2⟩

/-- `PortRef::Parse`. -/
def parsePortRef (text : String) : Option PortRef :=
  match splitFirst '.' text with
  | none => none
  | some (nodeId, port) => if isValidStableId nodeId then some ⟨nodeId, port⟩ else none

def executorKindName : ExecutorKind → String
  | .auto => "auto"
  | .cpu => "cpu"
  | .gpu => "gpu"

def parseExecutorKind (text : String) : Option ExecutorKind :=
  if text = "auto" then some .auto
  else if text = "cpu" then some .cpu
  else if text = "gpu" then some .gpu
  else none

def dropPolicyName : DropPolicy → String
  | .block => "block"
  | .dropOldest => "drop_oldest"
  | .dropNewest => "drop_newest"

def parseDropPolicy (text : String) : Option DropPolicy :=
  if text = "block" then some .block
  else if text = "drop_oldest" then some .dropOldest
  else if text = "drop_newest" then some .dropNewest
  else none

def syncPolicyName : SyncPolicy → String
  | .aligned => "aligned"
  | .latest => "latest"
  | .any => "any"

/-- The conversions between `std::int64_t` and the narrower or unsigned fields. -/
def toInt32 (value : Int) : Int := value.bmod (2 ^ 32)

def toUInt32 (value : Int) : UInt32 := UInt32.ofNat (value % 2 ^ 32).toNat

def toUInt64 (value : Int) : UInt64 := UInt64.ofNat (value % 2 ^ 64).toNat

def fromUInt64 (value : UInt64) : Int := (value.toNat : Int).bmod (2 ^ 64)

def parseOperatorKey (text path : String) : Result OperatorKey :=
  demand (parseKey text)
    ("invalid operator '" ++ text ++ "' in " ++ path ++ " (expected type@version)")

def parseExecutor (value : JsonValue) (path : String) (allowUnknown : Bool) :
    Result ExecutorSpec := do
  let reader ← openObject value (path ++ ".executor") allowUnknown
  let text := (← reader.optionalString "kind").getD "auto"
  let kind ← demand (parseExecutorKind text)
    ("invalid executor.kind '" ++ text ++ "' in " ++ path)
  let device ← reader.optionalInteger "device_id"
  ensure (device.isSome → kind = .gpu)
    (path ++ ": device_id only allowed when executor.kind is gpu")
  reader.finish ["kind", "device_id"]
  .ok ⟨kind, device.map toInt32⟩

def parseLabels (reader : ObjectReader) : Result (List (String × String)) :=
  fieldOr reader "labels" [] fun labels => do
    let fields ← objectFields reader "labels" labels
    parseStringMap (reader.path ++ ".labels") fields

def parseNode (value : JsonValue) (path : String) (allowUnknown : Bool) : Result NodeSpec := do
  let reader ← openObject value path allowUnknown
  let id ← reader.requireString "id"
  let text ← reader.requireString "operator"
  let op ← parseOperatorKey text path
  let executor ← fieldOr reader "executor" {} (parseExecutor · path allowUnknown)
  let parallelism ← reader.optionalInteger "parallelism"
  ensure (∀ count ∈ parallelism, 1 ≤ count) (path ++ ": parallelism must be >= 1")
  let options ← optionalObject reader "options"
  let labels ← parseLabels reader
  reader.finish ["id", "operator", "executor", "parallelism", "options", "labels"]
  .ok ⟨id, op, executor, parallelism.elim 1 toUInt32, options.getD (.object []), labels⟩

def parseEndpoint (reader : ObjectReader) (key : String) : Result PortRef := do
  let text ← reader.requireString key
  demand (parsePortRef text)
    ("invalid endpoint '" ++ text ++ "' in " ++ reader.path ++ " (expected <node_id>.<port>)")

def parseQueue (value : JsonValue) (path : String) (allowUnknown : Bool) : Result QueueSpec := do
  let reader ← openObject value (path ++ ".queue") allowUnknown
  let capacity ← reader.optionalInteger "capacity"
  ensure (∀ count ∈ capacity, 1 ≤ count) (path ++ ": queue.capacity must be >= 1")
  let policy ← optionalEnum reader "policy" parseDropPolicy fun text =>
    "invalid queue.policy '" ++ text ++ "' in " ++ path
  let maxBytes ← reader.optionalInteger "max_packet_bytes"
  ensure (∀ bytes ∈ maxBytes, 0 < bytes) (path ++ ": queue.max_packet_bytes must be > 0")
  reader.finish ["capacity", "policy", "max_packet_bytes"]
  .ok ⟨capacity.elim 64 toUInt32, policy.getD .block, maxBytes.map toUInt64⟩

def parseEdge (value : JsonValue) (path : String) (allowUnknown : Bool) : Result EdgeSpec := do
  let reader ← openObject value path allowUnknown
  let id ← reader.optionalString "id"
  let fromPort ← parseEndpoint reader "from"
  let toPort ← parseEndpoint reader "to"
  let queue ← fieldOr reader "queue" {} (parseQueue · path allowUnknown)
  let sync ← optionalEnum reader "sync" parseSyncPolicy fun text =>
    "invalid sync '" ++ text ++ "' in " ++ path
  let feedback ← reader.optionalBool "feedback"
  reader.finish ["id", "from", "to", "queue", "sync", "feedback"]
  .ok ⟨id.getD "", fromPort, toPort, queue, sync, feedback.getD false⟩

/-- `extra` keeps the unrecognised members for export. -/
structure GraphOptions where
  defaultDeviceId : Option Int := none
  allowDefaultOperatorVersion : Bool := false
  extra : JsonObject := []
  deriving DecidableEq

/-- A graph with the parts that only its document uses. -/
structure GraphFile extends GraphSpec where
  description : String := ""
  options : GraphOptions := {}
  allowUnknownFields : Bool := false
  deriving DecidableEq

def parseOption (options : GraphOptions) (field : String × JsonValue) : Result GraphOptions :=
  if field.1 = "default_device_id" then do
    let id ← demand (integer? field.2) "options.default_device_id must be integer"
    .ok { options with defaultDeviceId := some (toInt32 id) }
  else if field.1 = "allow_default_operator_version" then do
    let flag ← demand (bool? field.2) "options.allow_default_operator_version must be boolean"
    .ok { options with allowDefaultOperatorVersion := flag }
  else .ok { options with extra := emplace field.1 field.2 options.extra }

def parseOptions (reader : ObjectReader) : Result GraphOptions :=
  fieldOr reader "options" {} fun options => do
    let fields ← objectFields reader "options" options
    fields.foldlM parseOption {}

def addNodes (allowUnknown : Bool) : Nat → List JsonValue → GraphSpec → Result GraphSpec
  | _, [], spec => .ok spec
  | index, value :: rest, spec => do
      let node ← parseNode value ("nodes[" ++ toString index ++ "]") allowUnknown
      let added ← spec.addNode node
      addNodes allowUnknown (index + 1) rest added

def addEdges (allowUnknown : Bool) : Nat → List JsonValue → GraphSpec → Result GraphSpec
  | _, [], spec => .ok spec
  | index, value :: rest, spec => do
      let edge ← parseEdge value ("edges[" ++ toString index ++ "]") allowUnknown
      let added ← spec.addEdge edge
      addEdges allowUnknown (index + 1) rest added

def parseGraphDocument (doc : JsonValue) : Result GraphFile := do
  let allowUnknown ← checkDocumentHeader doc "GraphSpec" 1 "ge.dev/schema/graph/v1"
  let reader ← openObject doc "GraphSpec" allowUnknown
  let name ← reader.requireString "name"
  let description ← reader.optionalString "description"
  let options ← parseOptions reader
  let nodes ← reader.require "nodes" "array" array?
  ensure (nodes ≠ []) "GraphSpec.nodes must contain at least one node"
  let withNodes ← addNodes allowUnknown 0 nodes { name := name }
  let edges ← reader.require "edges" "array" array?
  let spec ← addEdges allowUnknown 0 edges withNodes
  reader.finish (headerKeys ++ ["name", "description", "options", "nodes", "edges"])
  .ok ⟨spec, description.getD "", options, allowUnknown⟩

def parseGraph (floats : FloatFormat) (text : String) : Result GraphFile :=
  match parseJson floats text with
  | .error message => .error (.graphInvalid ("invalid JSON: " ++ message))
  | .ok doc => parseGraphDocument doc

/-- An object filled by a row of `emplace` calls, some of them skipped. -/
def build (fields : List (String × Option JsonValue)) : JsonValue := .object (emplaceAll fields [])

def stringMapJson (entries : List (String × String)) : JsonValue :=
  build (entries.map fun entry => (entry.1, some (.string entry.2)))

def executorFields (executor : ExecutorSpec) : List (String × Option JsonValue) :=
  [("kind", some (.string (executorKindName executor.kind))),
    ("device_id", executor.deviceId.map .integer)]

def nodeFields (node : NodeSpec) : List (String × Option JsonValue) :=
  [("id", some (.string node.id)),
    ("operator", some (.string node.op.render)),
    ("executor", if node.executor.kind ≠ .auto ∨ node.executor.deviceId.isSome then
      some (build (executorFields node.executor)) else none),
    ("parallelism", if node.parallelism ≠ 1 then some (.integer node.parallelism.toNat) else none),
    ("options", if node.options.asObject ≠ [] then some node.options else none),
    ("labels", if node.labels ≠ [] then some (stringMapJson node.labels) else none)]

def nodeJson (node : NodeSpec) : JsonValue := build (nodeFields node)

def queueFields (queue : QueueSpec) : List (String × Option JsonValue) :=
  [("capacity", some (.integer queue.capacity.toNat)),
    ("policy", some (.string (dropPolicyName queue.policy))),
    ("max_packet_bytes", queue.maxPacketBytes.map fun bytes => .integer (fromUInt64 bytes))]

def edgeFields (edge : EdgeSpec) : List (String × Option JsonValue) :=
  [("id", if edge.id ≠ "" then some (.string edge.id) else none),
    ("from", some (.string edge.fromPort.render)),
    ("to", some (.string edge.toPort.render)),
    ("queue", if edge.queue ≠ {} then some (build (queueFields edge.queue)) else none),
    ("sync", edge.sync.map fun policy => .string (syncPolicyName policy)),
    ("feedback", if edge.feedback then some (.bool true) else none)]

def edgeJson (edge : EdgeSpec) : JsonValue := build (edgeFields edge)

def optionsObject (options : GraphOptions) : JsonObject :=
  emplaceAll [("default_device_id", options.defaultDeviceId.map .integer),
    ("allow_default_operator_version",
      if options.allowDefaultOperatorVersion then some (.bool true) else none)] options.extra

def graphFields (file : GraphFile) : List (String × Option JsonValue) :=
  [("kind", some (.string "GraphSpec")),
    ("schema_version", some (.integer 1)),
    ("$id", some (.string "ge.dev/schema/graph/v1")),
    ("allow_unknown_fields", if file.allowUnknownFields then some (.bool true) else none),
    ("name", some (.string file.name)),
    ("description", if file.description ≠ "" then some (.string file.description) else none),
    ("options", if optionsObject file.options ≠ [] then
      some (.object (optionsObject file.options)) else none),
    ("nodes", some (.array (file.nodes.map nodeJson))),
    ("edges", some (.array (file.edges.map edgeJson)))]

def graphJson (file : GraphFile) : JsonValue := build (graphFields file)

def serializeGraph (floats : FloatFormat) (file : GraphFile) : String :=
  serialize floats (graphJson file)

end GraphEngine.GraphSpecJson
