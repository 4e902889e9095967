import GraphEngine.Applier
import GraphEngine.GraphSpecCodec

/-!
Mutation patches as documents, after `ParseAction`, `ParsePatch` and `SerializePatch` in
graph_spec_json.cpp: nine kinds of actions, each with its own fields and defaults.
-/

namespace GraphEngine.PatchJson

open Values GraphSpecs Applier JsonText CapabilityParsing ObjectReader GraphSpecJson

def removePolicyName : RemovePolicy → String
  | .fast => "fast"
  | .drain => "drain"

def parseRemovePolicy (text : String) : Option RemovePolicy :=
  if text = "drain" then some .drain
  else if text = "fast" then some .fast
  else none

def removeModeName : RemoveMode → String
  | .bypass => "bypass"
  | .disconnect => "disconnect"

def parseRemoveMode (text : String) : Option RemoveMode :=
  if text = "disconnect" then some .disconnect
  else if text = "bypass" then some .bypass
  else none

section Parse

def parseRemovePolicyField (reader : ObjectReader) : Result (Option RemovePolicy) :=
  optionalEnum reader "remove_policy" parseRemovePolicy fun text =>
    "invalid remove_policy '" ++ text ++ "' in " ++ reader.path

def parseModeField (reader : ObjectReader) : Result RemoveMode := do
  let mode ← optionalEnum reader "mode" parseRemoveMode fun text =>
    "invalid mode '" ++ text ++ "' in " ++ reader.path
  .ok (mode.getD .disconnect)

/-- `Get` on a field that has to be there. -/
def requireField (reader : ObjectReader) (key : String) : Result JsonValue :=
  match reader.get key with
  | none => .error (reader.missing key)
  | some value => .ok value

def parseNodes (path : String) (allowUnknown : Bool) : Nat → List JsonValue → Result (List NodeSpec)
  | _, [] => .ok []
  | index, value :: rest => do
      let node ← parseNode value (path ++ ".nodes[" ++ toString index ++ "]") allowUnknown
      let nodes ← parseNodes path allowUnknown (index + 1) rest
      .ok (node :: nodes)

def parseChainPorts (value : JsonValue) (path : String) (allowUnknown : Bool) :
    Result ChainPorts := do
  let reader ← openObject value (path ++ ".ports") allowUnknown
  let input ← reader.optionalString "chain_input"
  let output ← reader.optionalString "chain_output"
  reader.finish ["chain_input", "chain_output"]
  .ok ⟨input.filter (· ≠ ""), output.filter (· ≠ "")⟩

def parseDirection (reader : ObjectReader) (direction : String) : Result (List (String × String)) :=
  fieldOr reader direction [] fun value => do
    let fields ← objectFields reader direction value
    parseStringMap (reader.path ++ "." ++ direction) fields

def parsePortMapping (value : JsonValue) (path : String) (allowUnknown : Bool) :
    Result (Option PortMapping) := do
  let reader ← openObject value (path ++ ".port_mapping") allowUnknown
  let inputs ← parseDirection reader "inputs"
  let outputs ← parseDirection reader "outputs"
  reader.finish ["inputs", "outputs"]
  .ok (some ⟨inputs, outputs⟩)

def parseReplacement (value : JsonValue) (path : String) (allowUnknown : Bool) :
    Result (OperatorKey × JsonValue) := do
  let reader ← openObject value (path ++ ".replacement") allowUnknown
  let text ← reader.requireString "operator"
  let op ← parseOperatorKey text reader.path
  let options ← optionalObject reader "options"
  reader.finish ["operator", "options"]
  .ok (op, options.getD (.object []))

variable (reader : ObjectReader)

def parseAddNode : Result MutationAction := do
  let value ← requireField reader "node"
  let node ← parseNode value (reader.path ++ ".node") reader.allowUnknown
  reader.finish ["type", "node"]
  .ok (.addNode node)

def parseRemoveNode : Result MutationAction := do
  let node ← reader.requireString "node"
  let mode ← parseModeField reader
  let policy ← parseRemovePolicyField reader
  reader.finish ["type", "node", "mode", "remove_policy"]
  .ok (.removeNode ⟨node, mode, policy⟩)

def parseInsertChain : Result MutationAction := do
  let edge ← reader.requireString "edge"
  let value ← requireField reader "nodes"
  let values ← demand ((array? value).filter (· ≠ []))
    (reader.path ++ ".nodes must be a non-empty array")
  let nodes ← parseNodes reader.path reader.allowUnknown 0 values
  let ports ← fieldOr reader "ports" {} (parseChainPorts · reader.path reader.allowUnknown)
  reader.finish ["type", "edge", "nodes", "ports"]
  .ok (.insertChain ⟨edge, nodes, ports⟩)

def parseRemoveChain : Result MutationAction := do
  let nodes ← stringArray reader "nodes" true
  ensure (nodes ≠ []) (reader.path ++ ".nodes must be non-empty")
  let mode ← parseModeField reader
  let policy ← parseRemovePolicyField reader
  reader.finish ["type", "nodes", "mode", "remove_policy"]
  .ok (.removeChain ⟨nodes, mode, policy⟩)

def parseReplaceNode : Result MutationAction := do
  let node ← reader.requireString "node"
  let value ← requireField reader "replacement"
  let (op, options) ← parseReplacement value reader.path reader.allowUnknown
  let mapping ← fieldOr reader "port_mapping" none
    (parsePortMapping · reader.path reader.allowUnknown)
  let policy ← parseRemovePolicyField reader
  reader.finish ["type", "node", "replacement", "port_mapping", "remove_policy"]
  .ok (.replaceNode ⟨node, op, options, mapping, policy⟩)

def parseRemoveBranch : Result MutationAction := do
  let given := (← reader.optionalString "entry_edge").getD ""
  let entryEdges ← stringArray reader "entry_edges" false
  ensure (given ≠ "" ∨ entryEdges ≠ [])
    (reader.path ++ " needs entry_edge or a non-empty entry_edges")
  let entryEdge := if given = "" then entryEdges.headD "" else given
  let nodes ← stringArray reader "nodes" true
  ensure (nodes ≠ []) (reader.path ++ ".nodes must be non-empty")
  let policy ← parseRemovePolicyField reader
  reader.finish ["type", "entry_edge", "entry_edges", "nodes", "remove_policy"]
  .ok (.removeBranch ⟨entryEdge, nodes, policy, entryEdges⟩)

def parseAddEdge : Result MutationAction := do
  let value ← requireField reader "edge"
  let edge ← parseEdge value (reader.path ++ ".edge") reader.allowUnknown
  reader.finish ["type", "edge"]
  .ok (.addEdge edge)

def parseRemoveEdge : Result MutationAction := do
  let edge ← reader.requireString "edge"
  reader.finish ["type", "edge"]
  .ok (.removeEdge edge)

def parseSetNodeOptions : Result MutationAction := do
  let node ← reader.requireString "node"
  let value ← requireField reader "parameters"
  let fields ← objectFields reader "parameters" value
  reader.finish ["type", "node", "parameters"]
  .ok (.setNodeOptions ⟨node, .object fields⟩)

def parseAction (value : JsonValue) (path : String) (allowUnknown : Bool) :
    Result MutationAction := do
  let reader ← openObject value path allowUnknown
  let type ← reader.requireString "type"
  if type = "add_node" then parseAddNode reader
  else if type = "remove_node" then parseRemoveNode reader
  else if type = "insert_chain" then parseInsertChain reader
  else if type = "remove_chain" then parseRemoveChain reader
  else if type = "replace_node" then parseReplaceNode reader
  else if type = "remove_branch" then parseRemoveBranch reader
  else if type = "add_edge" then parseAddEdge reader
  else if type = "remove_edge" then parseRemoveEdge reader
  else if type = "set_node_options" then parseSetNodeOptions reader
  else .error (.graphInvalid ("unknown action type '" ++ type ++ "' in " ++ path))

end Parse

structure PatchFile extends MutationPatch where
  allowUnknownFields : Bool := false
  deriving DecidableEq

def parseActions (allowUnknown : Bool) : Nat → List JsonValue → Result (List MutationAction)
  | _, [] => .ok []
  | index, value :: rest => do
      let action ← parseAction value ("actions[" ++ toString index ++ "]") allowUnknown
      let actions ← parseActions allowUnknown (index + 1) rest
      .ok (action :: actions)

def parsePatchDocument (doc : JsonValue) : Result PatchFile := do
  let allowUnknown ← checkDocumentHeader doc "MutationPatch" 1 "ge.dev/schema/patch/v1"
  let reader ← openObject doc "MutationPatch" allowUnknown
  let base ← reader.optionalInteger "base_topology_version"
  ensure (∀ version ∈ base, 0 ≤ version) "base_topology_version must be >= 0"
  let policy ← parseRemovePolicyField reader
  let values ← reader.require "actions" "array" array?
  let actions ← parseActions allowUnknown 0 values
  reader.finish (headerKeys ++ ["base_topology_version", "remove_policy", "actions"])
  .ok ⟨⟨base.map Int.toNat, policy.getD .drain, actions⟩, allowUnknown⟩

def parsePatch (floats : FloatFormat) (text : String) : Result PatchFile :=
  match parseJson floats text with
  | .error message => .error (.graphInvalid ("invalid JSON: " ++ message))
  | .ok doc => parsePatchDocument doc

def policyField (policy : Option RemovePolicy) : String × Option JsonValue :=
  ("remove_policy", policy.map fun policy => .string (removePolicyName policy))

def modeField (mode : RemoveMode) : String × Option JsonValue :=
  ("mode", some (.string (removeModeName mode)))

def stringArrayJson (texts : List String) : JsonValue := .array (texts.map .string)

def chainPortsFields (ports : ChainPorts) : List (String × Option JsonValue) :=
  [("chain_input", ports.chainInput.map .string), ("chain_output", ports.chainOutput.map .string)]

def replacementFields (action : ReplaceNodeAction) : List (String × Option JsonValue) :=
  [("operator", some (.string action.replacementOp.render)),
    ("options", if action.replacementOptions.asObject ≠ [] then some action.replacementOptions
      else none)]

def portMappingFields (mapping : PortMapping) : List (String × Option JsonValue) :=
  [("inputs", some (stringMapJson mapping.inputs)), ("outputs", some (stringMapJson mapping.outputs))]

def bodyFields : MutationAction → List (String × Option JsonValue)
  | .addNode node => [("node", some (nodeJson node))]
  | .removeNode action =>
    [("node", some (.string action.node)), modeField action.mode, policyField action.removePolicy]
  | .insertChain action =>
    [("edge", some (.string action.edge)),
      ("nodes", some (.array (action.nodes.map nodeJson))),
      ("ports", if action.ports.chainInput.isSome ∨ action.ports.chainOutput.isSome then
        some (build (chainPortsFields action.ports)) else none)]
  | .removeChain action =>
    [("nodes", some (stringArrayJson action.nodes)), modeField action.mode,
      policyField action.removePolicy]
  | .replaceNode action =>
    [("node", some (.string action.node)),
      ("replacement", some (build (replacementFields action))),
      ("port_mapping", action.portMapping.map fun mapping => build (portMappingFields mapping)),
      policyField action.removePolicy]
  | .removeBranch action =>
    [("entry_edge", if action.entryEdges = [] then some (.string action.entryEdge) else none),
      ("entry_edges", if action.entryEdges = [] then none
        else some (stringArrayJson action.entryEdges)),
      ("nodes", some (stringArrayJson action.nodes)), policyField action.removePolicy]
  | .addEdge edge => [("edge", some (edgeJson edge))]
  | .removeEdge edge => [("edge", some (.string edge))]
  | .setNodeOptions action =>
    [("node", some (.string action.node)), ("parameters", some action.parameters)]

def actionFields (action : MutationAction) : List (String × Option JsonValue) :=
  ("type", some (.string (actionTypeName action))) :: bodyFields action

def actionJson (action : MutationAction) : JsonValue := build (actionFields action)

def patchFields (file : PatchFile) : List (String × Option JsonValue) :=
  [("kind", some (.string "MutationPatch")),
    ("schema_version", some (.integer 1)),
    ("$id", some (.string "ge.dev/schema/patch/v1")),
    ("allow_unknown_fields", if file.allowUnknownFields then some (.bool true) else none),
    ("base_topology_version", file.baseTopologyVersion.map fun version =>
      .integer (fromUInt64 (UInt64.ofNat version))),
    ("remove_policy", some (.string (removePolicyName file.removePolicy))),
    ("actions", some (.array (file.actions.map actionJson)))]

def patchJson (file : PatchFile) : JsonValue := build (patchFields file)

def serializePatch (floats : FloatFormat) (file : PatchFile) : String :=
  serialize floats (patchJson file)

end GraphEngine.PatchJson
