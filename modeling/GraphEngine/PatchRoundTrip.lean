import GraphEngine.GraphSpecReading
import GraphEngine.PatchJson

/-!
A patch that was parsed is serialised and parsed again without a change, but for the first entry
edge of a branch removal: what counts there is the list of entry edges.
-/

namespace GraphEngine.PatchRoundTrip

open Values GraphSpecs Applier OrderedMaps JsonText JsonShapes CapabilityParsing ObjectReader Option
  List
open Fallible GraphSpecJson GraphSpecCodec GraphSpecReading PatchJson

variable {policy : Option RemovePolicy} {value : JsonValue}

section Fields

variable {reader : ObjectReader} {key : String}

theorem requireField_written (written : reader.get key = some value) :
    requireField reader key = .ok value := by
  rw [requireField, written]

theorem parseRemovePolicyField_written
    (written : reader.get "remove_policy" = (policyField policy).2) :
    parseRemovePolicyField reader = .ok policy :=
  optionalEnum_written written

theorem parseModeField_written {mode : RemoveMode}
    (written : reader.get "mode" = (modeField mode).2) : parseModeField reader = .ok mode :=
  then_ok (some mode) (optionalEnum_written written) rfl

theorem mapM_strings (texts : List String) (error : Status) :
    ((texts.map JsonValue.string).mapM fun item =>
      match string? item with
      | none => .error error
      | some text => .ok text) = (.ok texts : Result (List String)) := by
  induction texts with
  | nil => rfl
  | cons text rest ih =>
    rw [map_cons, mapM_cons, ih]
    rfl

theorem stringArray_written {texts : List String} {required : Bool}
    (written : reader.get key = some (stringArrayJson texts)) :
    stringArray reader key required = .ok texts := by
  have read : reader.optionalStringArray key = .ok (some texts) := by
    refine then_ok (some (texts.map .string)) ?_ ?_
    · exact @optional_written _ _ _ _ array? .array (fun _ => rfl) (some (texts.map .string)) written
    · exact then_ok texts (mapM_strings texts _) rfl
  exact then_ok (some texts) read rfl

theorem stringArray_absent (absent : reader.get key = none) :
    stringArray reader key false = .ok [] := by
  have read : reader.optionalStringArray key = .ok none := by
    refine then_ok none ?_ rfl
    simp [ObjectReader.optional, absent]
  exact then_ok none read rfl

end Fields

variable {fields : List (String × Option JsonValue)} {entries : List (String × String)}
  {nodes : List NodeSpec} {ports : ChainPorts} {direction : String}

section Writable

def ActionWritable : MutationAction → Prop
  | .addNode node => NodeWritable node
  | .insertChain action =>
    action.nodes ≠ [] ∧ (∀ node ∈ action.nodes, NodeWritable node) ∧
      action.ports.chainInput ≠ some "" ∧ action.ports.chainOutput ≠ some ""
  | .removeChain action => action.nodes ≠ []
  | .replaceNode action =>
    parseKey action.replacementOp.render = some action.replacementOp ∧
      action.replacementOptions.isObject = true ∧ Plain action.replacementOptions ∧
      ∀ mapping ∈ action.portMapping, Ordered mapping.inputs ∧ Ordered mapping.outputs
  | .removeBranch action =>
    (action.entryEdge ≠ "" ∨ action.entryEdges ≠ []) ∧ action.nodes ≠ []
  | .addEdge edge => EdgeWritable edge
  | .setNodeOptions action => action.parameters.isObject = true ∧ Plain action.parameters
  | .removeNode _ => True
  | .removeEdge _ => True

/-- What is read back: a list of entry edges sets the single one. -/
def normal : MutationAction → MutationAction
  | .removeBranch action =>
    .removeBranch { action with
      entryEdge := if action.entryEdges = [] then action.entryEdge
        else action.entryEdges.headD "" }
  | action => action

variable {path : String} {allowUnknown : Bool}

theorem parseNodes_written (writable : ∀ node ∈ nodes, NodeWritable node) (index : Nat) :
    parseNodes path allowUnknown index (nodes.map nodeJson) = .ok nodes := by
  induction nodes generalizing index with
  | nil => rfl
  | cons node rest ih =>
    refine then_ok node (parseNode_nodeJson (writable node (by simp)) _ _) ?_
    exact then_ok rest (ih (fun other member => writable other (by simp [member])) _) rfl

theorem filter_nonempty {text : Option String} (named : text ≠ some "") :
    text.filter (· ≠ "") = text := by
  cases text with
  | none => rfl
  | some text =>
    have filled : text ≠ "" := fun empty => named (congrArg some empty)
    simp [filled]

variable {action : ReplaceNodeAction}

section Parts

attribute [local simp] chainPortsFields portMappingFields replacementFields

theorem parseChainPorts_written (input : ports.chainInput ≠ some "")
    (output : ports.chainOutput ≠ some "") :
    parseChainPorts (build (chainPortsFields ports)) path allowUnknown = .ok ports := by
  refine then_ok _ openObject_build ?_
  refine then_ok ports.chainInput (optionalString_written (by simp)) ?_
  refine then_ok ports.chainOutput (optionalString_written (by simp)) ?_
  refine then_ok () (finish_reading (by simp)) ?_
  rw [filter_nonempty input, filter_nonempty output]

theorem parseDirection_written (ordered : Ordered entries)
    (written : entry fields direction = some (stringMapJson entries)) :
    parseDirection (reading fields path allowUnknown) direction = .ok entries := by
  refine (fieldOr_written ((get_reading direction).trans written)).trans ?_
  rw [stringMapJson_ordered ordered]
  exact parseStringMap_written _ ordered

theorem parsePortMapping_written {mapping : PortMapping} (inputs : Ordered mapping.inputs)
    (outputs : Ordered mapping.outputs) :
    parsePortMapping (build (portMappingFields mapping)) path allowUnknown = .ok (some mapping) := by
  refine then_ok _ openObject_build ?_
  refine then_ok _ (parseDirection_written inputs (by simp)) ?_
  refine then_ok _ (parseDirection_written outputs (by simp)) ?_
  exact then_ok () (finish_reading (by simp)) rfl

theorem parseReplacement_written
    (op : parseKey action.replacementOp.render = some action.replacementOp)
    (object : action.replacementOptions.isObject = true) :
    parseReplacement (build (replacementFields action)) path allowUnknown =
      .ok (action.replacementOp, action.replacementOptions) := by
  obtain ⟨objects, members⟩ := written_object object
  refine then_ok _ openObject_build ?_
  refine then_ok action.replacementOp.render (requireString_written (by simp)) ?_
  refine then_ok action.replacementOp (by simp [parseOperatorKey, op, demand]) ?_
  refine then_ok _ (optionalObject_written objects (by simp)) ?_
  refine then_ok () (finish_reading (by simp)) ?_
  rw [members]

end Parts

section Actions

def actionReader (action : MutationAction) (path : String) (allowUnknown : Bool) : ObjectReader :=
  reading (actionFields action) path allowUnknown

attribute [local simp] actionReader actionFields bodyFields modeField policyField

theorem parseAddNode_written {node : NodeSpec} (writable : NodeWritable node) :
    parseAddNode (actionReader (.addNode node) path allowUnknown) = .ok (.addNode node) := by
  refine then_ok _ (requireField_written (by simp; rfl)) ?_
  refine then_ok _ (parseNode_nodeJson writable _ _) ?_
  exact then_ok () (finish_reading (by simp)) rfl

theorem parseRemoveNode_written (action : RemoveNodeAction) :
    parseRemoveNode (actionReader (.removeNode action) path allowUnknown) =
      .ok (.removeNode action) := by
  refine then_ok action.node (requireString_written (by simp)) ?_
  refine then_ok action.mode (parseModeField_written (by simp)) ?_
  refine then_ok action.removePolicy (parseRemovePolicyField_written (by simp)) ?_
  exact then_ok () (finish_reading (by simp)) rfl

theorem parsed_ports {action : InsertChainAction} (input : action.ports.chainInput ≠ some "")
    (output : action.ports.chainOutput ≠ some "") :
    fieldOr (actionReader (.insertChain action) path allowUnknown) "ports" {}
      (parseChainPorts · path allowUnknown) = .ok action.ports := by
  by_cases given : action.ports.chainInput.isSome ∨ action.ports.chainOutput.isSome
  · refine (fieldOr_written (by simp [given]; rfl)).trans ?_
    exact parseChainPorts_written input output
  · have parts := not_or.mp given
    have none : action.ports = {} := by
      calc action.ports = ⟨action.ports.chainInput, action.ports.chainOutput⟩ := rfl
        _ = {} := by rw [not_isSome_iff_eq_none.mp parts.1, not_isSome_iff_eq_none.mp parts.2]
    rw [none]
    exact fieldOr_absent (by simp [given])

theorem parseInsertChain_written {action : InsertChainAction}
    (writable : ActionWritable (.insertChain action)) :
    parseInsertChain (actionReader (.insertChain action) path allowUnknown) =
      .ok (.insertChain action) := by
  obtain ⟨filled, nodes, input, output⟩ := writable
  refine then_ok action.edge (requireString_written (by simp)) ?_
  refine then_ok _ (requireField_written (by simp; rfl)) ?_
  refine then_ok (action.nodes.map nodeJson) (by simp [array?, demand, Option.filter, filled]) ?_
  refine then_ok _ (parseNodes_written nodes 0) ?_
  refine then_ok _ (parsed_ports input output) ?_
  exact then_ok () (finish_reading (by simp)) rfl

theorem parseRemoveChain_written {action : RemoveChainAction} (filled : action.nodes ≠ []) :
    parseRemoveChain (actionReader (.removeChain action) path allowUnknown) =
      .ok (.removeChain action) := by
  refine then_ok action.nodes (stringArray_written (by simp)) ?_
  refine then_ok () (ensure_of filled _) ?_
  refine then_ok action.mode (parseModeField_written (by simp)) ?_
  refine then_ok action.removePolicy (parseRemovePolicyField_written (by simp)) ?_
  exact then_ok () (finish_reading (by simp)) rfl

theorem parsed_mapping
    (ordered : ∀ mapping ∈ action.portMapping, Ordered mapping.inputs ∧ Ordered mapping.outputs) :
    fieldOr (actionReader (.replaceNode action) path allowUnknown) "port_mapping" none
      (parsePortMapping · path allowUnknown) = .ok action.portMapping := by
  cases given : action.portMapping with
  | none => exact fieldOr_absent (by simp [given])
  | some mapping =>
    refine (fieldOr_written (by simp [given]; rfl)).trans ?_
    obtain ⟨inputs, outputs⟩ := ordered mapping given
    exact parsePortMapping_written inputs outputs

theorem parseReplaceNode_written (writable : ActionWritable (.replaceNode action)) :
    parseReplaceNode (actionReader (.replaceNode action) path allowUnknown) =
      .ok (.replaceNode action) := by
  obtain ⟨op, object, _, ordered⟩ := writable
  refine then_ok action.node (requireString_written (by simp)) ?_
  refine then_ok _ (requireField_written (by simp; rfl)) ?_
  refine then_ok _ (parseReplacement_written op object) ?_
  refine then_ok _ (parsed_mapping ordered) ?_
  refine then_ok action.removePolicy (parseRemovePolicyField_written (by simp)) ?_
  exact then_ok () (finish_reading (by simp)) rfl

theorem parseRemoveBranch_written {action : RemoveBranchAction}
    (writable : ActionWritable (.removeBranch action)) :
    parseRemoveBranch (actionReader (.removeBranch action) path allowUnknown) =
      .ok (normal (.removeBranch action)) := by
  obtain ⟨entries, filled⟩ := writable
  let single := if action.entryEdges = [] then some action.entryEdge else none
  refine then_ok single (optionalString_written (by simp [single])) ?_
  refine then_ok action.entryEdges ?_ ?_
  · by_cases empty : action.entryEdges = []
    · rw [empty]
      exact stringArray_absent (by simp [empty])
    · exact stringArray_written (by simp [empty])
  refine then_ok () (ensure_of ?_ _) ?_
  · by_cases empty : action.entryEdges = []
    · simpa [single, empty] using entries
    · exact .inr empty
  refine then_ok action.nodes (stringArray_written (by simp)) ?_
  refine then_ok () (ensure_of filled _) ?_
  refine then_ok action.removePolicy (parseRemovePolicyField_written (by simp)) ?_
  refine then_ok () (finish_reading (by simp)) ?_
  by_cases empty : action.entryEdges = []
  · simp [normal, single, empty]
  · simp [normal, single, empty]

theorem parseAddEdge_written {edge : EdgeSpec} (writable : EdgeWritable edge) :
    parseAddEdge (actionReader (.addEdge edge) path allowUnknown) = .ok (.addEdge edge) := by
  refine then_ok _ (requireField_written (by simp; rfl)) ?_
  refine then_ok _ (parseEdge_edgeJson writable _ _) ?_
  exact then_ok () (finish_reading (by simp)) rfl

theorem parseRemoveEdge_written (edge : String) :
    parseRemoveEdge (actionReader (.removeEdge edge) path allowUnknown) = .ok (.removeEdge edge) := by
  refine then_ok edge (requireString_written (by simp)) ?_
  exact then_ok () (finish_reading (by simp)) rfl

theorem parseSetNodeOptions_written {action : SetNodeOptionsAction}
    (object : action.parameters.isObject = true) :
    parseSetNodeOptions (actionReader (.setNodeOptions action) path allowUnknown) =
      .ok (.setNodeOptions action) := by
  obtain ⟨node, parameters⟩ := action
  cases parameters <;> simp [JsonValue.isObject] at object
  refine then_ok node (requireString_written (by simp)) ?_
  refine then_ok _ (requireField_written (by simp; rfl)) ?_
  refine then_ok _ rfl ?_
  exact then_ok () (finish_reading (by simp)) rfl

theorem parseAction_actionJson {action : MutationAction} (writable : ActionWritable action) :
    parseAction (actionJson action) path allowUnknown = .ok (normal action) := by
  refine then_ok (actionReader action path allowUnknown) openObject_build ?_
  refine then_ok (actionTypeName action) (requireString_written (by simp)) ?_
  cases action with
  | addNode node => exact parseAddNode_written writable
  | removeNode action => exact parseRemoveNode_written action
  | insertChain action => exact parseInsertChain_written writable
  | removeChain action => exact parseRemoveChain_written writable
  | replaceNode action => exact parseReplaceNode_written writable
  | removeBranch action => exact parseRemoveBranch_written writable
  | addEdge edge => exact parseAddEdge_written writable
  | removeEdge edge => exact parseRemoveEdge_written edge
  | setNodeOptions action => exact parseSetNodeOptions_written writable.1

end Actions

end Writable

section Shape

/-- How deep the options inside an action may nest, for the action to nest no deeper than
`bound + 5` levels. -/
def ActionShallow (bound : Nat) : MutationAction → Prop
  | .addNode node => depth node.options ≤ bound + 3
  | .insertChain action => ∀ node ∈ action.nodes, depth node.options ≤ bound + 2
  | .replaceNode action => depth action.replacementOptions ≤ bound + 3
  | .setNodeOptions action => depth action.parameters ≤ bound + 4
  | _ => True

def Carried (bound : Nat) (value : JsonValue) : Prop := Plain value ∧ depth value ≤ bound

variable {bound : Nat}

theorem carried_build (each : Each (Carried bound) fields) : Carried (bound + 1) (build fields) :=
  ⟨plain_build fun field member value written => (each field member value written).1,
    depth_build_le fun field member value written => (each field member value written).2⟩

theorem carried_string (text : String) : Carried (bound + 1) (.string text) :=
  ⟨trivial, Nat.le_add_left 1 bound⟩

theorem Carried.mono {above : Nat} (carried : Carried bound value) (wider : bound ≤ above) :
    Carried above value :=
  ⟨carried.1, carried.2.trans wider⟩

theorem carried_array {items : List JsonValue} (each : ∀ item ∈ items, Carried bound item) :
    Carried (bound + 1) (.array items) :=
  ⟨plainItems_iff.mpr fun item member => (each item member).1,
    depth_array_le.mpr fun item member => (each item member).2⟩

theorem carried_strings (texts : List String) : Carried (bound + 2) (stringArrayJson texts) :=
  carried_array (forall_mem_map.mpr fun text _ => carried_string text)

theorem carried_stringMap (entries : List (String × String)) :
    Carried (bound + 2) (stringMapJson entries) :=
  Carried.mono ⟨plain_stringMap, depth_stringMap_le⟩ (Nat.le_add_left 2 bound)

theorem carried_policy (rest : Each (Carried (bound + 1)) fields) :
    Each (Carried (bound + 1)) (policyField policy :: fields) :=
  each_map (fun _ _ => carried_string _) rest

theorem carried_node {node : NodeSpec} (writable : NodeWritable node)
    (shallow : depth node.options ≤ bound + 2) : Carried (bound + 3) (nodeJson node) :=
  ⟨plain_nodeJson writable, (depth_nodeJson_le writable.object).mpr shallow⟩

theorem carried_ports (ports : ChainPorts) : Carried (bound + 2) (build (chainPortsFields ports)) :=
  carried_build (each_map (fun _ _ => carried_string _)
    (each_map (fun _ _ => carried_string _) each_nil))

theorem carried_mapping (mapping : PortMapping) :
    Carried (bound + 3) (build (portMappingFields mapping)) :=
  carried_build (each_some (carried_stringMap _) (each_some (carried_stringMap _) each_nil))

theorem carried_replacement (plain : Plain action.replacementOptions)
    (shallow : depth action.replacementOptions ≤ bound + 2) :
    Carried (bound + 3) (build (replacementFields action)) :=
  carried_build (each_some (carried_string _)
    (each_given (fun _ => ⟨plain, shallow⟩) each_nil))

variable {action : MutationAction}

theorem carried_body (writable : ActionWritable action) (shallow : ActionShallow bound action) :
    Each (Carried (bound + 4)) (bodyFields action) := by
  cases action with
  | addNode node => exact each_some (carried_node writable shallow) each_nil
  | removeNode action =>
    refine each_some (carried_string _) (each_some (carried_string _) ?_)
    exact carried_policy each_nil
  | insertChain action =>
    refine each_some (carried_string _) (each_some ?_ (each_given (fun _ => carried_ports _) each_nil))
    refine carried_array (forall_mem_map.mpr fun node inside => ?_)
    exact carried_node (writable.2.1 node inside) (shallow node inside)
  | removeChain action =>
    refine each_some (carried_strings _) (each_some (carried_string _) ?_)
    exact carried_policy each_nil
  | replaceNode action =>
    refine each_some (carried_string _) ?_
    refine each_some (carried_replacement writable.2.2.1 shallow) ?_
    exact each_map (fun mapping _ => carried_mapping mapping) (carried_policy each_nil)
  | removeBranch action =>
    refine each_given (fun _ => carried_string _) ?_
    refine each_unless (fun _ => carried_strings _) ?_
    exact each_some (carried_strings _) (carried_policy each_nil)
  | addEdge edge =>
    refine each_some ⟨plain_edgeJson fun bytes found => (writable.bytes bytes found).2, ?_⟩ each_nil
    exact depth_edgeJson_le.trans (Nat.le_add_left 3 (bound + 1))
  | removeEdge edge => exact each_some (carried_string _) each_nil
  | setNodeOptions action =>
    exact each_some (carried_string _) (each_some ⟨writable.2, shallow⟩ each_nil)

theorem carried_action (writable : ActionWritable action) (shallow : ActionShallow bound action) :
    Carried (bound + 5) (actionJson action) :=
  carried_build (each_some (carried_string _) (carried_body writable shallow))

end Shape

variable {actions : List MutationAction} {values : List JsonValue}

section Parsed

/-- The counts of an action lie in the range of their 32-bit fields: the parser asks for at least
one, so that only a count that wrapped around is zero. -/
def ActionInRange : MutationAction → Prop
  | .addNode node => node.parallelism ≠ 0
  | .insertChain action => ∀ node ∈ action.nodes, node.parallelism ≠ 0
  | .addEdge edge => edge.queue.capacity ≠ 0
  | _ => True

def ActionWhole : MutationAction → Prop
  | .addNode node => Whole node.options
  | .insertChain action => ∀ node ∈ action.nodes, Whole node.options
  | .replaceNode action => Whole action.replacementOptions
  | .setNodeOptions action => Whole action.parameters
  | _ => True

def Proper (bound : Nat) (action : MutationAction) : Prop :=
  (ActionInRange action → ActionWhole action → ActionWritable action) ∧ ActionShallow bound action

variable {reader : ObjectReader} {bound : Nat} {action : MutationAction}

theorem requireField_ok {key : String} (parsed : requireField reader key = .ok value) :
    reader.get key = some value := by
  unfold requireField at parsed
  split at parsed
  · cases parsed
  rename_i found
  cases parsed
  exact found

variable {allowUnknown : Bool} {path : String}

theorem parseNodes_ok {index : Nat} (parsed : parseNodes path allowUnknown index values = .ok nodes) :
    nodes.length = values.length ∧
      ∀ node ∈ nodes, ∃ value ∈ values, ∃ place, parseNode value place allowUnknown = .ok node := by
  induction values generalizing index nodes with
  | nil =>
    cases parsed
    exact ⟨rfl, nofun⟩
  | cons value rest ih =>
    simp only [parseNodes, bind_ok] at parsed
    obtain ⟨node, first, others, later, ⟨⟩⟩ := parsed
    obtain ⟨length, each⟩ := ih later
    refine ⟨congrArg Nat.succ length, ?_⟩
    rintro other (_ | ⟨_, member⟩)
    · exact ⟨value, mem_cons_self, _, first⟩
    · obtain ⟨source, listed, place, read⟩ := each other member
      exact ⟨source, mem_cons_of_mem _ listed, place, read⟩

variable (sound : Sound reader (bound + 4))

include sound in
theorem parseAddNode_proper (parsed : parseAddNode reader = .ok action) : Proper bound action := by
  simp only [parseAddNode, bind_ok] at parsed
  obtain ⟨value, found, node, read, _, _, ⟨⟩⟩ := parsed
  obtain ⟨held, shallow⟩ := sound.get (requireField_ok found)
  exact parseNode_ok held shallow read

theorem parseRemoveNode_proper (parsed : parseRemoveNode reader = .ok action) :
    Proper bound action := by
  simp only [parseRemoveNode, bind_ok] at parsed
  obtain ⟨node, _, mode, _, policy, _, _, _, ⟨⟩⟩ := parsed
  exact ⟨fun _ _ => trivial, trivial⟩

theorem parseChainPorts_ok (parsed : parseChainPorts value path allowUnknown = .ok ports) :
    ports.chainInput ≠ some "" ∧ ports.chainOutput ≠ some "" := by
  simp only [parseChainPorts, bind_ok] at parsed
  obtain ⟨inner, _, input, _, output, _, _, _, ⟨⟩⟩ := parsed
  have filtered : ∀ text : Option String, text.filter (· ≠ "") ≠ some "" := by
    intro text
    cases text <;> simp
  exact ⟨filtered input, filtered output⟩

include sound in
theorem parseInsertChain_proper
    (parsed : parseInsertChain reader = .ok action) : Proper bound action := by
  simp only [parseInsertChain, bind_ok] at parsed
  obtain ⟨edge, _, value, found, values, listed, nodes, read, ports, ported, _, _, ⟨⟩⟩ := parsed
  obtain ⟨held, shallow⟩ := sound.get (requireField_ok found)
  obtain ⟨isArray, filled⟩ := filter_eq_some_iff.mp (demand_ok.mp listed)
  cases value <;> simp [array?] at isArray
  subst isArray
  obtain ⟨length, each⟩ := parseNodes_ok read
  have proper : ∀ node ∈ nodes, (node.parallelism ≠ 0 → Whole node.options → NodeWritable node) ∧
      depth node.options ≤ bound + 2 := by
    intro node member
    obtain ⟨source, inside, place, parsed⟩ := each node member
    exact parseNode_ok (everyItem_iff.mp held.2 source inside)
      (depth_array_le.mp shallow source inside) parsed
  have named : ports.chainInput ≠ some "" ∧ ports.chainOutput ≠ some "" := by
    rcases fieldOr_ok ported with rfl | ⟨given, _, ported⟩
    · exact ⟨by simp, by simp⟩
    · exact parseChainPorts_ok ported
  refine ⟨?_, fun node member => (proper node member).2⟩
  intro range whole
  refine ⟨?_, fun node member => (proper node member).1 (range node member) (whole node member),
    named⟩
  rintro rfl
  simp [eq_nil_of_length_eq_zero length.symm] at filled

theorem parseRemoveChain_proper (parsed : parseRemoveChain reader = .ok action) :
    Proper bound action := by
  simp only [parseRemoveChain, bind_ok] at parsed
  obtain ⟨nodes, _, _, filled, mode, _, policy, _, _, _, ⟨⟩⟩ := parsed
  have some : nodes ≠ [] := ensure_ok filled
  exact ⟨fun _ _ => some, trivial⟩

theorem parseDirection_ordered (parsed : parseDirection reader direction = .ok entries) :
    Ordered entries := by
  rcases fieldOr_ok parsed with rfl | ⟨given, _, parsed⟩
  · exact ordered_nil
  · obtain ⟨fields, _, parsed⟩ := bind_ok.mp parsed
    exact parseStringMap_ordered parsed

theorem parsePortMapping_ordered {mapping : Option PortMapping}
    (parsed : parsePortMapping value path allowUnknown = .ok mapping) :
    ∀ inner ∈ mapping, Ordered inner.inputs ∧ Ordered inner.outputs := by
  simp only [parsePortMapping, bind_ok] at parsed
  obtain ⟨inner, _, inputs, into, outputs, out, _, _, ⟨⟩⟩ := parsed
  intro mapping member
  cases member
  exact ⟨parseDirection_ordered into, parseDirection_ordered out⟩

theorem parseReplacement_ok {op : OperatorKey} {options : JsonValue} (held : Held value)
    (shallow : depth value ≤ bound + 4)
    (parsed : parseReplacement value path allowUnknown = .ok (op, options)) :
    parseKey op.render = some op ∧ options.isObject = true ∧ Held options ∧
      depth options ≤ bound + 3 := by
  simp only [parseReplacement, bind_ok] at parsed
  obtain ⟨inner, opened, text, _, key, named, given, optioned, _, _, ⟨⟩⟩ := parsed
  exact ⟨parseKey_parsed (demand_ok.mp named),
    optionalObject_ok (openObject_sound held shallow opened).1 optioned⟩

include sound in
theorem parseReplaceNode_proper
    (parsed : parseReplaceNode reader = .ok action) : Proper bound action := by
  simp only [parseReplaceNode, bind_ok] at parsed
  obtain ⟨node, _, value, found, ⟨op, options⟩, replaced, mapping, mapped, policy, _, _, _,
    parsed⟩ := parsed
  cases parsed
  obtain ⟨valueHeld, valueShallow⟩ := sound.get (requireField_ok found)
  obtain ⟨key, object, held, shallow⟩ := parseReplacement_ok valueHeld valueShallow replaced
  refine ⟨fun _ whole => ⟨key, object, plain_of_held held whole, ?_⟩, shallow⟩
  rcases fieldOr_ok mapped with rfl | ⟨given, _, mapped⟩
  · exact nofun
  · exact parsePortMapping_ordered mapped

theorem parseRemoveBranch_proper (parsed : parseRemoveBranch reader = .ok action) :
    Proper bound action := by
  simp only [parseRemoveBranch, bind_ok] at parsed
  obtain ⟨given, _, entries, _, _, some, nodes, _, _, filled, policy, _, _, _, ⟨⟩⟩ := parsed
  refine ⟨fun _ _ => ⟨?_, ensure_ok filled⟩, trivial⟩
  rcases ensure_ok some with named | listed
  · exact .inl (by simp [named])
  · exact .inr listed

include sound in
theorem parseAddEdge_proper (parsed : parseAddEdge reader = .ok action) : Proper bound action := by
  simp only [parseAddEdge, bind_ok] at parsed
  obtain ⟨value, found, edge, read, _, _, ⟨⟩⟩ := parsed
  exact ⟨fun range _ => parseEdge_ok (sound.get (requireField_ok found)).1 read range, trivial⟩

theorem parseRemoveEdge_proper (parsed : parseRemoveEdge reader = .ok action) :
    Proper bound action := by
  simp only [parseRemoveEdge, bind_ok] at parsed
  obtain ⟨edge, _, _, _, ⟨⟩⟩ := parsed
  exact ⟨fun _ _ => trivial, trivial⟩

include sound in
theorem parseSetNodeOptions_proper
    (parsed : parseSetNodeOptions reader = .ok action) : Proper bound action := by
  simp only [parseSetNodeOptions, bind_ok] at parsed
  obtain ⟨node, _, value, found, fields, object, _, _, ⟨⟩⟩ := parsed
  obtain ⟨held, shallow⟩ := sound.get (requireField_ok found)
  cases value <;> simp [objectFields, object?] at object
  subst object
  exact ⟨fun _ whole => ⟨rfl, plain_of_held held whole⟩, shallow⟩

theorem parseAction_proper (held : Held value) (shallow : depth value ≤ bound + 5)
    (parsed : parseAction value path allowUnknown = .ok action) : Proper bound action := by
  obtain ⟨reader, opened, parsed⟩ := bind_ok.mp parsed
  obtain ⟨sound, _⟩ := openObject_sound held shallow opened
  obtain ⟨type, _, parsed⟩ := bind_ok.mp parsed
  split_ifs at parsed
  · exact parseAddNode_proper sound parsed
  · exact parseRemoveNode_proper parsed
  · exact parseInsertChain_proper sound parsed
  · exact parseRemoveChain_proper parsed
  · exact parseReplaceNode_proper sound parsed
  · exact parseRemoveBranch_proper parsed
  · exact parseAddEdge_proper sound parsed
  · exact parseRemoveEdge_proper parsed
  · exact parseSetNodeOptions_proper sound parsed

theorem parseActions_proper {index : Nat} (held : ∀ value ∈ values, Held value)
    (shallow : ∀ value ∈ values, depth value ≤ bound + 5)
    (parsed : parseActions allowUnknown index values = .ok actions) :
    ∀ action ∈ actions, Proper bound action := by
  induction values generalizing index actions with
  | nil =>
    cases parsed
    exact nofun
  | cons value rest ih =>
    simp only [parseActions, bind_ok] at parsed
    obtain ⟨first, read, others, later, ⟨⟩⟩ := parsed
    rw [forall_mem_cons] at held shallow ⊢
    exact ⟨parseAction_proper held.1 shallow.1 read, ih held.2 shallow.2 later⟩

end Parsed

section Patches

/-- Equal in every field; a branch removal in its effective entry edges. -/
def SameAction : MutationAction → MutationAction → Prop
  | .removeBranch left, .removeBranch right =>
    left.allEntryEdges = right.allEntryEdges ∧ left.nodes = right.nodes ∧
      left.removePolicy = right.removePolicy
  | left, right => left = right

structure SamePatch (left right : PatchFile) : Prop where
  baseTopologyVersion : left.baseTopologyVersion = right.baseTopologyVersion
  removePolicy : left.removePolicy = right.removePolicy
  allowUnknownFields : left.allowUnknownFields = right.allowUnknownFields
  actions : List.Forall₂ SameAction left.actions right.actions

theorem sameAction_normal (action : MutationAction) : SameAction action (normal action) := by
  cases action with
  | removeBranch action =>
    refine ⟨?_, rfl, rfl⟩
    by_cases empty : action.entryEdges = [] <;>
      simp [RemoveBranchAction.allEntryEdges, empty]
  | _ => rfl

theorem parseActions_written {allowUnknown : Bool}
    (writable : ∀ action ∈ actions, ActionWritable action) (index : Nat) :
    parseActions allowUnknown index (actions.map actionJson) = .ok (actions.map normal) := by
  induction actions generalizing index with
  | nil => rfl
  | cons action rest ih =>
    refine then_ok _ (parseAction_actionJson (writable action (by simp))) ?_
    exact then_ok _ (ih (fun other member => writable other (by simp [member])) _) rfl

structure PatchProper (file : PatchFile) : Prop where
  base : ∀ version ∈ file.baseTopologyVersion, version < 2 ^ 63
  writable : ∀ action ∈ file.actions, ActionWritable action
  shallow : ∀ action ∈ file.actions, ActionShallow 249 action

variable {file : PatchFile}

theorem parsePatchDocument_proper {doc : JsonValue} (held : Held doc)
    (shallow : depth doc ≤ maxDepth) (parsed : parsePatchDocument doc = .ok file)
    (range : ∀ action ∈ file.actions, ActionInRange action)
    (whole : ∀ action ∈ file.actions, ActionWhole action) : PatchProper file := by
  simp only [parsePatchDocument, bind_ok] at parsed
  obtain ⟨allowUnknown, _, reader, opened, base, based, _, _, policy, _, values, listed, actions,
    read, _, _, parsed⟩ := parsed
  obtain ⟨sound, _⟩ := @openObject_sound _ 255 _ _ _ held shallow opened
  cases parsed
  obtain ⟨given, optional, required⟩ := bind_ok.mp listed
  have found : given = some values := by
    cases given with
    | none => cases required
    | some other =>
      cases required
      rfl
  obtain ⟨value, located, isArray⟩ := optional_ok optional found
  obtain ⟨valueHeld, valueShallow⟩ := sound.get located
  cases value <;> simp [array?] at isArray
  subst isArray
  have proper := @parseActions_proper _ _ 249 _ _ (everyItem_iff.mp valueHeld.2)
    (depth_array_le.mp valueShallow) read
  refine ⟨?_, ?_, fun action member => (proper action member).2⟩
  · intro version member
    obtain ⟨number, given, rfl⟩ := map_eq_some_iff.mp member
    have bounds := optionalInteger_ok sound based number given
    omega
  · intro action member
    exact (proper action member).1 (range action member) (whole action member)

theorem fromUInt64_version {version : Nat} (small : version < 2 ^ 63) :
    fromUInt64 (UInt64.ofNat version) = version := by
  have same : (UInt64.ofNat version).toNat = version := by
    rw [UInt64.toNat_ofNat']
    omega
  rw [fromUInt64_of_range (by omega), same]

theorem carried_patch (proper : PatchProper file) : Carried 256 (patchJson file) := by
  refine carried_build (each_some (carried_string _) ?_)
  refine each_some ⟨⟨by decide, by decide⟩, by decide⟩ (each_some (carried_string _) ?_)
  refine each_given (fun _ => ⟨trivial, by decide⟩) (each_map ?_ (each_some (carried_string _) ?_))
  · intro version found
    have small := proper.base version found
    rw [fromUInt64_version small]
    exact ⟨⟨by omega, by omega⟩, Nat.le_add_left 1 254⟩
  · refine each_some (carried_array (forall_mem_map.mpr fun action inside => ?_)) each_nil
    exact carried_action (proper.writable action inside) (proper.shallow action inside)

attribute [local simp] patchFields policyField headerKeys

theorem parsePatchDocument_patchJson (proper : PatchProper file) :
    parsePatchDocument (patchJson file) = .ok { file with actions := file.actions.map normal } := by
  let base := file.baseTopologyVersion.map fun version : Nat => (version : Int)
  have written : entry (patchFields file) "base_topology_version" = base.map .integer := by
    have found := proper.base
    cases given : file.baseTopologyVersion with
    | none => simp [base, given]
    | some version => simp [base, given, fromUInt64_version (found version given)]
  have natural : ∀ version ∈ base, 0 ≤ version := by
    intro version member
    simp only [base, mem_def, map_eq_some_iff] at member
    obtain ⟨number, _, rfl⟩ := member
    exact Int.natCast_nonneg number
  have back : base.map Int.toNat = file.baseTopologyVersion := by
    simp [base, Function.comp_def]
  refine then_ok file.allowUnknownFields
    (checkDocumentHeader_build (by simp) (by simp) (by simp) (by simp)) ?_
  refine then_ok _ openObject_build ?_
  refine then_ok base (optionalInteger_written ((get_reading _).trans written)) ?_
  refine then_ok () (ensure_of natural _) ?_
  refine then_ok (some file.removePolicy) (parseRemovePolicyField_written (by simp)) ?_
  refine then_ok _ (require_array_written (by simp; rfl)) ?_
  refine then_ok _ (parseActions_written proper.writable 0) ?_
  refine then_ok () (finish_reading (by simp)) ?_
  rw [back]
  rfl

/-- A patch that was parsed is serialised and parsed again without a change. -/
theorem parse_serialized_patch (floats : FloatFormat) (text : String) (file : PatchFile)
    (parsed : parsePatch floats text = .ok file)
    (range : ∀ action ∈ file.actions, ActionInRange action)
    (whole : ∀ action ∈ file.actions, ActionWhole action) :
    ∃ again, parsePatch floats (serializePatch floats file) = .ok again ∧ SamePatch file again := by
  have proper : PatchProper file := by
    unfold parsePatch at parsed
    split at parsed
    · cases parsed
    rename_i doc read
    obtain ⟨held, shallow⟩ := parseJson_held read
    exact parsePatchDocument_proper held shallow parsed range whole
  obtain ⟨plain, shallow⟩ := carried_patch proper
  refine ⟨{ file with actions := file.actions.map normal }, ?_, rfl, rfl, rfl, ?_⟩
  · unfold parsePatch serializePatch
    rw [(parse_serialize_iff floats plain).mpr ⟨shallow, rfl⟩]
    exact parsePatchDocument_patchJson proper
  · refine forall₂_map_right_iff.mpr (forall₂_same.mpr ?_)
    exact fun action _ => sameAction_normal action

def branchText : String :=
  "\x7b\"kind\":\"MutationPatch\",\"schema_version\":1,\"base_topology_version\":7,\"actions\":[" ++
  "\x7b\"type\":\"remove_branch\",\"entry_edge\":\"x\",\"entry_edges\":[\"y\"],\"nodes\":[\"n\"]\x7d, " ++
  "\x7b\"type\":\"add_node\",\"node\":\x7b\"id\":\"a\",\"operator\":\"X@1\",\"parallelism\":2\x7d\x7d]\x7d"

def branchPatch : PatchFile :=
  { baseTopologyVersion := some 7
    actions := [.removeBranch { entryEdge := "x", nodes := ["n"], entryEdges := ["y"] },
      .addNode { id := "a", op := ⟨"X", "1"⟩, parallelism := 2 }] }

theorem parse_serialized_branch : ∃ again, parsePatch ⟨fun _ => [], fun _ => none⟩
        (serializePatch ⟨fun _ => [], fun _ => none⟩ branchPatch) = .ok again ∧
      SamePatch branchPatch again := by
  refine parse_serialized_patch _ branchText branchPatch (by decide +kernel) ?_ ?_
  · simp [branchPatch, ActionInRange]
  · simp [branchPatch, ActionWhole, Whole, Every, EveryField, Exact]

end Patches

end GraphEngine.PatchRoundTrip
