import GraphEngine.SessionRuns

/-!
Graph templates, after graph_template.cpp. Instantiation writes the options of the nodes
and the name of the graph; validation reads neither, so the verdict on the skeleton is
the verdict on every instance, and a session may be created from it. The text of a JSON
value is a parameter.
-/

namespace GraphEngine.GraphTemplates

open Values GraphSpecs Capabilities KeyedLists OrderedMaps Fallible Ledgers Validation
  Topologies TopologyChains Sessions SessionRuns

section Substitution

variable (serialize : JsonValue → String) (args : JsonObject)

def lookUp (name : String) : Result JsonValue :=
  match find name args with
  | none => .error (.invalidArgument s!"no value for template parameter '{name}'")
  | some value => .ok value

def asText (name : String) : JsonValue → Result String
  | .string text => .ok text
  | .integer value => .ok (toString value)
  | .bool value => .ok (if value then "true" else "false")
  | .number bits => .ok (serialize (.number bits))
  | value => .error (.invalidArgument (s!"parameter '{name}' is embedded in a string and must " ++
      "be a scalar, got " ++ serialize value))

/-- The loop of `ApplyString`; the name of a placeholder that is open, if any. A
placeholder without its end is text. -/
def embed : Option (List Char) → List Char → Result (List Char)
  | none, [] => .ok []
  | some name, [] => .ok ('$' :: '\x7b' :: name)
  | none, '$' :: '\x7b' :: rest => embed (some []) rest
  | none, char :: rest => do .ok (char :: (← embed none rest))
  | some name, '\x7d' :: rest => do
    let name := String.ofList name
    let piece ← asText serialize name (← lookUp args name)
    .ok (piece.toList ++ (← embed none rest))
  | some name, char :: rest => embed (some (name ++ [char])) rest

def wholePlaceholder : List Char → Option (List Char)
  | '$' :: '\x7b' :: rest =>
    let name := rest.dropLast
    if rest.getLast? = some '\x7d' ∧ name ≠ [] ∧ '\x7d' ∉ name ∧ ¬['$', '\x7b'] <:+: name then
      some name
    else none
  | _ => none

def applyString (text : List Char) : Result JsonValue :=
  match wholePlaceholder text with
  | some name => lookUp args (String.ofList name)
  | none => do .ok (.string (String.ofList (← embed serialize args none text)))

mutual
def substitute : JsonValue → Result JsonValue
  | .string text => applyString serialize args text.toList
  | .array values => do .ok (.array (← substituteItems values))
  | .object fields => do .ok (.object (← substituteFields fields))
  | value => .ok value

def substituteItems : List JsonValue → Result (List JsonValue)
  | [] => .ok []
  | value :: rest => do .ok ((← substitute value) :: (← substituteItems rest))

def substituteFields : JsonObject → Result JsonObject
  | [] => .ok []
  | (key, value) :: rest => do .ok ((key, ← substitute value) :: (← substituteFields rest))
end

end Substitution

structure TemplateParameter where
  name : String
  required : Bool := true
  defaultValue : JsonValue := .null

/-- A template and what `Prevalidate` keeps, with the generation of the operators. -/
structure GraphTemplate where
  skeleton : GraphSpec
  parameters : List TemplateParameter := []
  validated : Option ValidatedGraph := none
  validatedGeneration : Nat := 0

namespace GraphTemplate

variable (serialize : JsonValue → String) (template : GraphTemplate)

def addDefault (args : JsonObject) (parameter : TemplateParameter) : Result JsonObject :=
  if parameter.name ∈ keys args then .ok args
  else if parameter.required then
    .error (.invalidArgument s!"missing required template parameter '{parameter.name}'")
  else .ok (emplace parameter.name parameter.defaultValue args)

/-- `FindNode(id)->options = options`. -/
def setOptions (spec : GraphSpec) (id : String) (options : JsonValue) : GraphSpec :=
  let index := spec.nodes.findIdx fun node => node.id = id
  { spec with nodes := spec.nodes.modify index ({ · with options := options }) }

def fillNode (args : JsonObject) (spec : GraphSpec) (node : NodeSpec) : Result GraphSpec :=
  match substitute serialize args node.options with
  | .error status => .error (.invalidArgument s!"node '{node.id}': {status.message}")
  | .ok options => .ok (setOptions spec node.id options)

def instantiate (arguments : JsonValue) (instanceName : String) : Result GraphSpec :=
  if arguments.isObject = false then
    .error (.invalidArgument "template arguments must be a JSON object")
  else
    match (keys arguments.asObject).find? (· ∉ template.parameters.map TemplateParameter.name) with
    | some key =>
      .error (.invalidArgument s!"argument '{key}' does not name a template parameter")
    | none => do
      let args ← template.parameters.foldlM addDefault arguments.asObject
      let name := template.skeleton.name
      template.skeleton.nodes.foldlM (fillNode serialize args) { template.skeleton with
        name := if instanceName = "" then name else name ++ "#" ++ instanceName }

def validatedFor (generation : Nat) : Bool :=
  template.validated.isSome && template.validatedGeneration = generation

end GraphTemplate

section Creation

variable {State : Type} (engine : Engine State)

def prevalidate (template : GraphTemplate) (generation : Nat) : Result GraphTemplate := do
  let validated ← validate engine.negotiator engine.factory.describe engine.start template.skeleton
  .ok { template with validated := some validated, validatedGeneration := generation }

/-- `CreateFromTemplate` at the current generation of the operators. -/
def createFromTemplate (serialize : JsonValue → String) (generation : Nat)
    (options : SessionOptions) (ledger : Option Ledger) (template : GraphTemplate)
    (arguments : JsonValue) (instanceName : String) : Result Session := do
  let spec ← template.instantiate serialize arguments instanceName
  if template.validatedFor generation then
    match template.validated with
    | some validated => createPrevalidated engine options ledger spec validated
    | none => create engine options ledger spec
  else
    let refreshed ←
      validate engine.negotiator engine.factory.describe engine.start template.skeleton
    createPrevalidated engine options ledger spec refreshed

end Creation

section Plain

def plain (node : NodeSpec) : NodeSpec := { node with options := .null }

def plainInfo (info : NodeInfo) : NodeInfo := { info with spec := plain info.spec }

def plainSpec (spec : GraphSpec) : GraphSpec := { spec with nodes := spec.nodes.map plain }

variable (resolver : CapabilityResolver) (infos : List NodeInfo)

theorem findInfo_plain (id : String) :
    findInfo (infos.map plainInfo) id = (findInfo infos id).map plainInfo := by
  rw [findInfo, lookup, List.find?_map]
  rfl

theorem endpointCap_plain (id : String) :
    endpointCap (infos.map plainInfo) id = endpointCap infos id := by
  rw [endpointCap, findInfo_plain, Option.bind_map]
  rfl

theorem scanEdge_plain (scan : EdgeScan) (edge : EdgeSpec) :
    scanEdge (infos.map plainInfo) scan edge = scanEdge infos scan edge := by
  simp [scanEdge, endpointIssues, portIssues, outPort, inPort, endpointCap_plain, findInfo_plain]

def plainScan (scan : NodeScan) : NodeScan := { scan with infos := scan.infos.map plainInfo }

theorem scanNode_plain (scan : NodeScan) (entry : NodeSpec × Nat) :
    scanNode resolver (plainScan scan) (plain entry.1, entry.2) =
      plainScan (scanNode resolver scan entry) := by
  have capability : capabilityIssues (plain entry.1) = capabilityIssues entry.1 := by
    funext cap
    cases cap <;> rfl
  have named : (plain entry.1).id = entry.1.id := rfl
  have operator : (plain entry.1).op = entry.1.op := rfl
  by_cases known : (findInfo scan.infos entry.1.id).isSome = true
  · simp [scanNode, plainScan, findInfo_plain, named, known]
  · simp [scanNode, plainScan, findInfo_plain, named, known, capability, plainInfo, operator]

variable (spec : GraphSpec)

theorem scanNodes_plain :
    scanNodes resolver (plainSpec spec) = plainScan (scanNodes resolver spec) := by
  simp only [scanNodes, plainSpec, List.zipIdx_map, List.foldl_map, List.map_eq_nil_iff]
  exact @List.foldl_hom _ _ _ plainScan (scanNode resolver)
    (fun scan entry => scanNode resolver scan (plain entry.1, entry.2)) _ { issues := _ }
    (scanNode_plain resolver)

theorem firstReady_plain (ids : List String) :
    firstReady (infos.map plainInfo) ids = firstReady infos ids := by
  induction ids with
  | nil => rfl
  | cons id rest ih =>
    simp only [firstReady, ih, declaredAt, findInfo_plain, Option.elim_map]
    rfl

theorem kahnLoop_plain (edges : List EdgeSpec) (fuel : Nat) (state : KahnState) :
    kahnLoop (infos.map plainInfo) edges fuel state = kahnLoop infos edges fuel state := by
  induction fuel generalizing state with
  | zero => rfl
  | succ fuel ih => simp only [kahnLoop, firstReady_plain, ih]

theorem plainSpec_nodeIds : (plainSpec spec).nodeIds = spec.nodeIds := by
  simp [GraphSpec.nodeIds, plainSpec, plain]

theorem kahn_plain : kahn (infos.map plainInfo) (plainSpec spec) = kahn infos spec := by
  simp only [kahn, kahnLoop_plain, plainSpec_nodeIds, forwardEdges, findInfo_plain]
  simp [plainSpec]

theorem negotiateStep_plain {State : Type} (negotiator : Negotiator State)
    (scan : NegotiationScan State) (entry : String × OutputUse) :
    negotiateStep negotiator (infos.map plainInfo) scan entry =
      negotiateStep negotiator infos scan entry := by
  have use : portUse negotiator (infos.map plainInfo) = portUse negotiator infos := by
    funext id sync port
    simp only [portUse, findInfo_plain]
    cases findInfo infos id <;> cases port <;> rfl
  simp only [negotiateStep, negotiateOutput, use, inPort, endpointCap_plain]

theorem validate_plain {State : Type} (negotiator : Negotiator State) (start : State)
    (spec : GraphSpec) : validate negotiator resolver start (plainSpec spec) =
      validate negotiator resolver start spec := by
  have edges : (plainSpec spec).edges = spec.edges := rfl
  have scans : scanEdge ((scanNodes resolver spec).infos.map plainInfo) =
      scanEdge (scanNodes resolver spec).infos := by
    funext scan edge
    exact scanEdge_plain _ scan edge
  have cardinality : ∀ scan info, cardinalityIssues scan (plainInfo info) =
    cardinalityIssues scan info := fun _ _ => rfl
  have cycle : cycleIssues (plainSpec spec) = cycleIssues spec := by
    funext final
    simp only [cycleIssues, plainSpec_nodeIds]
    simp [plainSpec]
  have structural : structuralIssues resolver (plainSpec spec) = structuralIssues resolver spec := by
    simp only [structuralIssues, scanNodes_plain, plainScan, scans, edges, kahn_plain,
      List.flatMap_map, cardinality, cycle]
  have steps : negotiateStep negotiator ((scanNodes resolver spec).infos.map plainInfo) =
      negotiateStep negotiator (scanNodes resolver spec).infos := by
    funext scan entry
    exact negotiateStep_plain _ negotiator scan entry
  simp only [validate, structural, scanNodes_plain, plainScan, scans, edges, steps, kahn_plain,
    sourceIds, sinkIds, plainSpec_nodeIds]

variable {State : Type} (negotiator : Negotiator State) (start : State)

theorem validate_empty {spec : GraphSpec} (empty : spec.nodes = []) :
    (validate negotiator resolver start spec).toOption = none := by
  have refused : structuralIssues resolver spec ≠ [] := by
    intro clean
    have scanned := scanEdges_start (List.append_eq_nil_iff.mp (List.append_eq_nil_iff.mp clean).1).1
    exact when_nil.mp (scanNodes_start scanned) empty
  unfold validate
  split
  · rfl
  · contradiction

/-- The name of a graph is read for one message only. -/
theorem validate_named (name : String) :
    (validate negotiator resolver start { spec with name }).toOption =
      (validate negotiator resolver start spec).toOption := by
  by_cases empty : spec.nodes = []
  · rw [validate_empty _ _ _ empty, validate_empty]
    exact empty
  · have same : scanNodes resolver { spec with name } = scanNodes resolver spec := by
      simp [scanNodes, when, empty]
    simp only [validate, structuralIssues, same]
    rfl

end Plain

variable {serialize : JsonValue → String} {template : GraphTemplate}

theorem setOptions_plain (id : String) (options : JsonValue) :
    plainSpec (GraphTemplate.setOptions spec id options) = plainSpec spec := by
  simp only [plainSpec, GraphTemplate.setOptions]
  congr 1
  apply List.ext_getElem?
  intro index
  simp only [List.getElem?_map, List.getElem?_modify]
  cases spec.nodes[index]? with
  | none => rfl
  | some node =>
    split <;> rfl

theorem instantiate_plain {arguments : JsonValue} {instanceName : String} {spec : GraphSpec}
    (done : template.instantiate serialize arguments instanceName = .ok spec) :
    ∃ name, plainSpec spec = { plainSpec template.skeleton with name } := by
  unfold GraphTemplate.instantiate at done
  rw [guard_ok] at done
  obtain ⟨-, done⟩ := done
  split at done
  · cases done
  obtain ⟨args, -, filled⟩ := bind_ok.mp done
  refine ⟨_, foldlM_invariant (fun spec => plainSpec spec = _) ?_ filled rfl⟩
  intro node _ s t step same
  unfold GraphTemplate.fillNode at step
  split at step
  · cases step
  · cases step
    rw [setOptions_plain, same]

/-- Validation does not tell an instance from its skeleton, so a session created from a
prevalidated template is the session created from the instance. -/
theorem instance_validated_alike {State : Type} (engine : Engine State) {arguments : JsonValue}
    {instanceName : String} {spec : GraphSpec}
    (done : template.instantiate serialize arguments instanceName = .ok spec) :
    (validate engine.negotiator engine.factory.describe engine.start spec).toOption =
        (validate engine.negotiator engine.factory.describe engine.start
          template.skeleton).toOption ∧
      ∀ options ledger generation ready, prevalidate engine template generation = .ok ready →
        createFromTemplate engine serialize generation options ledger ready arguments
          instanceName = create engine options ledger spec := by
  obtain ⟨name, plainly⟩ := instantiate_plain done
  have alike : (validate engine.negotiator engine.factory.describe engine.start spec).toOption =
      (validate engine.negotiator engine.factory.describe engine.start
        template.skeleton).toOption := by
    rw [← validate_plain, plainly, validate_named, validate_plain]
  refine ⟨alike, fun options ledger generation ready prevalidated => ?_⟩
  obtain ⟨validated, accepted, same⟩ := bind_ok.mp prevalidated
  cases same
  rw [accepted] at alike
  have valid : validate engine.negotiator engine.factory.describe engine.start spec =
      .ok validated := by
    cases verdict : validate engine.negotiator engine.factory.describe engine.start spec with
    | error status => simp [verdict, Except.toOption] at alike
    | ok out => simpa [verdict, Except.toOption] using alike
  have again : GraphTemplate.instantiate serialize { template with
    validated := some validated, validatedGeneration := generation } arguments instanceName =
      .ok spec := done
  rw [create, valid]
  simp [createFromTemplate, again, GraphTemplate.validatedFor, bind, Except.bind]

def hostTemplate : GraphTemplate where
  skeleton := { directPipeline with nodes := directPipeline.nodes.map fun node =>
    { node with options := .object [("url", .string "rtmp://$\x7bhost\x7d/live")] } }
  parameters := [{ name := "host" }]

theorem hosted_validated_alike : ∃ spec,
    hostTemplate.instantiate (fun _ => "") (.object [("host", .string "edge")]) "one" = .ok spec ∧
      spec.nodes.map NodeSpec.options = List.replicate 2
        (.object [("url", .string "rtmp://edge/live")]) ∧
      (validate pipelineNegotiator pipelineOperators () spec).toOption =
        (validate pipelineNegotiator pipelineOperators () hostTemplate.skeleton).toOption ∧
      ∃ ready, prevalidate pipelineEngine hostTemplate 7 = .ok ready ∧
        createFromTemplate pipelineEngine (fun _ => "") 7 {} none ready
          (.object [("host", .string "edge")]) "one" = create pipelineEngine {} none spec := by
  have done : hostTemplate.instantiate (fun _ => "") (.object [("host", .string "edge")]) "one" =
    .ok { directPipeline with
      name := "pipeline#one"
      nodes := directPipeline.nodes.map fun node =>
        { node with options := .object [("url", .string "rtmp://edge/live")] } } := by
    decide +kernel
  obtain ⟨alike, hosted⟩ := instance_validated_alike pipelineEngine done
  have accepted : (prevalidate pipelineEngine hostTemplate 7).toBool = true := by decide +kernel
  cases prevalidated : prevalidate pipelineEngine hostTemplate 7 with
  | error status =>
    rw [prevalidated] at accepted
    cases accepted
  | ok ready => exact ⟨_, done, rfl, alike, ready, rfl, hosted {} none 7 ready prevalidated⟩

end GraphEngine.GraphTemplates
