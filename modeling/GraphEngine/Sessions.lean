import Mathlib.Data.List.Infix
import GraphEngine.Applier
import GraphEngine.Ledgers
import GraphEngine.TopologyChains

/-!
A session and its `MutationCoordinator` (session.cpp). A mutation is admitted
(apply, migrate, validate, diff, build, reserve), warmed up (open the new nodes)
and committed (check and submit parameters, publish); `execute` runs the three in
a row. What the operators answer, whether a stop overtakes the publish and which
ports have ended are inputs.
-/

namespace GraphEngine.Sessions

open Values GraphSpecs Capabilities OrderedMaps KeyedSums Ledgers Applier Validation StructuralDiff
  NodeRuntimes Topologies TopologyChains

inductive SessionState where
  | created | starting | running | pausing | paused | stopping | stopped | failed
  deriving DecidableEq

def SessionState.render : SessionState → String
  | .created => "created"
  | .starting => "starting"
  | .running => "running"
  | .pausing => "pausing"
  | .paused => "paused"
  | .stopping => "stopping"
  | .stopped => "stopped"
  | .failed => "failed"

structure SessionOptions where
  id : Nat := 1
  mutationMergeLimit : Nat := 8
  rejectUnbudgetedEdges : Bool := false
  deriving DecidableEq

structure MutationRequest where
  operation : Nat
  patch : MutationPatch
  deriving DecidableEq

/-- Requests that are executed as one patch. -/
structure Merged where
  patch : MutationPatch := { actions := [] }
  origins : List MutationRequest := []
  deriving DecidableEq

/-- A published version whose predecessor is not gone yet; `removed` goes back to
the ledger when it is. -/
structure Retirement where
  policy : RemovePolicy
  removedNodes : List NodeRef
  removedEdges : List ChannelRef
  removed : ResourceAmounts
  operations : List Nat
  deriving DecidableEq

/-- `lease` is unset for a session without a ledger; the ledger is shared with the
other sessions of the engine. `stopping` is the scheduler's flag. -/
structure Session where
  options : SessionOptions := {}
  state : SessionState := .running
  store : Store
  topology : RuntimeTopology
  ledger : Ledger := []
  lease : Option ResourceAmounts := none
  stopping : Bool := false
  retiring : List Retirement := []
  deriving DecidableEq

/-- The engine around a session. `create` of the factory may refuse, `opens` is
the answer of an operator's `Open`. -/
structure Engine (State : Type) where
  factory : OperatorFactory
  estimate : NodeResourceEstimator
  negotiator : Negotiator State
  start : State
  opens : NodeRuntime → Result Unit

namespace Session

def acceptsMutations (session : Session) : Bool :=
  session.state = .running || session.state = .paused

def notMutable (session : Session) : Status :=
  .invalidArgument (s!"session {session.options.id} is {session.state.render}" ++
    "; mutations and parameter updates need running/paused")

def reserveResources (session : Session) (delta : ResourceAmounts) (purpose : String) :
    Result Session :=
  if delta = [] then .ok session
  else
    match session.lease with
    | none => .ok session
    | some amounts =>
      match session.ledger.commitLease amounts (mergeAmounts (amounts ++ delta)) purpose with
      | .error status => .error status
      | .ok (ledger, amounts) => .ok { session with ledger := ledger, lease := some amounts }

/-- A refusal is ignored; shrinking is never refused. -/
def returnResources (session : Session) (delta : ResourceAmounts) : Session :=
  if delta = [] then session
  else
    match session.lease with
    | none => session
    | some amounts =>
      match session.ledger.commitLease amounts (mergeAmounts (deduct delta amounts)) "retire" with
      | .error _ => session
      | .ok (ledger, amounts) => { session with ledger := ledger, lease := some amounts }

end Session

/-! Node life cycle, as far as a candidate goes through it. -/

def updateNode (store : Store) (ref : NodeRef) (change : NodeRuntime → NodeRuntime) : Store :=
  { store with nodes := store.nodes.modify ref change }

def moveTo (state : NodeState) (node : NodeRuntime) : NodeRuntime := { node with state := state }

def closeNode (store : Store) (ref : NodeRef) : Store := updateNode store ref (moveTo .closed)

/-- Opens the nodes that are still `Created`, in topological order. The first
refusal closes those already opened. -/
def openFrom (opens : NodeRuntime → Result Unit) (topology : RuntimeTopology) :
    List String → List NodeRef → Store → Result Unit × Store
  | [], _, store => (.ok (), store)
  | id :: rest, opened, store =>
    match topology.findNode store id with
    | none => (.error (.internal s!"no node '{id}'"), store)
    | some ref =>
      match store.nodes[ref]? with
      | none => (.error (.internal s!"no node '{id}'"), store)
      | some node =>
        if node.state ≠ .created then openFrom opens topology rest opened store
        else
          match opens node with
          | .error status =>
            (.error (.nodeWarmupFailed
              s!"node '{node.externalId}' open failed: {status.message}"),
              opened.foldl closeNode (updateNode store ref (moveTo .failed)))
          | .ok () =>
            openFrom opens topology rest (opened ++ [ref])
              (updateNode store ref (moveTo .ready))

/-- `OpenNodes`. A missing node would be a null dereference; the order lists the
nodes of the topology only. -/
def openNodes (opens : NodeRuntime → Result Unit) (topology : RuntimeTopology) (store : Store) :
    Result Unit × Store :=
  openFrom opens topology topology.order [] store

def abandonNode (store : Store) (ref : NodeRef) : Store :=
  updateNode store ref fun node =>
    if node.state = .closed ∨ node.state = .failed then node else moveTo .closed node

/-- `AbandonCandidate`: every new node that is not closed or failed is closed. -/
def abandonCandidate (topology : RuntimeTopology) (store : Store) : Store :=
  topology.newNodes.foldl abandonNode store

/-! Batches. -/

/-- A patch pinned to a base version only applies to that version. -/
def baseVersionCheck (patch : MutationPatch) (current : Nat) : Result Unit :=
  match patch.baseTopologyVersion with
  | none => .ok ()
  | some version =>
    if version = current then .ok ()
    else .error (.versionConflict
      s!"patch base_topology_version {version} != current {current}")

/-- The live values a replacement inherits: those its operator marks migratable,
unless the request sets them. -/
def inherited (cap : CapabilityDescriptor) (requested live options : JsonObject) : JsonObject :=
  cap.parameters.migratable.foldl (fun merged key =>
    if (find key requested).isSome then merged
    else
      match find key live with
      | some value => assign key value merged
      | none => merged) options

def withOptions (spec : GraphSpec) (id : String) (options : JsonValue) : GraphSpec :=
  { spec with nodes := spec.nodes.map fun node =>
      if node.id = id then { node with options := options } else node }

def migrateOne (describe : CapabilityResolver) (store : Store) (base : RuntimeTopology)
    (candidate : GraphSpec) (action : MutationAction) : GraphSpec :=
  match action with
  | .replaceNode replace =>
    match (base.findNode store replace.node).bind (store.nodes[·]?),
        candidate.findNode replace.node, describe replace.replacementOp with
    | some old, some fresh, some cap =>
      withOptions candidate replace.node (.object (inherited cap
        replace.replacementOptions.asObject old.parameters.current.values
        fresh.options.asObject))
    | _, _, _ => candidate
  | _ => candidate

def migrateParameters (describe : CapabilityResolver) (store : Store) (base : RuntimeTopology)
    (patch : MutationPatch) (candidate : GraphSpec) : GraphSpec :=
  patch.actions.foldl (migrateOne describe store base) candidate

def applyPatch (describe : CapabilityResolver) (store : Store) (base : RuntimeTopology)
    (patch : MutationPatch) : Result CandidateSpec := do
  let out ← apply describe base.spec patch
  .ok { out with candidate := migrateParameters describe store base patch out.candidate }

/-- What a batch waits for or ends in. `cancelled` is the fate of a batch that
lost against a stop. -/
inductive Outcome where
  | failed (status : Status) (action : String)
  | cancelled (reason : String)
  | published (version : Nat)
  deriving DecidableEq

def Outcome.undone : Outcome → Bool
  | .failed _ _ => true
  | .cancelled _ => true
  | .published _ => false

/-- The first action whose name the message mentions. -/
def blamedAction (actions : List MutationAction) (message : String) : String :=
  ((actions.map actionTypeName).find? fun name => name.toList <:+: message.toList).getD ""

/-! Admission. -/

namespace Admission

def addNodes (diff : GraphDiff) : List String := diff.nodesOf .added ++ diff.nodesOf .replaced

def addEdges (diff : GraphDiff) : List String := diff.edgesOf .added ++ diff.edgesOf .recreated

def rmNodes (diff : GraphDiff) : List String := diff.nodesOf .removed ++ diff.nodesOf .replaced

def rmEdges (diff : GraphDiff) : List String := diff.edgesOf .removed ++ diff.edgesOf .recreated

def estimateForAdmission (estimate : NodeResourceEstimator) (spec : GraphSpec)
    (contracts : Contracts) (rejectUnbudgeted : Bool) (onlyNodes onlyEdges : List String) :
    Result ResourceAmounts :=
  let est := estimateGraphResources estimate spec contracts onlyNodes onlyEdges
  match rejectUnbudgeted, est.unbudgetedEdges with
  | true, first :: rest =>
    .error (.graphInvalid
      (s!"edge '{first}' has no derivable packet bound; " ++
        "set queue.max_packet_bytes (12 §10.3)")
      (some (.object [("unbudgeted_edges", .array ((first :: rest).map .string))])))
  | _, _ => .ok est.amounts

/-- What a version adds; replaced and recreated entries count on both sides. -/
def added (estimate : NodeResourceEstimator) (reject : Bool) (diff : GraphDiff)
    (candidate : GraphSpec) (contracts : Contracts) : Result ResourceAmounts :=
  if addNodes diff = [] ∧ addEdges diff = [] then .ok []
  else estimateForAdmission estimate candidate contracts reject (addNodes diff) (addEdges diff)

/-- What a version takes out. -/
def removed (estimate : NodeResourceEstimator) (diff : GraphDiff) (base : RuntimeTopology) :
    ResourceAmounts :=
  if rmNodes diff = [] ∧ rmEdges diff = [] then []
  else
    match estimateForAdmission estimate base.spec base.validated.edgeContracts false
      (rmNodes diff) (rmEdges diff) with
    | .ok amounts => amounts
    | .error _ => []

end Admission

structure Prepared where
  candidate : RuntimeTopology
  changes : CandidateSpec
  diff : GraphDiff
  added : ResourceAmounts
  removed : ResourceAmounts
  policy : RemovePolicy
  deriving DecidableEq

section Phases

variable {State : Type} (engine : Engine State)

/-- A failure inside the engine (`at`, null) ends the process in the source; it is
an internal error here. -/
def buildStatus : BuildError → Status
  | .status status => status
  | .outOfRange => .internal "map::at"
  | .nullPointer => .internal "null"

/-- `Prepare` up to the reservation. A session is returned in every case: after a
refused admission it holds the abandoned candidate's nodes, closed. -/
def prepareCandidate (patch : MutationPatch) (session : Session) : Result Prepared × Session :=
  let base := session.topology
  let version := base.version + 1
  match applyPatch engine.factory.describe session.store base patch with
  | .error status => (.error status, session)
  | .ok changes =>
    match validate engine.negotiator engine.factory.describe engine.start changes.candidate with
    | .error status => (.error status, session)
    | .ok validated =>
      let diff := diffFrom base changes.candidate validated
      match build engine.factory
        (mutationOptions session.options.id version base changes.candidate validated)
        session.store changes.candidate validated with
      | .error error => (.error (buildStatus error), session)
      | .ok (store, candidate) =>
        let abandoned := { session with store := abandonCandidate candidate store }
        match Admission.added engine.estimate session.options.rejectUnbudgetedEdges diff
          changes.candidate validated.edgeContracts with
        | .error status => (.error status, abandoned)
        | .ok added =>
          match session.reserveResources added s!"mutation v{version}" with
          | .error status => (.error status, abandoned)
          | .ok reserved =>
            (.ok {
                candidate := candidate
                changes := changes
                diff := diff
                added := added
                removed := Admission.removed engine.estimate diff base
                policy := patch.removePolicy },
              { reserved with store := store })

/-- Undoes an admission: the new nodes are closed and the reservation returned. -/
def withdraw (prepared : Prepared) (session : Session) : Session :=
  Session.returnResources
    { session with store := abandonCandidate prepared.candidate session.store } prepared.added

/-- The warm-up of `Prepare`. -/
def warmUp (prepared : Prepared) (session : Session) : Result Unit × Session :=
  match openNodes engine.opens prepared.candidate session.store with
  | (.ok (), store) => (.ok (), { session with store := store })
  | (.error status, store) => (.error status, withdraw prepared { session with store := store })

/-- One `set_node_options`: the node of the candidate it goes to. -/
def checkUpdate (candidate : RuntimeTopology) (store : Store) (update : SetNodeOptionsAction) :
    Result NodeRef :=
  match candidate.findNode store update.node with
  | none => .error (.notFound s!"set_node_options: node '{update.node}' not found")
  | some ref =>
    if update.parameters.isObject = false then
      .error (.invalidArgument "set_node_options: parameters must be an object")
    else
      match (keys update.parameters.asObject).find? fun key =>
        ((store.nodes[ref]?).all fun node => key ∉ node.capability.parameters.hotUpdatable) with
      | some key =>
        .error (.parameterUnsupported
          s!"parameter '{key}' of node '{update.node}' is not hot-updatable")
      | none => .ok ref

/-- All updates are checked before any is submitted. -/
def checkUpdates (candidate : RuntimeTopology) (store : Store) (operation : Nat)
    (updates : List SetNodeOptionsAction) : Result (List (NodeRef × ParameterUpdateRequest)) :=
  updates.mapM fun update => do
    let ref ← checkUpdate candidate store update
    .ok (ref, ⟨operation, update.parameters⟩)

/-- `Submit` on one node; its answer is ignored. -/
def submitTo (request : ParameterUpdateRequest) (node : NodeRuntime) : NodeRuntime :=
  match node.parameters.submit request node.capability.parameters.hotUpdatable with
  | .ok (parameters, _) => { node with parameters := parameters }
  | .error _ => node

def submitUpdates (updates : List (NodeRef × ParameterUpdateRequest)) (store : Store) : Store :=
  updates.foldl (fun store update => updateNode store update.1 (submitTo update.2)) store

/-- `Rebind` of one binding. The old edge of a rewired port goes on feeding it,
unless the port had ended. -/
def rebind (ended : String → Bool) (current next : InputBinding) : InputBinding :=
  { next with ports := next.ports.map fun port =>
      match KeyedLists.lookup InputPortBinding.port port.port current.ports with
      | none => port
      | some old =>
        if old.edge = port.edge then { port with predecessors := old.predecessors }
        else
          let fading := old.edge.toList.filter fun _ => !ended port.port
          { port with predecessors := old.predecessors ++ fading } }

def applyRebinds (ended : BindingRef → String → Bool) (topology : RuntimeTopology)
    (store : Store) : Store :=
  topology.rebinds.foldl (fun store entry =>
    match find entry.1 topology.inputs with
    | none => store
    | some ref =>
      let rebound := store.bindings.modify ref fun current => rebind (ended ref) current entry.2
      { store with bindings := rebound }) store

/-- `Publish`, as far as the session sees it: refused when the scheduler is
stopping, else the swap; the old version starts to retire. -/
def publish (ended : BindingRef → String → Bool) (prepared : Prepared) (operations : List Nat)
    (session : Session) : Result Session :=
  if session.stopping then .error (.cancelled "session stopping: topology not published")
  else
    let next := prepared.candidate
    .ok { session with
      store := applyRebinds ended next session.store
      topology := { next with rebinds := [] }
      retiring := session.retiring ++ [{
        policy := prepared.policy
        removedNodes := session.topology.nodes.filter fun ref => ref ∉ next.nodes
        removedEdges := session.topology.edges.filter fun ref => ref ∉ next.edges
        removed := prepared.removed
        operations := operations }] }

/-- The rest of `Execute` after a successful preparation. -/
def commit (ended : BindingRef → String → Bool) (batch : Merged) (prepared : Prepared)
    (session : Session) : Outcome × Session :=
  let operation := (batch.origins.head?.map MutationRequest.operation).getD 0
  match checkUpdates prepared.candidate session.store operation
    prepared.changes.parameterUpdates with
  | .error status => (.failed status "set_node_options", withdraw prepared session)
  | .ok updates =>
    let submitted := { session with store := submitUpdates updates session.store }
    match publish ended prepared (batch.origins.map MutationRequest.operation) submitted with
    | .error status => (.cancelled status.message, withdraw prepared submitted)
    | .ok published => (.published prepared.candidate.version, published)

/-- `Execute`; `raced` says that a stop sets the scheduler's flag before the
publish looks at it. -/
def execute (ended : BindingRef → String → Bool) (raced : Bool) (batch : Merged)
    (session : Session) : Outcome × Session :=
  if session.acceptsMutations = false then (.failed session.notMutable "", session)
  else
    match baseVersionCheck batch.patch session.topology.version with
    | .error status => (.failed status "", session)
    | .ok () =>
      match prepareCandidate engine batch.patch session with
      | (.error status, after) =>
        (.failed status (blamedAction batch.patch.actions status.message), after)
      | (.ok prepared, admitted) =>
        match warmUp engine prepared admitted with
        | (.error status, after) =>
          (.failed status (blamedAction batch.patch.actions status.message), after)
        | (.ok (), warmed) =>
          commit ended batch prepared { warmed with stopping := warmed.stopping || raced }

def initialLease (options : SessionOptions) (ledger : Option Ledger) (spec : GraphSpec)
    (contracts : Contracts) : Result (Ledger × Option ResourceAmounts) :=
  match ledger with
  | none => .ok ([], none)
  | some ledger =>
    match Admission.estimateForAdmission engine.estimate spec contracts
      options.rejectUnbudgetedEdges [] [] with
    | .error status => .error status
    | .ok amounts =>
      match ledger.reserve amounts s!"session {options.id}" with
      | .error status => .error status
      | .ok (ledger, lease) => .ok (ledger, some lease)

/-- `Session::Create` with `prevalidated` set. -/
def createPrevalidated (options : SessionOptions) (ledger : Option Ledger) (spec : GraphSpec)
    (validated : ValidatedGraph) : Result Session := do
  let (ledger, lease) ← initialLease engine options ledger spec validated.edgeContracts
  match build engine.factory { sessionId := options.id } {} spec validated with
  | .error error => .error (buildStatus error)
  | .ok (store, topology) =>
    .ok {
      options := options
      state := .created
      store := store
      topology := topology
      ledger := ledger
      lease := lease }

/-- `Session::Create` for a graph that is not validated yet. -/
def create (options : SessionOptions) (ledger : Option Ledger) (spec : GraphSpec) :
    Result Session := do
  let validated ← validate engine.negotiator engine.factory.describe engine.start spec
  createPrevalidated engine options ledger spec validated

/-- `Session::Start`: the session runs once every node is open. -/
def start (session : Session) : Result Unit × Session :=
  if session.state ≠ .created then
    (.error (.invalidArgument s!"session cannot start from state {session.state.render}"), session)
  else
    match openNodes engine.opens session.topology session.store with
    | (.error status, store) => (.error status, { session with store := store, state := .failed })
    | (.ok (), store) => (.ok (), { session with store := store, state := .running })

/-- The end of a retirement: its callback returns the resources. -/
def completeRetirement (retirement : Retirement) (session : Session) : Session :=
  Session.returnResources
    { session with retiring := session.retiring.erase retirement } retirement.removed

end Phases

end GraphEngine.Sessions
