import GraphEngine.StructuralDiff

/-!
The objects a topology is made of, after node_runtime.h, edge_channel.h and
input_binding.h: node runtimes with their parameter store, edge channels with
their endpoints, input bindings. Objects live in a store and are referred to by
address, so that sharing between topology versions is visible. Queue contents
and scheduling slots belong to the data plane and are modelled there.
-/

namespace GraphEngine.NodeRuntimes

open Values GraphSpecs Capabilities OrderedMaps

inductive NodeState where
  | created | opening | ready | running | asyncPending | draining | closing | closed | failed
  deriving DecidableEq

structure ParameterSnapshot where
  version : Nat
  values : JsonObject
  effectiveAfterSeq : Nat := 0
  deriving DecidableEq

structure ParameterUpdateRequest where
  operation : Nat
  values : JsonValue
  deriving DecidableEq

structure ParameterStore where
  current : ParameterSnapshot
  pending : Option ParameterSnapshot := none
  queued : List ParameterUpdateRequest := []
  lastHotUpdatable : List String := []
  deriving DecidableEq

/-- `for (key, value) : updates) values[key] = value`. -/
def overlay (updates values : JsonObject) : JsonObject := assignAll updates values

namespace ParameterStore

def create (initial : JsonValue) : ParameterStore :=
  { current := { version := 1, values := initial.asObject } }

def next (store : ParameterStore) (updates : JsonObject) : ParameterSnapshot :=
  { version := store.current.version + 1, values := overlay updates store.current.values }

/-- The store after `Submit`, and the version the update will carry. -/
def submit (request : ParameterUpdateRequest) (hotUpdatable : List String)
    (store : ParameterStore) : Result (ParameterStore × Nat) :=
  if request.values.isObject = false then
    .error (.invalidArgument "parameter update must be a JSON object")
  else
    match (keys request.values.asObject).find? (· ∉ hotUpdatable) with
    | some key =>
      .error (.parameterUnsupported
        s!"parameter '{key}' is not hot-updatable; use a Mutation")
    | none =>
      match store.pending with
      | some pending =>
        let queued := store.queued ++ [request]
        .ok ({ store with lastHotUpdatable := hotUpdatable, queued := queued },
          pending.version + queued.length)
      | none =>
        let next := store.next request.values.asObject
        .ok ({ store with lastHotUpdatable := hotUpdatable, pending := some next },
          next.version)

/-- Takes queued requests until one becomes pending; a request with a key that
is no longer hot-updatable is skipped. -/
def promote (store : ParameterStore) : List ParameterUpdateRequest → ParameterStore
  | [] => { store with queued := [] }
  | request :: rest =>
    if (keys request.values.asObject).all (· ∈ store.lastHotUpdatable) then
      { store with pending := some (store.next request.values.asObject), queued := rest }
    else promote store rest

def promoteQueued (store : ParameterStore) : ParameterStore :=
  match store.pending with
  | some _ => store
  | none => promote store store.queued

/-- `SwitchAtPacketBoundary`; the audit history is left out. -/
def switchAtPacketBoundary (seq : Nat) (store : ParameterStore) : ParameterStore :=
  match store.pending with
  | none => store
  | some pending =>
    promoteQueued { store with
      current := { pending with effectiveAfterSeq := seq }, pending := none }

def rejectPending (store : ParameterStore) : ParameterStore :=
  promoteQueued { store with pending := none }

end ParameterStore

structure NodeRuntime where
  id : Nat
  externalId : String
  key : OperatorKey
  capability : CapabilityDescriptor
  options : JsonValue
  maxParallelism : UInt32
  parameters : ParameterStore
  state : NodeState := .created
  deriving DecidableEq

/-- Stateful and asynchronous operators run one invocation at a time; otherwise
the requested parallelism is clamped to what the operator allows. -/
def clampParallelism (execution : ExecutionCapability) (parallelism : UInt32) : UInt32 :=
  if execution.stateful || execution.async then 1
  else max 1 (min parallelism (max 1 execution.maxParallelism))

def NodeRuntime.create (id : Nat) (externalId : String) (key : OperatorKey)
    (capability : CapabilityDescriptor) (options : JsonValue) (parallelism : UInt32) :
    NodeRuntime where
  id := id
  externalId := externalId
  key := key
  capability := capability
  options := options
  maxParallelism := clampParallelism capability.execution parallelism
  parameters := .create options

abbrev NodeRef := Nat
abbrev ChannelRef := Nat
abbrev BindingRef := Nat

structure EdgeConfig where
  capacity : UInt32
  policy : DropPolicy
  syncPolicy : SyncPolicy
  deriving DecidableEq

structure EdgeChannel where
  id : Nat
  externalId : String
  contract : ConnectionContract
  config : EdgeConfig
  fromPort : PortRef
  toPort : PortRef
  producer : NodeRef
  consumer : NodeRef
  deriving DecidableEq

/-- One input port; an unconnected optional port has no edge. Predecessors are
retired edges that still feed the port. -/
structure InputPortBinding where
  port : String
  edge : Option ChannelRef
  required : Bool
  predecessors : List ChannelRef := []
  deriving DecidableEq

structure InputBinding where
  ports : List InputPortBinding
  policy : SyncPolicy
  deriving DecidableEq

structure Store where
  nodes : List NodeRuntime := []
  channels : List EdgeChannel := []
  bindings : List InputBinding := []
  deriving DecidableEq

/-- What a node runtime never changes after construction. -/
def NodeRuntime.identity (node : NodeRuntime) :
    Nat × String × OperatorKey × CapabilityDescriptor × JsonValue × UInt32 :=
  (node.id, node.externalId, node.key, node.capability, node.options, node.maxParallelism)

/-- A later store: every object is still there, with its construction data.
Parameters, node states and bindings may have moved on, and other candidates
may have been built. -/
structure Store.Evolves (before after : Store) : Prop where
  nodes : ∀ (ref : Nat) node, before.nodes[ref]? = some node →
    ∃ later, after.nodes[ref]? = some later ∧ later.identity = node.identity
  channels : ∀ (ref : Nat) channel, before.channels[ref]? = some channel →
    after.channels[ref]? = some channel
  bindings : ∀ ref, ref < before.bindings.length → ref < after.bindings.length

theorem Store.evolves_refl (store : Store) : store.Evolves store where
  nodes := fun _ node found => ⟨node, found, rfl⟩
  channels := fun _ _ found => found
  bindings := fun _ bound => bound

theorem Store.evolves_trans {first second third : Store} (left : first.Evolves second)
    (right : second.Evolves third) : first.Evolves third where
  nodes := by
    intro ref node found
    obtain ⟨middle, foundMiddle, sameMiddle⟩ := left.nodes ref node found
    obtain ⟨last, foundLast, sameLast⟩ := right.nodes ref middle foundMiddle
    exact ⟨last, foundLast, sameLast.trans sameMiddle⟩
  channels := fun ref channel found => right.channels ref channel (left.channels ref channel found)
  bindings := fun ref bound => right.bindings ref (left.bindings ref bound)

end GraphEngine.NodeRuntimes
