import GraphEngine.Capabilities
import GraphEngine.OrderedMaps

/-!
The plugin registry, after plugin_registry.cpp. What `Validate` finds on disk and in the
library is an argument of `load`. The key map is never iterated and is a function; plugins
stand in the order of their ids. State-change callbacks and audit timestamps are left out.
-/

namespace GraphEngine.PluginRegistry

open Values Capabilities

abbrev PluginId := Nat
abbrev Address := Nat

inductive PluginState where
  | discovered | validating | loading | registered | active | retiring | logicallyUnloaded
  | physicallyUnloaded | rejected
  deriving DecidableEq

def PluginState.render : PluginState → String
  | .discovered => "discovered"
  | .validating => "validating"
  | .loading => "loading"
  | .registered => "registered"
  | .active => "active"
  | .retiring => "retiring"
  | .logicallyUnloaded => "logically_unloaded"
  | .physicallyUnloaded => "physically_unloaded"
  | .rejected => "rejected"

def codeName : StatusCode → String
  | .invalidArgument => "INVALID_ARGUMENT"
  | .notFound => "NOT_FOUND"
  | .alreadyExists => "ALREADY_EXISTS"
  | .versionConflict => "VERSION_CONFLICT"
  | .graphInvalid => "GRAPH_INVALID"
  | .capabilityConflict => "CAPABILITY_CONFLICT"
  | .sharedDependency => "SHARED_DEPENDENCY"
  | .resourceExhausted => "RESOURCE_EXHAUSTED"
  | .nodeWarmupFailed => "NODE_WARMUP_FAILED"
  | .parameterUnsupported => "PARAMETER_UNSUPPORTED"
  | .parameterApplyFailed => "PARAMETER_APPLY_FAILED"
  | .pluginAbiMismatch => "PLUGIN_ABI_MISMATCH"
  | .pluginManifestInvalid => "PLUGIN_MANIFEST_INVALID"
  | .pluginRetired => "PLUGIN_RETIRED"
  | .pluginPhysicalUnloadUnsafe => "PLUGIN_PHYSICAL_UNLOAD_UNSAFE"
  | .wouldBlock => "WOULD_BLOCK"
  | .cancelled => "CANCELLED"
  | .internal => "INTERNAL"

structure OperatorCreateArgs where
  key : OperatorKey
  nodeId : Nat := 0
  sessionId : Nat := 0
  topologyVersion : Nat := 0
  deriving DecidableEq

/-- One live operator instance. -/
structure PluginReference where
  pluginId : PluginId
  key : OperatorKey
  sessionId : Nat
  nodeId : Nat
  topologyVersion : Nat
  deriving DecidableEq

def PluginReference.toJson (ref : PluginReference) : JsonValue :=
  .object [("node_id", .integer ref.nodeId), ("operator", .string ref.key.render),
    ("plugin_id", .integer ref.pluginId), ("session_id", .integer ref.sessionId),
    ("topology_version", .integer ref.topologyVersion)]

/-- An operator of a loaded library; the vtable lies in the library. -/
structure OperatorEntry where
  key : OperatorKey
  capability : CapabilityDescriptor
  vtable : Option Address
  deriving DecidableEq

structure PluginManifest where
  pluginId : String
  buildFingerprint : String := ""
  noOwnedThreads : Bool := true
  deriving DecidableEq

structure Loaded where
  handle : Option Address
  manifest : PluginManifest
  manifestPath : String := ""
  libraryPath : String := ""
  operators : List OperatorEntry
  deriving DecidableEq

structure Plugin where
  id : PluginId
  state : PluginState
  loaded : Loaded
  references : List PluginReference := []
  referenceCount : UInt32 := 0
  deriving DecidableEq

def Plugin.operatorKeys (plugin : Plugin) : List OperatorKey :=
  plugin.loaded.operators.map OperatorEntry.key

/-- Registered, active or retiring. -/
def Plugin.live (plugin : Plugin) : Bool :=
  plugin.state = .registered || plugin.state = .active || plugin.state = .retiring

structure PluginInfo where
  id : PluginId
  pluginId : String
  manifestPath : String
  libraryPath : String
  buildFingerprint : String
  state : PluginState
  operators : List OperatorKey
  references : UInt32
  deriving DecidableEq

def infoOf (plugin : Plugin) : PluginInfo where
  id := plugin.id
  pluginId := plugin.loaded.manifest.pluginId
  manifestPath := plugin.loaded.manifestPath
  libraryPath := plugin.loaded.libraryPath
  buildFingerprint := plugin.loaded.manifest.buildFingerprint
  state := plugin.state
  operators := plugin.operatorKeys
  references := plugin.referenceCount

structure AuditRecord where
  pluginId : PluginId
  action : String
  detail : JsonValue
  deriving DecidableEq

structure State where
  plugins : List Plugin := []
  keys : OperatorKey → Option PluginId := fun _ => none
  audit : List AuditRecord := []
  auditCapacity : Nat := 4096
  nextId : PluginId := 1
  operatorGeneration : UInt64 := 0

/-- `Ctx`: the stage next to the extra fields. -/
def contextOf (stage : String) (extra : JsonObject := []) : Option JsonValue :=
  some (.object (OrderedMaps.assign "stage" (.string stage) extra))

def pluginRetired (message : String) : Status := ⟨.pluginRetired, message, false, none⟩

def physicalUnloadUnsafe (message : String) : Status :=
  ⟨.pluginPhysicalUnloadUnsafe, message, true, none⟩

namespace State

variable (state : State)

def find (id : PluginId) : Option Plugin := KeyedLists.lookup Plugin.id id state.plugins

def put (plugin : Plugin) : State :=
  { state with plugins := state.plugins.map fun other =>
      if other.id = plugin.id then plugin else other }

/-- `Append`: the oldest record gives way at capacity. -/
def append (id : PluginId) (action : String) (detail : JsonValue) : State :=
  { state with
    audit := (if state.auditCapacity ≤ state.audit.length then state.audit.drop 1 else state.audit)
      ++ [⟨id, action, detail⟩] }

/-- `Transition`; the plugin itself is written back by the caller. -/
def transition (plugin : Plugin) (target : PluginState) : State × Plugin :=
  if plugin.state = target then (state, plugin)
  else
    (state.append plugin.id "state" (.object [("from", .string plugin.state.render),
      ("to", .string target.render)]), { plugin with state := target })

def registerKeys (plugin : Plugin) : State :=
  { state with
    keys := fun key => if key ∈ plugin.operatorKeys then some plugin.id else state.keys key
    operatorGeneration := state.operatorGeneration + 1 }

def dropKeys (plugin : Plugin) : State :=
  { state with
    keys := fun key => if key ∈ plugin.operatorKeys then none else state.keys key
    operatorGeneration := state.operatorGeneration + 1 }

/-- The common tail of the three ways to a logical unload. -/
def unload (plugin : Plugin) : State :=
  let (moved, unloaded) := (state.dropKeys plugin).transition plugin .logicallyUnloaded
  (moved.append plugin.id "logical_unload" (.object [])).put unloaded

def reject (manifestPath stage : String) (status : Status) : State × Result PluginInfo :=
  (state.append 0 "reject" (.object [("code", .string (codeName status.code)),
    ("manifest", .string manifestPath), ("message", .string status.message),
    ("stage", .string stage)]), .error status)

def sameName (loaded : Loaded) : Option Plugin :=
  state.plugins.find? fun plugin =>
    plugin.live && plugin.loaded.manifest.pluginId = loaded.manifest.pluginId

def takenKey (loaded : Loaded) : Option (OperatorKey × PluginId) :=
  loaded.operators.findSome? fun entry => (state.keys entry.key).map fun id => (entry.key, id)

def load (manifestPath : String) (validated : Except (String × Status) Loaded) :
    State × Result PluginInfo :=
  match validated with
  | .error (stage, status) => state.reject manifestPath stage status
  | .ok loaded =>
    match state.sameName loaded with
    | some plugin =>
      state.reject manifestPath "conflicts" ⟨.alreadyExists, "plugin '" ++
        loaded.manifest.pluginId ++ "' is already loaded", false,
        contextOf "conflicts" [("plugin", .integer plugin.id)]⟩
    | none =>
      match state.takenKey loaded with
      | some (key, owner) =>
        state.reject manifestPath "conflicts" ⟨.alreadyExists, "operator '" ++ key.render ++
          "' is already registered by plugin " ++ toString owner, false,
          contextOf "conflicts" [("operator", .string key.render), ("plugin", .integer owner)]⟩
      | none =>
        let plugin : Plugin := { id := state.nextId, state := .registered, loaded }
        let registered := (State.registerKeys
          { state with plugins := state.plugins ++ [plugin], nextId := state.nextId + 1 }
          plugin).append plugin.id "load" (.object
            [("fingerprint", .string loaded.manifest.buildFingerprint),
             ("library", .string loaded.libraryPath), ("manifest", .string manifestPath),
             ("operators", .array (plugin.operatorKeys.map fun key => .string key.render)),
             ("plugin_id", .string loaded.manifest.pluginId)])
        (registered, .ok (infoOf plugin))

def retire (id : PluginId) : State × Result Unit :=
  match state.find id with
  | none => (state, .error (.notFound ("plugin " ++ toString id)))
  | some plugin =>
    if plugin.state = .retiring then (state, .ok ())
    else if plugin.state ≠ .registered ∧ plugin.state ≠ .active then
      (state, .error (pluginRetired ("plugin " ++ toString id ++ " is " ++ plugin.state.render)))
    else
      let (moved, retiring) := state.transition plugin .retiring
      let audited := (moved.append id "retire" (.object
        [("references", .integer plugin.referenceCount.toNat)])).put retiring
      if plugin.referenceCount = 0 then (audited.unload retiring, .ok ())
      else (audited, .ok ())

def logicalUnload (id : PluginId) : State × Result Unit :=
  match state.find id with
  | none => (state, .error (.notFound ("plugin " ++ toString id)))
  | some plugin =>
    if plugin.state = .logicallyUnloaded ∨ plugin.state = .physicallyUnloaded then (state, .ok ())
    else if plugin.state ≠ .retiring ∧ plugin.state ≠ .registered ∧ plugin.state ≠ .active then
      (state, .error (pluginRetired ("plugin " ++ toString id ++ " is " ++ plugin.state.render)))
    else if plugin.referenceCount ≠ 0 then
      (state, .error ⟨.wouldBlock, "plugin " ++ toString id ++ " still has " ++
        toString plugin.referenceCount.toNat ++ " references", true,
        contextOf "logical_unload" [("references", .integer plugin.referenceCount.toNat)]⟩)
    else (state.unload plugin, .ok ())

/-- Why the library may not be closed, if it may not. -/
def unsafeReason (threadProbe : Option (PluginInfo → Bool)) (plugin : Plugin) : Option String :=
  if plugin.state ≠ .logicallyUnloaded then some "not logically unloaded"
  else if plugin.referenceCount ≠ 0 then some "references remain"
  else if ¬plugin.loaded.manifest.noOwnedThreads then some "plugin may own threads"
  else if threadProbe.any (fun probe => !probe (infoOf plugin)) then some "thread probe failed"
  else none

def closed (plugin : Plugin) : Plugin :=
  { plugin with
    loaded := { plugin.loaded with
      handle := none
      operators := plugin.loaded.operators.map fun entry => { entry with vtable := none } } }

def physicalUnload (threadProbe : Option (PluginInfo → Bool)) (id : PluginId) :
    State × Result Unit :=
  match state.find id with
  | none => (state, .error (.notFound ("plugin " ++ toString id)))
  | some plugin =>
    if plugin.state = .physicallyUnloaded then (state, .ok ())
    else
      match unsafeReason threadProbe plugin with
      | some why =>
        (state.append id "physical_unload_refused" (.object [("reason", .string why)]),
          .error (physicalUnloadUnsafe ("plugin " ++ toString id ++ ": " ++ why)))
      | none =>
        let (moved, unloaded) := state.transition (closed plugin) .physicallyUnloaded
        ((moved.append id "physical_unload" (.object [])).put unloaded, .ok ())

end State

/-- What `Create` hands to the operator: its lease and its entry points. -/
structure Grant where
  lease : PluginReference
  vtable : Address
  isSource : Bool
  deriving DecidableEq

namespace State

variable (state : State)

/-- The locked part of `Create`: a reference is recorded before the plugin is called. -/
def acquire (args : OperatorCreateArgs) : State × Result Grant :=
  let missing : Status := .notFound ("operator '" ++ args.key.render ++ "' not found")
  match state.keys args.key with
  | none => (state, .error missing)
  | some id =>
    match state.find id with
    | none => (state, .error missing)
    | some plugin =>
      if plugin.state ≠ .registered ∧ plugin.state ≠ .active then
        (state, .error (pluginRetired ("operator '" ++ args.key.render ++
          "' belongs to plugin " ++ toString plugin.id ++ " which is " ++
          plugin.state.render)))
      else
        match (plugin.loaded.operators.filter (·.key = args.key)).getLast? with
        | some ⟨_, capability, some vtable⟩ =>
          let lease : PluginReference :=
            ⟨plugin.id, args.key, args.sessionId, args.nodeId, args.topologyVersion⟩
          let referenced := { plugin with
            references := plugin.references ++ [lease]
            referenceCount := plugin.referenceCount + 1 }
          let (moved, active) :=
            (state.append plugin.id "reference" lease.toJson).transition referenced .active
          (moved.put active, .ok ⟨lease, vtable, capability.inputs.isEmpty⟩)
        | _ => (state, .error (.internal "operator entry without vtable"))

/-- The plugin less the first reference that matches the lease. -/
def unreferenced (plugin : Plugin) (lease : PluginReference) : Plugin :=
  { plugin with
    references := plugin.references.eraseP fun ref =>
      ref.sessionId = lease.sessionId ∧ ref.nodeId = lease.nodeId ∧
        ref.topologyVersion = lease.topologyVersion ∧ ref.key = lease.key
    referenceCount :=
      if 0 < plugin.referenceCount then plugin.referenceCount - 1 else plugin.referenceCount }

/-- `on_release`, run by the destructor of a lease. -/
def release (lease : PluginReference) : State :=
  match state.find lease.pluginId with
  | none => state
  | some plugin =>
    let dropped := unreferenced plugin lease
    let audited := (state.append plugin.id "release" lease.toJson).put dropped
    if dropped.state = .retiring ∧ dropped.referenceCount = 0 then audited.unload dropped
    else audited

/-- `Create`; the plugin's own `create` answers through `made`. A failed one drops the lease. -/
def create (args : OperatorCreateArgs) (made : Result Unit) : State × Result Grant :=
  match state.acquire args with
  | (after, .error status) => (after, .error status)
  | (after, .ok grant) =>
    match made with
    | .ok () => (after, .ok grant)
    | .error status => (after.release grant.lease, .error status)

end State

end GraphEngine.PluginRegistry
