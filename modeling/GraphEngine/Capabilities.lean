import Mathlib.Data.Rat.Defs
import GraphEngine.GraphSpecs

/-!
Operator capabilities and negotiated contracts, after capability.h. An absent
constraint dimension means "unconstrained". Frame rates are finite doubles and
are kept by value. A descriptor's text description, event lists and parameter
schema are read by nothing modelled here and are left out.
-/

namespace GraphEngine.Capabilities

open Values GraphSpecs

inductive PortDirection where
  | input | output
  deriving DecidableEq

inductive PortCardinality where
  | single | multi
  deriving DecidableEq

inductive MemoryKind where
  | host | pinned | cudaDevice | dmaBuf
  deriving DecidableEq

inductive DeviceKind where
  | cpu | gpu
  deriving DecidableEq

structure Range (Bound : Type) where
  min : Bound
  max : Bound
  deriving DecidableEq

abbrev IntRange := Range Int
abbrev RationalRange := Range Rat
abbrev FormatSet := List String

structure VideoConstraints where
  pixelFormats : Option FormatSet := none
  width : Option IntRange := none
  height : Option IntRange := none
  fps : Option RationalRange := none
  colorSpaces : Option FormatSet := none
  colorRanges : Option FormatSet := none
  hdrModes : Option FormatSet := none
  deriving DecidableEq

structure AudioConstraints where
  sampleFormats : Option FormatSet := none
  sampleRate : Option IntRange := none
  channelLayouts : Option FormatSet := none
  deriving DecidableEq

structure TensorConstraints where
  dtypes : Option FormatSet := none
  layouts : Option FormatSet := none
  shape : List IntRange := []
  deriving DecidableEq

structure MemoryConstraints where
  kinds : Option (List MemoryKind) := none
  deviceIds : Option (List Int) := none
  zeroCopyRequired : Bool := false
  deriving DecidableEq

structure PortCapability where
  name : String
  direction : PortDirection := .input
  typeTag : String := ""
  required : Bool := true
  cardinality : PortCardinality := .single
  dynamicConsumers : Bool := false
  video : Option VideoConstraints := none
  audio : Option AudioConstraints := none
  tensor : Option TensorConstraints := none
  memory : MemoryConstraints := {}
  sync : Option (List SyncPolicy) := none
  deriving DecidableEq

structure ExecutionCapability where
  devices : List DeviceKind := []
  stateful : Bool := true
  async : Bool := false
  maxParallelism : UInt32 := 1
  zeroCopy : Bool := false
  maxInferenceMs : Option UInt64 := none
  deriving DecidableEq

structure ParameterCapability where
  hotUpdatable : List String := []
  migratable : List String := []
  deriving DecidableEq

/-- Declared amounts per resource name, in ascending name order; an
`std::int64_t` each. -/
structure ResourceEstimate where
  amounts : List (String × Int) := []
  deriving DecidableEq

abbrev CapabilityVersion := UInt64

structure CapabilityDescriptor where
  op : OperatorKey
  inputs : List PortCapability := []
  outputs : List PortCapability := []
  execution : ExecutionCapability := {}
  parameters : ParameterCapability := {}
  resources : ResourceEstimate := {}
  deriving DecidableEq

def CapabilityDescriptor.findInput (cap : CapabilityDescriptor) (name : String) :
    Option PortCapability :=
  KeyedLists.lookup PortCapability.name name cap.inputs

def CapabilityDescriptor.findOutput (cap : CapabilityDescriptor) (name : String) :
    Option PortCapability :=
  KeyedLists.lookup PortCapability.name name cap.outputs

/-- `CapabilityResolver`; an unset resolver is the one that knows nothing. -/
abbrev CapabilityResolver := OperatorKey → Option CapabilityDescriptor

structure SelectedVideoFormat where
  pixelFormat : String := ""
  width : Option IntRange := none
  height : Option IntRange := none
  fps : Option RationalRange := none
  colorSpace : Option String := none
  colorRange : Option String := none
  hdrMode : Option String := none
  deriving DecidableEq

structure SelectedAudioFormat where
  sampleFormat : String := ""
  sampleRate : Option IntRange := none
  channelLayout : Option String := none
  deriving DecidableEq

structure SelectedTensorFormat where
  dtype : String := ""
  layout : Option String := none
  shape : List IntRange := []
  deriving DecidableEq

structure ConnectionContract where
  logicalType : String := ""
  video : Option SelectedVideoFormat := none
  audio : Option SelectedAudioFormat := none
  tensor : Option SelectedTensorFormat := none
  memoryKind : MemoryKind := .host
  deviceId : Int := -1
  syncPolicy : SyncPolicy := .any
  sourceCapability : CapabilityVersion := 0
  targetCapability : CapabilityVersion := 0
  deriving DecidableEq

/-- Data-plane equality: the two capability fingerprints only say who
negotiated and are ignored. -/
def ConnectionContract.sameDataPlane (left right : ConnectionContract) : Bool :=
  left.logicalType = right.logicalType && left.video = right.video &&
    left.audio = right.audio && left.tensor = right.tensor &&
    left.memoryKind = right.memoryKind && left.deviceId = right.deviceId &&
    left.syncPolicy = right.syncPolicy

end GraphEngine.Capabilities
