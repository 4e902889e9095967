import Mathlib.Algebra.Order.Ring.Unbundled.Rat
import GraphEngine.Capabilities
import GraphEngine.Constraints
import GraphEngine.OrderedMaps

/-!
Capability negotiation, `NegotiateUncached` in capability.cpp: the constraints of
an output port and of all its inputs are intersected dimension by dimension, and
one value of each is chosen. The first empty dimension is reported as a conflict.
-/

namespace GraphEngine.Negotiation

open GraphSpecs Capabilities OrderedMaps Constraints

structure PreferenceSet where
  ordered : List (String × FormatSet) := []
  memoryKind : Option MemoryKind := none
  deviceId : Option Int := none
  syncPolicy : Option SyncPolicy := none
  deriving DecidableEq

/-- What a conflict reports of a side; the source keeps it as JSON text. -/
inductive Candidates where
  | anything
  | nothing
  | names (set : FormatSet)
  | integers (range : IntRange)
  | rates (range : RationalRange)
  | rank (size : Nat)
  | kinds (set : List MemoryKind)
  | policies (set : List SyncPolicy)
  | text (value : String)
  deriving DecidableEq

structure CapabilityConflict where
  dimension : String
  lhs : Candidates
  rhs : Candidates
  suggestedConverter : String
  consumers : List String
  deriving DecidableEq

/-- A port on the wrong side of the negotiation, or a conflict. -/
inductive Refusal where
  | invalidArgument (message : String)
  | conflict (found : CapabilityConflict)
  deriving DecidableEq

def isBuiltinTypeTag (tag : String) : Bool :=
  tag ∈ ["VideoFrame", "AudioFrame", "Tensor", "Bytes", "Json", "EncodedVideo", "EncodedAudio"]

def suggestConverter (dimension typeTag : String) : String :=
  let copied := dimension = "memory_kind" ∨ dimension = "device_id"
  if dimension = "logical_type" then ""
  else if typeTag = "VideoFrame" then
    if dimension = "width" ∨ dimension = "height" then "VideoScale"
    else if dimension = "fps" then "VideoRate"
    else if copied then "MemoryCopy"
    else "VideoConvert"
  else if typeTag = "AudioFrame" then if copied then "MemoryCopy" else "AudioResample"
  else if typeTag = "Tensor" then if copied then "MemoryCopy" else "TensorConvert"
  else if copied then "MemoryCopy"
  else ""

section Ranges

variable {Bound : Type} [LinearOrder Bound]

def Range.isEmpty (range : Range Bound) : Bool := range.max < range.min

def Range.intersect (left right : Range Bound) : Range Bound where
  min := if right.min < left.min then left.min else right.min
  max := if left.max < right.max then left.max else right.max

def intersectRanges : Option (Range Bound) → Option (Range Bound) → Option (Range Bound)
  | none, right => right
  | left, none => left
  | some left, some right => some (Range.intersect left right)

end Ranges

/-- Caller preference, then input priority, then output priority: `common` is in
the order of the output. -/
def chooseDeterministically (common : FormatSet) (callerPref inputPriority : Option FormatSet) :
    String :=
  match (callerPref.getD []).find? (· ∈ common), (inputPriority.getD []).find? (· ∈ common) with
  | some choice, _ => choice
  | none, some choice => choice
  | none, none => common.headD ""

section Negotiate

variable (output : PortCapability) (inputs : List PortCapability) (pref : PreferenceSet)
  (consumerNames : List String)

def PreferenceSet.of (pref : PreferenceSet) (dimension : String) : Option FormatSet :=
  find dimension pref.ordered

def refuse (dimension : String) (lhs rhs : Candidates) : Refusal :=
  .conflict ⟨dimension, lhs, rhs, suggestConverter dimension output.typeTag, consumerNames⟩

def setCandidates : Option FormatSet → Candidates
  | none => .anything
  | some set => .names set

def integerCandidates : Option IntRange → Candidates
  | none => .anything
  | some range => .integers range

def rateCandidates : Option RationalRange → Candidates
  | none => .anything
  | some range => .rates range

/-- An empty dimension is a conflict; an absent one is not. -/
def checkRange {Bound : Type} [LinearOrder Bound] (dimension : String) (lhs rhs : Candidates) :
    Option (Range Bound) → Except Refusal Unit
  | some range => if Range.isEmpty range then .error (refuse output consumerNames dimension lhs rhs)
      else .ok ()
  | none => .ok ()

def checkSet {Value : Type} (dimension : String) (lhs rhs : Candidates) :
    Option (List Value) → Except Refusal Unit
  | some [] => .error (refuse output consumerNames dimension lhs rhs)
  | _ => .ok ()

/-- A mandatory dimension: somebody must constrain it. -/
def requireSet (dimension : String) (lhs rhs : Candidates) :
    Option FormatSet → Except Refusal FormatSet
  | some (first :: rest) => .ok (first :: rest)
  | _ => .error (refuse output consumerNames dimension lhs rhs)

def videoOf (port : PortCapability) : VideoConstraints := port.video.getD {}
def audioOf (port : PortCapability) : AudioConstraints := port.audio.getD {}
def tensorOf (port : PortCapability) : TensorConstraints := port.tensor.getD {}

def commonSet {Value : Type} [DecidableEq Value] (dimension : PortCapability → Option (List Value)) :
    Option (List Value) :=
  (inputs.map dimension).foldl meetSets (dimension output)

def commonRange {Bound : Type} [LinearOrder Bound]
    (dimension : PortCapability → Option (Range Bound)) : Option (Range Bound) :=
  (inputs.map dimension).foldl intersectRanges (dimension output)

/-- The first input, whose constraints a conflict reports. -/
def front {Value : Type} (dimension : PortCapability → Option Value) : Option Value :=
  inputs.head?.bind dimension

def pixelFormats (port : PortCapability) : Option FormatSet := (videoOf port).pixelFormats
def width (port : PortCapability) : Option IntRange := (videoOf port).width
def height (port : PortCapability) : Option IntRange := (videoOf port).height
def fps (port : PortCapability) : Option RationalRange := (videoOf port).fps
def colorSpaces (port : PortCapability) : Option FormatSet := (videoOf port).colorSpaces
def colorRanges (port : PortCapability) : Option FormatSet := (videoOf port).colorRanges
def hdrModes (port : PortCapability) : Option FormatSet := (videoOf port).hdrModes
def sampleFormats (port : PortCapability) : Option FormatSet := (audioOf port).sampleFormats
def sampleRate (port : PortCapability) : Option IntRange := (audioOf port).sampleRate
def channelLayouts (port : PortCapability) : Option FormatSet := (audioOf port).channelLayouts
def dtypes (port : PortCapability) : Option FormatSet := (tensorOf port).dtypes
def layouts (port : PortCapability) : Option FormatSet := (tensorOf port).layouts
def shape (port : PortCapability) : List IntRange := (tensorOf port).shape
def memoryKinds (port : PortCapability) : Option (List MemoryKind) := port.memory.kinds
def deviceIds (port : PortCapability) : Option (List Int) := port.memory.deviceIds

def negotiateVideo : Except Refusal SelectedVideoFormat := do
  let inPf := front inputs pixelFormats
  -- With no constraint on any side both candidates read "*", as the source writes out.
  let formats ← requireSet output consumerNames "pixel_format"
    (setCandidates (pixelFormats output)) (setCandidates inPf) (commonSet output inputs pixelFormats)
  let widths := commonRange output inputs width
  checkRange output consumerNames "width" (integerCandidates (width output))
    (integerCandidates (front inputs width)) widths
  let heights := commonRange output inputs height
  checkRange output consumerNames "height" (integerCandidates (height output))
    (integerCandidates (front inputs height)) heights
  let rates := commonRange output inputs fps
  checkRange output consumerNames "fps" (rateCandidates (fps output))
    (rateCandidates (front inputs fps)) rates
  let spaces := commonSet output inputs colorSpaces
  checkSet output consumerNames "color_space" .nothing .nothing spaces
  let ranges := commonSet output inputs colorRanges
  checkSet output consumerNames "color_range" .nothing .nothing ranges
  let modes := commonSet output inputs hdrModes
  checkSet output consumerNames "hdr_mode" .nothing .nothing modes
  .ok {
    pixelFormat := chooseDeterministically formats (pref.of "pixel_format") inPf
    width := widths
    height := heights
    fps := rates
    colorSpace := spaces.map fun set => chooseDeterministically set (pref.of "color_space") none
    colorRange := ranges.map fun set => chooseDeterministically set (pref.of "color_range") none
    hdrMode := modes.map fun set => chooseDeterministically set (pref.of "hdr_mode") none }

def negotiateAudio : Except Refusal SelectedAudioFormat := do
  let inSf := front inputs sampleFormats
  let formats ← requireSet output consumerNames "sample_format"
    (setCandidates (sampleFormats output)) (setCandidates inSf) (commonSet output inputs sampleFormats)
  let rates := commonRange output inputs sampleRate
  checkRange output consumerNames "sample_rate" (integerCandidates (sampleRate output))
    (integerCandidates (front inputs sampleRate)) rates
  let common := commonSet output inputs channelLayouts
  checkSet output consumerNames "channel_layout" .nothing .nothing common
  .ok {
    sampleFormat := chooseDeterministically formats (pref.of "sample_format") inSf
    sampleRate := rates
    channelLayout := common.map fun set =>
      chooseDeterministically set (pref.of "channel_layout") none }

/-- One dimension of a shape; a negative maximum means unbounded. -/
def intersectDim (common other : IntRange) : IntRange where
  min := max common.min other.min
  max := if common.max < 0 then other.max
    else if 0 ≤ other.max then min common.max other.max else common.max

/-- The dimensions from `index` on, of two shapes of one rank. -/
def intersectDims (index : Nat) : List IntRange → List IntRange → Except Refusal (List IntRange)
  | common :: rest, other :: others =>
    let met := intersectDim common other
    if 0 ≤ met.max ∧ met.max < met.min then
      .error (refuse output consumerNames s!"shape[{index}]" (.integers met) (.integers other))
    else do
      let tail ← intersectDims (index + 1) rest others
      .ok (met :: tail)
  | _, _ => .ok []

/-- An empty shape is unconstrained. -/
def intersectShapes (common other : List IntRange) : Except Refusal (List IntRange) :=
  if other = [] then .ok common
  else if common = [] then .ok other
  else if common.length ≠ other.length then
    .error (refuse output consumerNames "shape_rank" (.rank common.length) (.rank other.length))
  else intersectDims output consumerNames 0 common other

def negotiateTensor : Except Refusal SelectedTensorFormat := do
  let shape ← (inputs.map shape).foldlM (intersectShapes output consumerNames) (shape output)
  let inDt := front inputs dtypes
  let types ← requireSet output consumerNames "dtype" (setCandidates (dtypes output))
    (setCandidates inDt) (commonSet output inputs dtypes)
  let common := commonSet output inputs layouts
  checkSet output consumerNames "layout" .nothing .nothing common
  .ok {
    dtype := chooseDeterministically types (pref.of "dtype") inDt
    layout := common.map fun set => chooseDeterministically set (pref.of "layout") none
    shape := shape }

def kindCandidates : Option (List MemoryKind) → Candidates
  | none => .anything
  | some set => .kinds set

/-- The preferred value when it is common, and a fallback otherwise. -/
def chooseOr {Value : Type} [DecidableEq Value] (preferred : Option Value) (common : List Value)
    (fallback : Value) : Value :=
  match preferred with
  | some value => if value ∈ common then value else fallback
  | none => fallback

def negotiateMemory : Except Refusal (MemoryKind × Int) := do
  let kinds := commonSet output inputs memoryKinds
  let devices := commonSet output inputs deviceIds
  checkSet output consumerNames "memory_kind" (kindCandidates (memoryKinds output))
    (kindCandidates (front inputs memoryKinds)) kinds
  let kind := match kinds with
    | none => pref.memoryKind.getD .host
    | some set => chooseOr pref.memoryKind set (set.headD .host)
  checkSet output consumerNames "device_id" .nothing .nothing devices
  let device := if kind = .cudaDevice ∨ kind = .pinned then
      match devices with
      | none => pref.deviceId.getD 0
      | some set => chooseOr pref.deviceId set (set.min?.getD 0)
    else -1
  .ok (kind, device)

def supportedSync : Option (List SyncPolicy) := (inputs.map PortCapability.sync).foldl meetSets none

def SyncPolicy.render : SyncPolicy → String
  | .aligned => "aligned"
  | .latest => "latest"
  | .any => "any"

def negotiateSync (edgeSync : Option SyncPolicy) : Except Refusal SyncPolicy := do
  let supported := supportedSync inputs
  checkSet output consumerNames "sync_policy" .nothing .nothing supported
  match edgeSync <|> pref.syncPolicy, supported with
  | some want, some set =>
    if want ∈ set then .ok want
    else .error (refuse output consumerNames "sync_policy" (.text (SyncPolicy.render want))
      (.policies set))
  | some want, none => .ok want
  | none, supported => .ok (supported.elim .any fun set => set.headD .any)

def checkInputs : List PortCapability → Except Refusal Unit
  | [] => .ok ()
  | input :: rest =>
    if input.direction ≠ .input then
      .error (.invalidArgument "negotiation target must be an input port")
    else if input.typeTag ≠ output.typeTag then
      .error (refuse output consumerNames "logical_type" (.text output.typeTag)
        (.text input.typeTag))
    else checkInputs rest

/-- Opaque type tags only negotiate their type, their memory and their sync policy. -/
def applies (declares : PortCapability → Bool) : Bool :=
  isBuiltinTypeTag output.typeTag && (declares output || inputs.any declares)

def whenever {Value : Type} (applicable : Bool) (negotiate : Except Refusal Value) :
    Except Refusal (Option Value) :=
  if applicable then negotiate.map some else .ok none

def negotiateUncached (edgeSync : Option SyncPolicy) : Except Refusal ConnectionContract := do
  if output.direction ≠ .output then
    throw (.invalidArgument "negotiation source must be an output port")
  checkInputs output consumerNames inputs
  let video ← whenever (applies output inputs fun port => port.video.isSome)
    (negotiateVideo output inputs pref consumerNames)
  let audio ← whenever (applies output inputs fun port => port.audio.isSome)
    (negotiateAudio output inputs pref consumerNames)
  let tensor ← whenever (applies output inputs fun port => port.tensor.isSome)
    (negotiateTensor output inputs pref consumerNames)
  let (memoryKind, deviceId) ← negotiateMemory output inputs pref consumerNames
  let syncPolicy ← negotiateSync output inputs pref consumerNames edgeSync
  .ok {
    logicalType := output.typeTag
    video := video
    audio := audio
    tensor := tensor
    memoryKind := memoryKind
    deviceId := deviceId
    syncPolicy := syncPolicy }

end Negotiate

end GraphEngine.Negotiation
