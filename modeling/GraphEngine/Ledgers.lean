import Mathlib.Data.Prod.Lex
import GraphEngine.Capabilities
import GraphEngine.KeyedSums

/-!
The resource ledger and the estimates charged to it (resource_ledger.h). One
account for each resource kind and device; a lease holds amounts of several
accounts and is resized all or nothing.
-/

namespace GraphEngine.Ledgers

open Values GraphSpecs Capabilities OrderedMaps KeyedSums

inductive ResourceKind where
  | cpuThreads | hostMemory | pinnedMemory | gpuMemory | cudaStreams | nvdecSessions
  | nvencSessions | edgeBufferBytes
  deriving DecidableEq

def ResourceKind.render : ResourceKind → String
  | .cpuThreads => "cpu_threads"
  | .hostMemory => "host_memory"
  | .pinnedMemory => "pinned_memory"
  | .gpuMemory => "gpu_memory"
  | .cudaStreams => "cuda_streams"
  | .nvdecSessions => "nvdec_sessions"
  | .nvencSessions => "nvenc_sessions"
  | .edgeBufferBytes => "edge_buffer_bytes"

/-- The ledger's `Key`; the device is -1 for host-wide kinds. -/
structure Dimension where
  kind : ResourceKind
  deviceId : Int := -1
  deriving DecidableEq

def Dimension.position (dimension : Dimension) : ℕ ×ₗ ℤ :=
  toLex (dimension.kind.ctorIdx, dimension.deviceId)

theorem Dimension.position_injective : Function.Injective Dimension.position := by
  rintro ⟨kind, device⟩ ⟨otherKind, otherDevice⟩ same
  simp only [position] at same
  cases kind <;> cases otherKind <;> simp_all [ResourceKind.ctorIdx]

/-- By kind, then by device. -/
instance : LinearOrder Dimension := LinearOrder.lift' Dimension.position Dimension.position_injective

abbrev ResourceAmount := Dimension × UInt64

abbrev ResourceAmounts := Amounts Dimension

def mergeAmounts (amounts : ResourceAmounts) : ResourceAmounts := merge amounts

/-- No capacity means unlimited. -/
structure Account where
  capacity : Option UInt64 := none
  reserved : UInt64 := 0
  peak : UInt64 := 0
  deriving DecidableEq

abbrev Ledger := List (Dimension × Account)

variable {amounts current actual : ResourceAmounts}

namespace Ledger

def account (ledger : Ledger) (dimension : Dimension) : Account := (find dimension ledger).getD {}

def available (ledger : Ledger) (dimension : Dimension) : Option UInt64 :=
  (ledger.account dimension).capacity.map fun capacity =>
    let reserved := (ledger.account dimension).reserved
    if reserved < capacity then capacity - reserved else 0

def signed (amount : UInt64) : JsonValue := .integer amount.toInt64.toInt

def shortfall (ledger : Ledger) (amount : ResourceAmount) : Option JsonObject :=
  match (ledger.account amount.1).capacity, ledger.available amount.1 with
  | some capacity, some available =>
    if amount.2 ≤ available then none
    else some [
      ("available", signed available),
      ("capacity", signed capacity),
      ("device_id", .integer amount.1.deviceId),
      ("kind", .string amount.1.kind.render),
      ("requested", signed amount.2),
      ("reserved", signed (ledger.account amount.1).reserved)]
  | _, _ => none

def exhausted (ledger : Ledger) (purpose : String) (first : ResourceAmount)
    (shortList : List JsonObject) : Status :=
  let reason := if purpose = "" then "" else " for " ++ purpose
  let available := (ledger.available first.1).getD 0
  let named := if purpose = "" then [] else [("purpose", JsonValue.string purpose)]
  .resourceExhausted
    (s!"insufficient resources{reason}: {first.1.kind.render} requested " ++
      s!"{first.2.toInt64.toInt}, available {available.toInt64.toInt}")
    (some (.object (named ++ [("retry_after_release", .bool true),
      ("short", .array (shortList.map .object))])))

def take (ledger : Ledger) (amount : ResourceAmount) : Ledger :=
  let account := ledger.account amount.1
  let reserved := account.reserved + amount.2
  assign amount.1 { account with reserved := reserved, peak := max account.peak reserved } ledger

/-- `TryReserveLocked`: every dimension must fit before any is taken; all
shortfalls are reported. -/
def tryReserve (ledger : Ledger) (amounts : ResourceAmounts) (purpose : String) : Result Ledger :=
  match amounts.filter fun amount => (ledger.shortfall amount).isSome with
  | first :: rest =>
    .error (ledger.exhausted purpose first ((first :: rest).filterMap ledger.shortfall))
  | [] => .ok (amounts.foldl take ledger)

def giveBack (ledger : Ledger) (amount : ResourceAmount) : Ledger :=
  match find amount.1 ledger with
  | none => ledger
  | some account =>
    let reserved := if amount.2 < account.reserved then account.reserved - amount.2 else 0
    assign amount.1 { account with reserved := reserved } ledger

/-- `ReleaseLocked`. -/
def release (ledger : Ledger) (amounts : ResourceAmounts) : Ledger := amounts.foldl giveBack ledger

/-- `Reserve`: the amounts of the new lease. -/
def reserve (ledger : Ledger) (amounts : ResourceAmounts) (purpose : String) :
    Result (Ledger × ResourceAmounts) := do
  let ledger ← ledger.tryReserve (mergeAmounts amounts) purpose
  .ok (ledger, mergeAmounts amounts)

def growth (current actual : ResourceAmounts) : ResourceAmounts :=
  actual.filterMap fun amount =>
    let held := (find amount.1 current).getD 0
    if held < amount.2 then some (amount.1, amount.2 - held) else none

def shrinkage (current actual : ResourceAmounts) : ResourceAmounts :=
  (actual.filterMap fun amount =>
    let held := (find amount.1 current).getD 0
    if amount.2 < held then some (amount.1, held - amount.2) else none) ++
  current.filter fun amount => (find amount.1 actual).isNone

/-- `CommitLease`: growth must be reserved, shrinkage is returned; a refusal
changes nothing. -/
def commitLease (ledger : Ledger) (current actual : ResourceAmounts) (purpose : String) :
    Result (Ledger × ResourceAmounts) := do
  let actual := mergeAmounts actual
  let ledger ← ledger.tryReserve (growth current actual) purpose
  .ok (ledger.release (shrinkage current actual), actual)

theorem reserve_ok {ledger after : Ledger} {lease : ResourceAmounts} {purpose : String}
    (done : ledger.reserve amounts purpose = .ok (after, lease)) :
    ledger.tryReserve (mergeAmounts amounts) purpose = .ok after ∧ lease = mergeAmounts amounts := by
  obtain ⟨reserved, taken, same⟩ := Fallible.bind_ok.mp done
  cases same
  exact ⟨taken, rfl⟩

theorem commitLease_ok {ledger after : Ledger} {purpose : String}
    (done : ledger.commitLease current actual purpose = .ok (after, amounts)) :
    ∃ grown, ledger.tryReserve (growth current (mergeAmounts actual)) purpose = .ok grown ∧
      after = grown.release (shrinkage current (mergeAmounts actual)) ∧
      amounts = mergeAmounts actual := by
  obtain ⟨grown, taken, same⟩ := Fallible.bind_ok.mp done
  cases same
  exact ⟨grown, taken, rfl, rfl⟩

theorem commitLease_shrinks (ledger : Ledger) (purpose : String)
    (shrinks : growth current (mergeAmounts actual) = []) :
    ∃ after, ledger.commitLease current actual purpose = .ok (after, mergeAmounts actual) := by
  unfold commitLease
  dsimp only
  rw [shrinks]
  exact ⟨_, rfl⟩

end Ledger

/-! Estimates. -/

/-- Formats without an entry have no known size. -/
def bitsPerPixel (format : String) : Option UInt64 :=
  if format ∈ ["yuv420p", "nv12", "nv21", "yuvj420p"] then some 12
  else if format ∈ ["yuv420p10le", "p010le", "p010"] then some 24
  else if format ∈ ["yuv422p", "nv16", "uyvy422", "yuyv422"] then some 16
  else if format = "yuv422p10le" then some 32
  else if format ∈ ["yuv444p", "rgb24", "bgr24"] then some 24
  else if format = "yuv444p10le" then some 48
  else if format ∈ ["rgba", "bgra", "argb", "abgr", "rgb0", "bgr0"] then some 32
  else if format ∈ ["gray", "gray8"] then some 8
  else if format = "gray16le" then some 16
  else none

def dTypeBytes (dtype : String) : Option UInt64 :=
  if dtype ∈ ["float32", "int32", "uint32"] then some 4
  else if dtype ∈ ["float16", "bfloat16", "int16", "uint16"] then some 2
  else if dtype ∈ ["int8", "uint8", "bool"] then some 1
  else if dtype ∈ ["float64", "int64", "uint64"] then some 8
  else none

def unsigned (value : Int) : UInt64 := UInt64.ofInt value

def videoBytes (video : SelectedVideoFormat) : Option UInt64 :=
  match bitsPerPixel video.pixelFormat, video.width, video.height with
  | some bits, some width, some height =>
    if width.max ≤ 0 ∨ height.max ≤ 0 then none
    else some (unsigned width.max * unsigned height.max * bits / 8)
  | _, _, _ => none

def tensorBytes (tensor : SelectedTensorFormat) : Option UInt64 :=
  match dTypeBytes tensor.dtype with
  | none => none
  | some size =>
    if tensor.shape = [] ∨ tensor.shape.any (fun range => range.max ≤ 0) then none
    else some (tensor.shape.foldl (fun count range => count * unsigned range.max) 1 * size)

/-- `EstimatePacketBytes`: audio, bytes and custom types have no bound. -/
def estimatePacketBytes (contract : ConnectionContract) : Option UInt64 :=
  match contract.video, contract.tensor with
  | some video, _ => videoBytes video
  | none, some tensor => tensorBytes tensor
  | none, none => none

abbrev NodeResourceEstimator := OperatorKey → JsonValue → ResourceAmounts

structure GraphResourceEstimate where
  amounts : ResourceAmounts
  unbudgetedEdges : List String
  deriving DecidableEq

def wanted (only : List String) (id : String) : Bool := only.isEmpty || decide (id ∈ only)

def edgePacketBytes (contracts : List (String × ConnectionContract)) (edge : EdgeSpec) :
    Option UInt64 :=
  edge.queue.maxPacketBytes <|> (find edge.id contracts).bind estimatePacketBytes

def edgeAmounts (contracts : List (String × ConnectionContract)) (edge : EdgeSpec) :
    ResourceAmounts :=
  match edgePacketBytes contracts edge with
  | some bytes => [(⟨.edgeBufferBytes, -1⟩, bytes * edge.queue.capacity.toUInt64)]
  | none => []

def nodeAmounts (estimate : NodeResourceEstimator) (node : NodeSpec) : ResourceAmounts :=
  estimate node.op node.options

def estimateGraphResources (estimate : NodeResourceEstimator) (spec : GraphSpec)
    (contracts : List (String × ConnectionContract)) (onlyNodes onlyEdges : List String) :
    GraphResourceEstimate :=
  let nodes := spec.nodes.filter fun node => wanted onlyNodes node.id
  let edges := spec.edges.filter fun edge => wanted onlyEdges edge.id
  { amounts := mergeAmounts
      (nodes.flatMap (nodeAmounts estimate) ++ edges.flatMap (edgeAmounts contracts))
    unbudgetedEdges :=
      (edges.filter fun edge => (edgePacketBytes contracts edge).isNone).map EdgeSpec.id }

end GraphEngine.Ledgers
