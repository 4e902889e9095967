import Mathlib.Algebra.BigOperators.Ring.List
import Mathlib.Algebra.Order.Ring.Int

/-!
The sizes of the tensors that `OnnxInfer` copies (tensor.cpp, `RunSame` in onnx_infer.cpp), in the
64-bit arithmetic of the source. The session is its output shape; element values are left out.
-/

namespace GraphEngine.OnnxTensors

open List

inductive DType where
  | float32 | uint8 | int64
  deriving DecidableEq

def sizeOf : DType → Nat
  | .float32 => 4
  | .uint8 => 1
  | .int64 => 8

/-- A product of dimensions in `std::size_t`. -/
def product (dims : List Int) : Nat := (dims.map fun d => (d % 2 ^ 64).toNat).prod % 2 ^ 64

def elementCount (shape : List Int) : Nat :=
  if shape = [] ∨ ∃ d ∈ shape, d ≤ 0 then 0 else product shape

def byteSize (dtype : DType) (shape : List Int) : Nat := elementCount shape * sizeOf dtype % 2 ^ 64

/-- A tensor packet: its declared format and the size of its payload. -/
structure Packet where
  dtype : DType
  shape : List Int
  bytes : Nat

/-- `output` is the type of the model's first output, which `Open` keeps, and `named` that of the
output that is run. -/
structure Model where
  batchable : Bool
  rank : Nat
  input : DType
  output : DType
  named : DType

section Copies

variable (model : Model)

def squeeze (shape : List Int) : List Int :=
  if model.batchable ∧ shape.length = model.rank ∧ shape.head? = some 1 then shape.tail else shape

/-- The checks of `FromJson`, `FormatOf` and `RunBatch`, and the sample shape of the packet. -/
def accept (packet : Packet) : Option (List Int) :=
  if packet.shape ≠ [] ∧ (∀ d ∈ packet.shape, 0 < d) ∧
    packet.bytes = byteSize packet.dtype packet.shape ∧ packet.dtype = model.input
  then some (squeeze model packet.shape)
  else none

def stagingBytes (sample : List Int) (n : Nat) : Nat := byteSize model.input sample * n % 2 ^ 64

/-- The bytes of the output that one member gets. -/
def sliceBytes (odims : List Int) (n : Nat) : Nat :=
  let shape := if model.batchable ∧ odims.head? = some ↑n then odims.tail else odims
  product (if shape = [] then [1] else shape) * sizeOf model.output % 2 ^ 64

/-- How many members are given each element of the output. -/
def shares (odims : List Int) (n : Nat) : Nat :=
  if model.batchable ∧ odims.head? = some ↑n then 1 else n

/-- The bytes of a tensor of this shape. -/
def exactBytes (dtype : DType) (shape : List Int) : Nat := (shape.map Int.toNat).prod * sizeOf dtype

variable {model}

theorem product_eq {dims : List Int} (positive : ∀ d ∈ dims, 0 ≤ d) :
    product dims = (dims.map Int.toNat).prod % 2 ^ 64 := by
  unfold product
  induction dims with
  | nil => rfl
  | cons d dims ih =>
    have rest := ih fun e listed => positive e (.tail _ listed)
    have head : (d % 2 ^ 64).toNat = d.toNat % 2 ^ 64 := by
      have := positive d (.head _)
      omega
    rw [map_cons, map_cons, prod_cons, prod_cons, Nat.mul_mod, rest, head, Nat.mod_mod,
      ← Nat.mul_mod]

theorem sizeOf_pos (dtype : DType) : 0 < sizeOf dtype := by
  cases dtype <;> decide

theorem byteSize_mod {dtype : DType} {shape : List Int} (some : shape ≠ [])
    (positive : ∀ d ∈ shape, 0 < d) : byteSize dtype shape = exactBytes dtype shape % 2 ^ 64 := by
  have counted : elementCount shape = product shape := by
    refine if_neg fun bad => bad.elim some ?_
    rintro ⟨d, listed, low⟩
    exact absurd (positive d listed) (by omega)
  rw [byteSize, counted, product_eq fun d listed => (positive d listed).le, Nat.mod_mul_mod]
  rfl

theorem exactBytes_tail {dtype : DType} {shape : List Int} (lead : Nat)
    (first : shape.head? = some ↑lead) :
    exactBytes dtype shape = lead * exactBytes dtype shape.tail := by
  cases shape with
  | nil => cases first
  | cons d rest =>
    cases first
    simp [exactBytes, Nat.mul_assoc]

/-- What an accepted packet declares is its sample, and its payload has these bytes but for the
wrap. -/
theorem accept_sized {packet : Packet} {sample : List Int}
    (took : accept model packet = some sample) :
    exactBytes packet.dtype packet.shape = exactBytes model.input sample ∧
      packet.bytes = exactBytes model.input sample % 2 ^ 64 ∧ ∀ d ∈ sample, 0 < d := by
  unfold accept at took
  split at took
  case isFalse => cases took
  case isTrue valid =>
    obtain ⟨some, positive, sized, typed⟩ := valid
    cases took
    have same : exactBytes model.input (squeeze model packet.shape) =
        exactBytes model.input packet.shape := by
      unfold squeeze
      split
      · next squeezed => rw [exactBytes_tail 1 squeezed.2.2, Nat.one_mul]
      · rfl
    refine ⟨by rw [typed, same], by rw [sized, typed, same, byteSize_mod some positive], ?_⟩
    unfold squeeze
    split
    · exact fun d listed => positive d (mem_of_mem_tail listed)
    · exact positive

theorem inputs_exact_iff {members : List Packet} {sample : List Int} (nonempty : members ≠ [])
    (accepted : ∀ packet ∈ members, accept model packet = some sample) :
    ((∀ packet ∈ members, packet.bytes = exactBytes packet.dtype packet.shape ∧
      byteSize model.input sample = packet.bytes) ∧
      stagingBytes model sample members.length = (members.map Packet.bytes).sum) ↔
    sample ≠ [] ∧ members.length * exactBytes model.input sample < 2 ^ 64 := by
  obtain ⟨first, listed⟩ := exists_mem_of_ne_nil members nonempty
  obtain ⟨declared, sized, positive⟩ := accept_sized (accepted first listed)
  have total (same : ∀ packet ∈ members, packet.bytes = exactBytes model.input sample) :
      (members.map Packet.bytes).sum = members.length * exactBytes model.input sample := by
    rw [map_congr_left same]
    simp
  constructor
  · rintro ⟨exact, staged⟩
    obtain ⟨whole, copied⟩ := exact first listed
    have kept : sample ≠ [] := by
      rintro rfl
      have none : byteSize model.input [] = 0 := by simp [byteSize, elementCount]
      rw [none, whole, declared, exactBytes, map_nil, prod_nil, Nat.one_mul] at copied
      exact absurd copied (sizeOf_pos _).ne
    rw [total fun packet listed =>
      (exact packet listed).1.trans (accept_sized (accepted packet listed)).1] at staged
    exact ⟨kept, staged ▸ Nat.mod_lt _ (by decide)⟩
  · rintro ⟨kept, small⟩
    have one : exactBytes model.input sample < 2 ^ 64 :=
      (Nat.le_mul_of_pos_left _ (length_pos_iff.mpr nonempty)).trans_lt small
    have bytes (packet : Packet) (listed : packet ∈ members) :
        packet.bytes = exactBytes model.input sample :=
      (accept_sized (accepted packet listed)).2.1.trans (Nat.mod_eq_of_lt one)
    have copied : byteSize model.input sample = exactBytes model.input sample :=
      (byteSize_mod kept positive).trans (Nat.mod_eq_of_lt one)
    refine ⟨fun packet listed => ⟨?_, copied.trans (bytes packet listed).symm⟩, ?_⟩
    · rw [bytes packet listed, (accept_sized (accepted packet listed)).1]
    · rw [stagingBytes, total bytes, copied, Nat.mul_comm, Nat.mod_eq_of_lt small]

theorem product_exact {dims : List Int} (positive : ∀ d ∈ dims, 0 ≤ d)
    (small : (dims.map Int.toNat).prod < 2 ^ 60) (dtype : DType) :
    product (if dims = [] then [1] else dims) * sizeOf dtype % 2 ^ 64 =
      (dims.map Int.toNat).prod * sizeOf dtype := by
  have wide : sizeOf dtype ≤ 8 := by cases dtype <;> decide
  have counted : product (if dims = [] then [1] else dims) = (dims.map Int.toNat).prod := by
    split
    case isTrue none => subst none; rfl
    case isFalse => rw [product_eq positive, Nat.mod_eq_of_lt (small.trans (by decide))]
  rw [counted, Nat.mod_eq_of_lt]
  calc (dims.map Int.toNat).prod * sizeOf dtype
      ≤ (dims.map Int.toNat).prod * 8 := Nat.mul_le_mul_left _ wide
    _ < 2 ^ 64 := by omega

theorem slices_exact {odims : List Int} {n : Nat} (positive : ∀ d ∈ odims, 0 ≤ d)
    (small : (odims.map Int.toNat).prod < 2 ^ 60) (nonempty : 0 < n) :
    n * sliceBytes model odims n =
      (odims.map Int.toNat).prod * (shares model odims n * sizeOf model.output) := by
  unfold sliceBytes shares
  by_cases first : model.batchable ∧ odims.head? = some ↑n
  · have lead : (odims.map Int.toNat).prod = n * (odims.tail.map Int.toNat).prod := by
      cases odims with
      | nil => cases first.2
      | cons d rest => cases first.2; simp
    have tail : (odims.tail.map Int.toNat).prod < 2 ^ 60 :=
      (Nat.le_mul_of_pos_left _ nonempty).trans_lt (lead ▸ small)
    rw [if_pos first, if_pos first,
      product_exact (fun d listed => positive d (mem_of_mem_tail listed)) tail, lead, Nat.one_mul,
      Nat.mul_assoc]
  · rw [if_neg first, if_neg first, product_exact positive small, Nat.mul_left_comm]

/-- A tensor that is held in memory has all slices if it has no elements, or the elements of one
place in every slice fit into one of its own. -/
theorem slices_inside_iff {odims : List Int} {n : Nat} (positive : ∀ d ∈ odims, 0 ≤ d)
    (held : exactBytes model.named odims < 2 ^ 60) (nonempty : 0 < n) :
    (∀ i < n, (i + 1) * sliceBytes model odims n ≤ exactBytes model.named odims) ↔
      0 ∈ odims ∨ shares model odims n * sizeOf model.output ≤ sizeOf model.named := by
  have last : (∀ i < n, (i + 1) * sliceBytes model odims n ≤ exactBytes model.named odims) ↔
      n * sliceBytes model odims n ≤ exactBytes model.named odims := by
    refine ⟨fun inside => ?_, fun inside i below =>
      (Nat.mul_le_mul_right _ below).trans inside⟩
    simpa [Nat.sub_add_cancel nonempty] using inside (n - 1) (by omega)
  have empty : (odims.map Int.toNat).prod = 0 ↔ 0 ∈ odims := by
    rw [prod_eq_zero_iff, mem_map]
    constructor
    · rintro ⟨d, listed, none⟩
      have := positive d listed
      exact (show d = 0 by omega) ▸ listed
    · exact fun listed => ⟨0, listed, rfl⟩
  have small : (odims.map Int.toNat).prod < 2 ^ 60 :=
    (Nat.le_mul_of_pos_right _ (sizeOf_pos _)).trans_lt held
  rw [last, slices_exact positive small nonempty, exactBytes, ← empty]
  rcases Nat.eq_zero_or_pos (odims.map Int.toNat).prod with none | many
  · simp [none]
  · rw [Nat.mul_le_mul_left_iff many, or_iff_right many.ne']

end Copies

end GraphEngine.OnnxTensors
