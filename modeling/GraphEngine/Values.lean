import Mathlib.Algebra.Ring.Int.Defs
import Mathlib.Data.List.Basic

/-!
Status values, JSON values and operator keys shared by every module. A status
carries its JSON context as a value; the engine serialises it where it is
produced and parses it back where it is read. A floating-point number is kept
as its 64 bits, since nothing modelled here computes with one.
-/

namespace GraphEngine.Values

inductive JsonValue where
  | null
  | bool (value : Bool)
  | integer (value : Int)
  | number (bits : UInt64)
  | string (value : String)
  | array (values : List JsonValue)
  | object (fields : List (String × JsonValue))
  deriving Repr, Inhabited

abbrev JsonObject := List (String × JsonValue)

namespace JsonValue

mutual
def same : JsonValue → JsonValue → Bool
  | .null, .null => true
  | .bool left, .bool right => decide (left = right)
  | .integer left, .integer right => decide (left = right)
  | .number left, .number right => decide (left = right)
  | .string left, .string right => decide (left = right)
  | .array left, .array right => sameValues left right
  | .object left, .object right => sameFields left right
  | _, _ => false

def sameValues : List JsonValue → List JsonValue → Bool
  | [], [] => true
  | left :: lefts, right :: rights => same left right && sameValues lefts rights
  | _, _ => false

def sameFields : JsonObject → JsonObject → Bool
  | [], [] => true
  | (leftKey, left) :: lefts, (rightKey, right) :: rights =>
    decide (leftKey = rightKey) && same left right && sameFields lefts rights
  | _, _ => false
end

mutual
theorem same_iff (left right : JsonValue) : same left right = true ↔ left = right := by
  cases left <;> cases right <;> simp [same]
  · exact sameValues_iff _ _
  · exact sameFields_iff _ _

theorem sameValues_iff (left right : List JsonValue) :
    sameValues left right = true ↔ left = right := by
  cases left with
  | nil => cases right <;> simp [sameValues]
  | cons value rest =>
    cases right with
    | nil => simp [sameValues]
    | cons other tail => simp [sameValues, same_iff value other, sameValues_iff rest tail]

theorem sameFields_iff (left right : JsonObject) : sameFields left right = true ↔ left = right := by
  cases left with
  | nil => cases right <;> simp [sameFields]
  | cons field rest =>
    cases right with
    | nil => simp [sameFields]
    | cons other tail =>
      obtain ⟨key, value⟩ := field
      obtain ⟨otherKey, otherValue⟩ := other
      simp [sameFields, same_iff value otherValue, sameFields_iff rest tail]
end

instance : DecidableEq JsonValue :=
  fun left right => decidable_of_iff _ (same_iff left right)

def isObject : JsonValue → Bool
  | .object _ => true
  | _ => false

/-- `as_object` guarded by `is_object`: every caller falls back to the empty
object. -/
def asObject : JsonValue → JsonObject
  | .object fields => fields
  | _ => []

end JsonValue

inductive StatusCode where
  | invalidArgument | notFound | alreadyExists | versionConflict | graphInvalid
  | capabilityConflict | sharedDependency | resourceExhausted | nodeWarmupFailed
  | parameterUnsupported | parameterApplyFailed | pluginAbiMismatch | pluginManifestInvalid
  | pluginRetired | pluginPhysicalUnloadUnsafe | wouldBlock | cancelled | internal
  deriving DecidableEq

/-- The value of the C enumerator; `GE_STATUS_OK` is 0. -/
def StatusCode.value (code : StatusCode) : Nat := code.ctorIdx + 1

structure Status where
  code : StatusCode
  message : String
  retryable : Bool := false
  context : Option JsonValue := none
  deriving DecidableEq

/-- `Result<T>`; a `Status` return value is the unit case, `ok` standing for
`GE_STATUS_OK`. -/
abbrev Result := Except Status

namespace Status

def invalidArgument (message : String) : Status := ⟨.invalidArgument, message, false, none⟩
def notFound (message : String) : Status := ⟨.notFound, message, false, none⟩
def alreadyExists (message : String) : Status := ⟨.alreadyExists, message, false, none⟩
def versionConflict (message : String) : Status := ⟨.versionConflict, message, true, none⟩
def graphInvalid (message : String) (context : Option JsonValue := none) : Status :=
  ⟨.graphInvalid, message, false, context⟩
def sharedDependency (message : String) (context : Option JsonValue := none) : Status :=
  ⟨.sharedDependency, message, false, context⟩
def resourceExhausted (message : String) (context : Option JsonValue := none) : Status :=
  ⟨.resourceExhausted, message, true, context⟩
def nodeWarmupFailed (message : String) : Status := ⟨.nodeWarmupFailed, message, false, none⟩
def parameterUnsupported (message : String) : Status :=
  ⟨.parameterUnsupported, message, false, none⟩
def cancelled (message : String) : Status := ⟨.cancelled, message, false, none⟩
def internal (message : String) : Status := ⟨.internal, message, false, none⟩

end Status

/-- "type@version". -/
structure OperatorKey where
  typeName : String
  semanticVersion : String
  deriving DecidableEq

def OperatorKey.render (op : OperatorKey) : String := op.typeName ++ "@" ++ op.semanticVersion

/-- A result in `std::int64_t`. -/
def int64 (value : Int) : Int := value.bmod UInt64.size

theorem int64_exact {value : Int} (large : -2 ^ 63 ≤ value) (small : value < 2 ^ 63) :
    int64 value = value := by
  rw [int64, UInt64.size, Int.bmod_eq_of_le] <;> omega

end GraphEngine.Values
