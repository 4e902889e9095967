import Mathlib.Data.List.Basic

/-!
Constraints that several parties put on one value. Nothing said means everything
is accepted. Intersecting them one after another accepts what all parties accept.
-/

namespace GraphEngine.Constraints

open List

universe u v
variable {Constraint : Type u} {Value : Type v}

theorem foldl_meet {accepts : Constraint → Value → Prop} {meet : Constraint → Constraint → Constraint}
    (both : ∀ left right value, accepts (meet left right) value ↔
      accepts left value ∧ accepts right value)
    (start : Constraint) (sides : List Constraint) (value : Value) :
    accepts (sides.foldl meet start) value ↔ ∀ side ∈ start :: sides, accepts side value := by
  induction sides generalizing start with
  | nil => simp
  | cons side rest ih =>
    rw [foldl_cons, ih, forall_mem_cons, both, forall_mem_cons, forall_mem_cons, and_assoc]

/-! Sets, given as lists in order of preference. -/

section Sets

variable [DecidableEq Value]

/-- The order is that of the left side. -/
def meetSets : Option (List Value) → Option (List Value) → Option (List Value)
  | none, right => right
  | left, none => left
  | some left, some right => some (left.filter (· ∈ right))

def InSet (side : Option (List Value)) (value : Value) : Prop :=
  ∀ allowed, side = some allowed → value ∈ allowed

omit [DecidableEq Value] in
@[simp] theorem inSet_none (value : Value) : InSet none value := nofun

omit [DecidableEq Value] in
@[simp] theorem inSet_some {allowed : List Value} {value : Value} :
    InSet (some allowed) value ↔ value ∈ allowed := by
  simp [InSet]

theorem inSet_meet (left right : Option (List Value)) (value : Value) :
    InSet (meetSets left right) value ↔ InSet left value ∧ InSet right value := by
  cases left <;> cases right <;> simp [meetSets]

theorem isSome_meet (left right : Option (List Value)) :
    (meetSets left right).isSome = (left.isSome || right.isSome) := by
  cases left <;> cases right <;> rfl

variable (start : Option (List Value)) (sides : List (Option (List Value)))

theorem inSet_foldl (value : Value) : InSet (sides.foldl meetSets start) value ↔
      ∀ side ∈ start :: sides, InSet side value :=
  foldl_meet inSet_meet start sides value

theorem isSome_foldl :
    (sides.foldl meetSets start).isSome = true ↔ ∃ side ∈ start :: sides, side.isSome = true := by
  induction sides generalizing start with
  | nil => simp
  | cons side rest ih =>
    rw [foldl_cons, ih]
    simp only [exists_mem_cons_iff, isSome_meet, Bool.or_eq_true, or_assoc]

/-- The parties say something and agree on nothing. -/
def Clash (sides : List (Option (List Value))) : Prop :=
  (∃ side ∈ sides, side.isSome = true) ∧ ¬ ∃ value, ∀ side ∈ sides, InSet side value

/-- Nobody says anything, or they agree on nothing. -/
def Unsettled (sides : List (Option (List Value))) : Prop :=
  (¬ ∃ side ∈ sides, side.isSome = true) ∨ ¬ ∃ value, ∀ side ∈ sides, InSet side value

theorem foldl_empty : sides.foldl meetSets start = some [] ↔ Clash (start :: sides) := by
  unfold Clash
  rw [← isSome_foldl]
  simp only [← inSet_foldl]
  cases sides.foldl meetSets start with
  | none => simp
  | some common => cases common <;> simp

theorem foldl_unsettled :
    (sides.foldl meetSets start = none ∨ sides.foldl meetSets start = some []) ↔
      Unsettled (start :: sides) := by
  unfold Unsettled
  rw [← isSome_foldl]
  simp only [← inSet_foldl]
  cases sides.foldl meetSets start with
  | none => simp
  | some common => cases common <;> simp

end Sets

end GraphEngine.Constraints
